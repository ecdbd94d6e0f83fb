import PictureMarkup.Picture

/-!
# Written pictures

A picture as it stands in a document that has been understood as far as its structure
goes: colours and paths are still texts, a colour matrix may have any number of
values and a run of glyphs any number of positions. Everything that cannot be wrong
any more already has its final type.

As with pictures, the type of the pictures nested in shaders is a parameter `P`.
-/

namespace PictureMarkup.Written

/-- A path by its path data. -/
structure Outline where
  data : String
  fillRule : FillRule := .nonZero

/-- A gradient stop by the text of its colour. -/
structure Stop where
  offset : Float
  color : String

/-- A shader. -/
inductive Shader (P : Type) where
  | color (text : String)
  | linear (start finish : Point Float) (stops : List Stop) (extend : Extend)
      (matrix : Option (Affine Float))
  | conical (center : Point Float) (startRadius : Float) (origin : Point Float)
      (endRadius : Float) (stops : List Stop) (extend : Extend)
      (matrix : Option (Affine Float))
  | picture (picture : P) (tile : Rect Float) (extend : Extend)
      (matrix : Option (Affine Float))

/-- A filter on the colours of a layer. -/
inductive ColorFilter where
  | luminanceToAlpha
  | matrix (values : List Float)
  | blend (color : String)

/-- A filter on the pixels of a layer. -/
inductive ImageFilter where
  | flood (color : String)
  | blur (deviation : Float)
  | dropShadow (dx dy deviation : Float) (color : String)
  | offset (dx dy : Float)

/-- A paint. -/
structure Paint (P : Type) where
  style : PaintStyle := .fill
  shader : Option (Shader P) := none
  color : Option String := none
  stroke : Option (Stroke Float) := none
  colorFilter : Option ColorFilter := none
  imageFilter : Option ImageFilter := none
  text : Option (TextStyle Float) := none

/-- A command. -/
inductive Command (P : Type) where
  | save
  | restore
  | setMatrix (matrix : Affine Float)
  | clipPath (path : Outline) (combine : ClipCombine) (antialias : Bool)
  | clipRect (rect : Rect Float) (combine : ClipCombine) (antialias : Bool)
  | saveLayer (paint : Option (Paint P))
  | drawPath (path : Outline) (paint : Paint P)
  | drawText (text : String) (origin : Point Float) (paint : Paint P)
  | drawTextOnPath (text : String) (path : Outline) (offset : Point Float) (paint : Paint P)
  | drawTextBlob (glyphs : List Nat) (positions : List (Point Float)) (origin : Point Float)
      (paint : Paint P)
  | drawImage (image : Image) (source target : Rect Float) (paint : Option (Paint P))

/-- The name under which a command is written. -/
def Command.name {P : Type} : Command P → String
  | .save => "save"
  | .restore => "restore"
  | .setMatrix _ => "set_matrix"
  | .clipPath .. => "clip_path"
  | .clipRect .. => "clip_rect"
  | .saveLayer _ => "save_layer"
  | .drawPath .. => "draw_path"
  | .drawText .. => "draw_text"
  | .drawTextOnPath .. => "draw_text_on_path"
  | .drawTextBlob .. => "draw_text_blob"
  | .drawImage .. => "draw_image"

/-- A picture: its bounds and its commands in order. -/
structure Picture where
  cullRect : Rect Float
  commands : List (Command Picture)

end PictureMarkup.Written
