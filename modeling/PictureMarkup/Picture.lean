import PictureMarkup.Paint

/-!
# Pictures

A picture is what a renderer hands over: bounds and a flat list of commands that
change the state of a canvas or draw on it. Matrices are absolute; a matrix or a
clip stays in effect until the matching restore. Shaders of paints may hold
further pictures, to any depth.
-/

namespace PictureMarkup

/-- How a clip combines with the clips already in effect. -/
inductive ClipCombine where
  | intersect
  | difference
  deriving DecidableEq

/-- A run of positioned glyphs of one font. -/
structure TextBlob (α : Type) where
  glyphs : List Nat
  positions : List (Point α)

/-- The size of an image in pixels; the pixels themselves are not recorded. -/
structure Image where
  width : Nat
  height : Nat

/-- A step of a recording, over paints whose nested pictures have type `P`. -/
inductive Command (α P : Type) where
  | clipPath (path : Path α) (combine : ClipCombine) (antialias : Bool)
  | clipRect (rect : Rect α) (combine : ClipCombine) (antialias : Bool)
  /-- Replace the matrix. -/
  | setMatrix (matrix : Affine α)
  /-- Open a scope for the matrix and the clips. -/
  | save
  | restore
  /-- Open a scope whose drawings are combined as a whole when it ends. -/
  | saveLayer (paint : Option (Paint α P))
  | drawPath (path : Path α) (paint : Paint α P)
  | drawText (text : String) (origin : Point α) (paint : Paint α P)
  | drawTextOnPath (text : String) (path : Path α) (offset : Point α) (paint : Paint α P)
  | drawTextBlob (blob : TextBlob α) (origin : Point α) (paint : Paint α P)
  | drawImage (image : Image) (source target : Rect α) (paint : Option (Paint α P))

namespace Command

variable {α P : Type}

/-- The name of a command in reports. -/
def name : Command α P → String
  | .clipPath .. => "clip_path"
  | .clipRect .. => "clip_rect"
  | .setMatrix _ => "set_matrix"
  | .save => "save"
  | .restore => "restore"
  | .saveLayer _ => "save_layer"
  | .drawPath .. => "draw_path"
  | .drawText .. => "draw_text"
  | .drawTextOnPath .. => "draw_text_on_path"
  | .drawTextBlob .. => "draw_text_blob"
  | .drawImage .. => "draw_image"

end Command

/-- A recording: its bounds and its commands in order. -/
structure Picture (α : Type) where
  cullRect : Rect α
  commands : List (Command α (Picture α))

/-- The picture has no commands. -/
def Picture.isEmpty {α : Type} (p : Picture α) : Bool := p.commands.isEmpty

end PictureMarkup
