import PictureMarkup.Color
import PictureMarkup.Path

/-!
# Paints

How a shape or a layer is coloured: a style, an optional shader, the geometry of
strokes and the filters of layers. A shader may tile a nested picture; the type
of that picture is a parameter `P` here, and the picture type ties the knot.
-/

namespace PictureMarkup

/-- Whether a shape is filled, outlined, or both. -/
inductive PaintStyle where
  | fill
  | stroke
  | fillAndStroke
  deriving DecidableEq

namespace PaintStyle

/-- The area is painted. -/
def fills : PaintStyle → Bool
  | .fill | .fillAndStroke => true
  | .stroke => false

/-- The outline is painted. -/
def strokes : PaintStyle → Bool
  | .stroke | .fillAndStroke => true
  | .fill => false

end PaintStyle

/-- How an open line ends. -/
inductive LineCap where
  | butt
  | round
  | square
  deriving DecidableEq

/-- How two lines meet at a corner. -/
inductive LineJoin where
  | miter
  | round
  | bevel
  deriving DecidableEq

/-- How a shader continues outside its own area. -/
inductive Extend where
  | pad
  | repeat
  | reflect
  deriving DecidableEq

/-- The geometry of an outline. Dashes are in the units of the picture, and none make a solid
line. -/
structure Stroke (α : Type) where
  width : α
  startCap : LineCap := .butt
  endCap : LineCap := .butt
  join : LineJoin := .miter
  miterLimit : α
  dashes : List α := []
  dashOffset : α

/-- The colour at a fraction of the way along a gradient. -/
structure GradientStop (α : Type) where
  offset : α
  color : Color

/-- The shape of a gradient: along a line, between two circles, or around a point. -/
inductive GradientKind (α : Type) where
  | linear (start finish : Point α)
  | radial (startCenter : Point α) (startRadius : α) (endCenter : Point α) (endRadius : α)
  | sweep (center : Point α) (startAngle endAngle : α)

/-- Where the colour of a painted point comes from. -/
inductive Shader (α P : Type) where
  | color (c : Color)
  /-- A gradient, placed by a matrix of its own if it has one. -/
  | gradient (kind : GradientKind α) (extend : Extend) (stops : List (GradientStop α))
      (matrix : Option (Affine α))
  /-- A picture, whose bounds are mapped to a tile that repeats. -/
  | picture (picture : P) (tile : Rect α) (extend : Extend) (matrix : Option (Affine α))

namespace Shader

variable {α P Q : Type}

/-- Change the nested picture. -/
def map (f : P → Q) : Shader α P → Shader α Q
  | .color c => .color c
  | .gradient k e s m => .gradient k e s m
  | .picture p t e m => .picture (f p) t e m

/-- The colour of a shader that has only one. -/
def color? : Shader α P → Option Color
  | .color c => some c
  | .gradient .. | .picture .. => none

/-- Give the shader a matrix of its own; a plain colour has no use for one. -/
def withMatrix (s : Shader α P) (m : Affine α) : Shader α P :=
  match s with
  | .color c => .color c
  | .gradient k e s _ => .gradient k e s (some m)
  | .picture p t e _ => .picture p t e (some m)

end Shader

/-- A filter on the colours of a layer. -/
inductive ColorFilter (α : Type) where
  | luminanceToAlpha
  /-- A matrix of four rows and five columns, row by row. -/
  | matrix (values : List α)
  | blend (c : Color)

/-- A filter on the pixels of a layer. -/
inductive ImageFilter (α : Type) where
  | flood (c : Color)
  | blur (deviationX deviationY : α)
  | dropShadow (dx dy deviationX deviationY : α) (c : Color)
  | offset (dx dy : α)

/-- The font of a text. -/
structure TextStyle (α : Type) where
  family : String
  size : α
  weight : Nat := 400
  italic : Bool := false

/-- How a shape or a layer is coloured. -/
structure Paint (α P : Type) where
  style : PaintStyle := .fill
  shader : Option (Shader α P) := none
  stroke : Stroke α
  color : Option Color := none
  colorFilter : Option (ColorFilter α) := none
  imageFilter : Option (ImageFilter α) := none
  text : Option (TextStyle α) := none

section

variable {α : Type} [Scalar α]

/-- The stroke of a paint that names none: one unit wide, mitred up to four widths. -/
def Stroke.standard : Stroke α where
  width := Scalar.one
  miterLimit := Scalar.ofNat 4
  dashOffset := Scalar.zero

end

namespace Paint

variable {α P Q : Type}

/-- Change the picture nested in the shader. -/
def map (f : P → Q) (p : Paint α P) : Paint α Q :=
  { p with shader := p.shader.map (Shader.map f) }

variable [Scalar α]

/-- A fill without a shader. -/
def standard : Paint α P := { stroke := Stroke.standard }

/-- The paint of a style that takes its colours from a shader. -/
def shaded (style : PaintStyle) (shader : Shader α P) : Paint α P :=
  { (standard : Paint α P) with style := style, shader := some shader }

/-- A fill with a plain colour. -/
def fill (c : Color) : Paint α P :=
  { (shaded .fill (.color c) : Paint α P) with color := some c }

/-- An outline of some width in a plain colour. -/
def ofStroke (c : Color) (width : α) : Paint α P :=
  { (shaded .stroke (.color c) : Paint α P) with
    color := some c, stroke := { Stroke.standard with width := width } }

/-- The paint of a layer with a colour. -/
def layer (c : Color) : Paint α P :=
  { (standard : Paint α P) with color := some c }

end Paint

end PictureMarkup
