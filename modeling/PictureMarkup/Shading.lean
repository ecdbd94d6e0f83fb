import PictureMarkup.Drawing
import PictureMarkup.Options
import PictureMarkup.Picture

/-!
# Shapes and their paints

A command draws a path with a paint; here the two become a leaf. Brushes are placed
relative to the bounding box of the shape. A gradient without a matrix of its own
moves to the box's corner. A gradient with one is either mapped through it, once its
translation has been moved to the corner, or keeps its points and takes the matrix
along as a brush transform.

`Scene` holds what a leaf depends on beyond its path and paint: the options, the
source of glyph outlines, how a path is measured, and how the picture of a shader
becomes a drawing.
-/

namespace PictureMarkup

/-- Outlines for texts, by text, origin and paint. -/
abbrev GlyphSource (α P : Type) : Type :=
  String → Point α → Paint α P → Option (List (PathElement α))

/-- What drawing depends on, for paints whose nested pictures have type `P`. -/
structure Scene (α P : Type) where
  options : Options
  glyphs : GlyphSource α P
  bounds : Path α → Rect α
  cullRect : P → Rect α
  /-- The drawing of a nested picture, nothing for one that is nested too deep. -/
  visual : P → Option (Group α)

variable {α P : Type} [Scalar α]

/-- How a gradient comes to lie on a shape. -/
inductive Placement (α : Type) where
  /-- Every point moves by the corner of the shape's box and stays at or right of and
  below it. -/
  | moved (origin : Point α)
  | mapped (m : Affine α)
  /-- Points stay, and the matrix is written beside them. -/
  | transformed (m : Affine α)

namespace Placement

/-- A matrix whose translation starts from the corner of a box. -/
def fromCorner (m : Affine α) (bounds : Rect α) : Affine α :=
  { m with e := m.e - bounds.x0, f := m.f - bounds.y0 }

/-- The same, with a translation to the left or upwards left out. -/
def fromCornerClamped (m : Affine α) (bounds : Rect α) : Affine α :=
  { m with e := Scalar.clamp (m.e - bounds.x0), f := Scalar.clamp (m.f - bounds.y0) }

/-- The placement of a gradient with a matrix of its own, or without one, on a shape with a
box. -/
def choose (matrix : Option (Affine α)) (bounds : Rect α) (brushTransform : Bool) :
    Placement α :=
  match matrix with
  | none => .moved bounds.origin
  | some m =>
    if brushTransform then .transformed (fromCorner m bounds)
    else .mapped (fromCornerClamped m bounds)

/-- Where a point of the gradient comes to lie. -/
def point (placement : Placement α) (p : Point α) : Point α :=
  match placement with
  | .moved o => ⟨Scalar.clamp (p.x - o.x), Scalar.clamp (p.y - o.y)⟩
  | .mapped m => m.apply p
  | .transformed _ => p

/-- What becomes of a radius: its horizontal extent under the linear part. -/
def radius (placement : Placement α) (r : α) : α :=
  match placement with
  | .mapped m => m.a * r
  | .moved _ | .transformed _ => r

/-- The matrix that is written beside the points, if there is one. -/
def transform : Placement α → Option (Affine α)
  | .transformed m => some m
  | .moved _ | .mapped _ => none

end Placement

/-- A width by which nothing can be divided. -/
def isDegenerateWidth (w : α) : Bool :=
  decide (Scalar.magnitude w < Scalar.epsilon) || !Scalar.isFinite w

/-- A radius as a fraction of a width, one half for a shape without one. -/
def relativeRadius (radius width : α) : α :=
  if isDegenerateWidth width then Scalar.ratio 1 2 else radius / width

/-- The brush of a gradient on a shape with a box; a sweep has none. -/
def GradientKind.brush {V : Type} (kind : GradientKind α) (extend : Extend)
    (stops : List (GradientStop α)) (placement : Placement α) (width : α) :
    Option (Brush α V) :=
  match kind with
  | .linear start finish =>
    some (.linear
      { start := placement.point start, finish := placement.point finish, spread := extend
        transform := placement.transform, stops })
  | .radial startCenter _ endCenter endRadius =>
    some (.radial
      { center := placement.point startCenter, origin := placement.point endCenter
        radius := relativeRadius (placement.radius endRadius) width, spread := extend
        transform := placement.transform, stops })
  | .sweep .. => none

/-- The brush that shows a nested drawing in a tile. -/
def pictureBrush {V : Type} (visual : V) (source tile : Rect α) (extend : Extend)
    (transform : Option (Affine α)) : Brush α V :=
  let mode := TileMode.ofExtend extend
  .visual
    { tileMode := if mode = .none then none else some mode
      source := some source, destination := some tile, transform, visual }

namespace DashStyle

/-- The length of one dash unit: the pen's width, or one for a hairline. -/
def unit (width : α) : α :=
  if Scalar.zero < width ∧ Scalar.isFinite width = true then width else Scalar.one

/-- The dashes of a stroke, measured in the unit of its width. -/
def ofAbsolute (intervals : List α) (phase width : α) : DashStyle α :=
  ⟨intervals.map (· / unit width), phase / unit width⟩

/-- The dashes as they are drawn with a pen of some width. -/
def intervals (d : DashStyle α) (width : α) : List α := d.dashes.map (· * unit width)

/-- The offset into the dashes as they are drawn with a pen of some width. -/
def phase (d : DashStyle α) (width : α) : α := d.offset * unit width

end DashStyle

/-- The pen of a stroke. A stroke without dashes has a solid line. -/
def Stroke.pen {V : Type} (s : Stroke α) (brush : Option (Brush α V)) : Pen α V where
  brush := brush
  thickness := s.width
  lineCap := s.startCap
  lineJoin := s.join
  miterLimit := s.miterLimit
  dash :=
    if s.dashes.isEmpty then none else some (.ofAbsolute s.dashes s.dashOffset s.width)

namespace Scene

/-- The brush of a shader on a shape with a box; none for a sweep and for a picture that is
nested too deep. -/
def brush (s : Scene α P) (bounds : Rect α) : Shader α P → Option (Brush α (Group α))
  | .color c => some (.solid c)
  | .gradient kind extend stops matrix =>
    kind.brush extend stops (.choose matrix bounds s.options.brushTransform) bounds.width
  | .picture picture tile extend matrix =>
    (s.visual picture).map fun visual =>
      pictureBrush visual (s.cullRect picture) tile extend
        (if s.options.brushTransform then matrix.map (Placement.fromCorner · bounds) else none)

/-- A path painted with a paint. A stroke without a shader draws nothing. -/
def leaf (s : Scene α P) (path : Path α) (paint : Paint α P) : Leaf α (Group α) where
  path := path
  brush := if paint.style.fills then paint.shader.bind (s.brush (s.bounds path)) else none
  pen :=
    if paint.style.strokes then
      paint.shader.map fun shader => paint.stroke.pen (s.brush (s.bounds path) shader)
    else none

/-- The outline of a text as a path, if the source has one. -/
def outline (s : Scene α P) (text : String) (origin : Point α) (paint : Paint α P) :
    Option (Path α) :=
  (s.glyphs text origin paint).map fun elements => { elements }

end Scene

end PictureMarkup
