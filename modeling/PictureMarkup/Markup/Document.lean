import PictureMarkup.Drawing
import PictureMarkup.Markup.Node
import PictureMarkup.Path.Text

/-!
# Drawings as markup

Every part of a drawing has its element. Properties that are single values become
attributes; properties that are elements of their own stand in a block named after
the owner and the property. A solid brush is a colour wherever an attribute allows
it. Pen attributes are left out at their defaults, and a gradient's spread at
padding.
-/

namespace PictureMarkup

open Markup

namespace Markup

/-- An attribute that may be missing. -/
def attribute? (name : String) (value : Option String) : List (String × String) :=
  value.toList.map fun v => (name, v)

/-- An element with one child and nothing else. -/
def block (name : String) (n : Node) : Node := .element name [] [n]

/-- An attribute that is written only if it differs from its default. -/
def attributeUnless (isDefault : Bool) (name value : String) : List (String × String) :=
  if isDefault then [] else [(name, value)]

/-- The attribute that names a resource. -/
def keyAttribute (key : Option String) : List (String × String) := attribute? "x:Key" key

/-- The transform property of an element. -/
def transformBlock (owner : String) (m : Option (Affine Float)) : List Node :=
  m.toList.map fun m =>
    block (owner ++ ".Transform") (.element "MatrixTransform" [("Matrix", Number.matrix m)] [])

/-- The clip of a group. -/
def clipBlock (clip : Option (Path Float)) : List Node :=
  clip.toList.map fun p =>
    block "DrawingGroup.ClipGeometry" (.verbatim "StreamGeometry" p.text)

/-- The stops of a gradient, in their order. -/
def stopsBlock (owner : String) (stops : List (GradientStop Float)) : Node :=
  .element (owner ++ ".GradientStops") [] <| stops.map fun s =>
    .element "GradientStop" [("Offset", Number.single s.offset), ("Color", s.color.text)] []

/-- How a gradient continues, if not by padding. -/
def spreadAttribute (spread : Extend) : List (String × String) :=
  match spread with
  | .pad => []
  | .repeat => [("SpreadMethod", "Repeat")]
  | .reflect => [("SpreadMethod", "Reflect")]

/-- The element of a linear gradient. -/
def linearNode (g : LinearGradient Float) : Node :=
  .element "LinearGradientBrush"
    ([("StartPoint", Number.point g.start), ("EndPoint", Number.point g.finish)] ++
      spreadAttribute g.spread)
    (transformBlock "LinearGradientBrush" g.transform ++
      [stopsBlock "LinearGradientBrush" g.stops])

/-- The element of a radial gradient. -/
def radialNode (g : RadialGradient Float) : Node :=
  .element "RadialGradientBrush"
    ([("Center", Number.point g.center), ("GradientOrigin", Number.point g.origin),
      ("Radius", Number.single g.radius)] ++ spreadAttribute g.spread)
    (transformBlock "RadialGradientBrush" g.transform ++
      [stopsBlock "RadialGradientBrush" g.stops])

/-- The name of a line cap. -/
def capName : LineCap → String
  | .butt => "Flat"
  | .round => "Round"
  | .square => "Square"

/-- The name of a line join. -/
def joinName : LineJoin → String
  | .miter => "Miter"
  | .round => "Round"
  | .bevel => "Bevel"

/-- The thickness of a pen that names none. -/
def defaultThickness : Float := 1

/-- The miter limit of a pen that names none. -/
def defaultMiterLimit : Float := 10

/-- The element of a dash pattern. -/
def dashBlock (dash : Option (DashStyle Float)) : List Node :=
  dash.toList.map fun d =>
    block "Pen.DashStyle" (.element "DashStyle"
      [("Dashes", Number.list d.dashes), ("Offset", Number.single d.offset)] [])

/-- The colour of a brush that fits an attribute. -/
def brushAttribute {V : Type} (brush : Option (Brush Float V)) : List (String × String) :=
  attribute? "Brush" ((brush.bind Brush.color?).map Color.text)

/-- An image of a drawing, given the element of the drawing's root. -/
def imageNode (key : Option String) (root : Node) : Node :=
  .element "Image" (keyAttribute key) [block "DrawingImage" root]

/-- The attributes of a pen. -/
def penAttributes {V : Type} (p : Pen Float V) : List (String × String) :=
  brushAttribute p.brush ++
  attributeUnless (p.thickness == defaultThickness) "Thickness" (Number.single p.thickness) ++
  attributeUnless (p.lineCap = .butt) "LineCap" (capName p.lineCap) ++
  attributeUnless (p.lineJoin = .bevel) "LineJoin" (joinName p.lineJoin) ++
  attributeUnless (p.miterLimit == defaultMiterLimit) "MiterLimit" (Number.single p.miterLimit)

/-- The attributes of a brush that shows a drawing. -/
def visualAttributes {V : Type} (b : VisualBrush Float V) : List (String × String) :=
  attribute? "TileMode" (b.tileMode.map TileMode.name) ++
  attribute? "SourceRect" (b.source.map Number.rect) ++
  attribute? "DestinationRect" (b.destination.map Number.rect)

mutual

/-- The element of a group. -/
def groupNode (key : Option String) : Group Float → Node
  | ⟨transform, clip, opacity, mask, children⟩ =>
    .element "DrawingGroup"
      (keyAttribute key ++ attribute? "Opacity" (opacity.map Number.double))
      (transformBlock "DrawingGroup" transform ++ (clipBlock clip ++
        (drawingNodes children ++ maskBlock mask)))

/-- The elements of drawings in paint order. -/
def drawingNodes : List (Drawing Float (Group Float)) → List Node
  | [] => []
  | d :: ds => drawingNode d :: drawingNodes ds

/-- The element of a drawing. -/
def drawingNode : Drawing Float (Group Float) → Node
  | .group g => groupNode none g
  | .leaf l => leafNode l

/-- The element of a painted shape. -/
def leafNode : Leaf Float (Group Float) → Node
  | ⟨path, brush, pen⟩ =>
    .element "GeometryDrawing" (brushAttribute brush ++ [("Geometry", path.text)])
      (brushBlock "GeometryDrawing.Brush" brush ++ penBlock pen)

/-- The mask of a group. -/
def maskBlock : Option (Brush Float (Group Float)) → List Node
  | none => []
  | some b => [block "DrawingGroup.OpacityMask" (brushNode b)]

/-- A brush that does not fit an attribute. -/
def brushBlock (name : String) : Option (Brush Float (Group Float)) → List Node
  | none => []
  | some b => if b.color?.isSome then [] else [block name (brushNode b)]

/-- The pen of a shape. -/
def penBlock : Option (Pen Float (Group Float)) → List Node
  | none => []
  | some p => [block "GeometryDrawing.Pen" (penNode p)]

/-- The element of a pen. -/
def penNode : Pen Float (Group Float) → Node
  | ⟨brush, thickness, lineCap, lineJoin, miterLimit, dash⟩ =>
    .element "Pen" (penAttributes ⟨brush, thickness, lineCap, lineJoin, miterLimit, dash⟩)
      (dashBlock dash ++ brushBlock "Pen.Brush" brush)

/-- The element of a brush. -/
def brushNode : Brush Float (Group Float) → Node
  | .solid c => .element "SolidColorBrush" [("Color", c.text)] []
  | .linear g => linearNode g
  | .radial g => radialNode g
  | .visual b => visualNode b

/-- The element of a brush that shows a drawing. -/
def visualNode : VisualBrush Float (Group Float) → Node
  | ⟨tileMode, source, destination, transform, visual⟩ =>
    .element "VisualBrush" (visualAttributes ⟨tileMode, source, destination, transform, visual⟩)
      (transformBlock "VisualBrush" transform ++
        [block "VisualBrush.Visual" (imageNode none (groupNode none visual))])

end

end Markup

namespace Group

/-- The outermost element of a drawing. -/
def document (root : Group Float) (kind : DocumentKind) (key : Option String) : Node :=
  match kind with
  | .image => imageNode key (groupNode none root)
  | .drawingGroup => groupNode key root

/-- The markup of a drawing. -/
def markup (root : Group Float) (kind : DocumentKind) (key : Option String)
    (layout : Layout) : String :=
  (root.document kind key).render layout

end Group

end PictureMarkup
