import PictureMarkup.Proofs.Printed
import PictureMarkup.Proofs.Reading

/-!
# What elements mean

`Printed.Group` is what markup keeps of a drawing: the numbers of a drawing are replaced by
their printed texts, its rectangles by their edge, width and height, and what equals the
default of a pen's attribute is left out.

An element is decoded from its name, its attributes and what its own elements mean (`Part`).
Elements that stand for a property are kept under their names until the element around them
asks for them.
-/

namespace PictureMarkup

namespace Printed

/-- A brush that shows a drawing, as it is printed. -/
structure VisualBrush (V : Type) where
  tileMode : Option TileMode
  source : Option Box
  destination : Option Box
  transform : Option (Affine Numeral)
  visual : V

/-- A brush as it is printed. -/
inductive Brush (V : Type) where
  | solid (c : Color)
  | linear (g : LinearGradient Numeral)
  | radial (g : RadialGradient Numeral)
  | visual (b : VisualBrush V)

/-- A pen, without the attributes that equal their defaults. -/
structure Pen (V : Type) where
  brush : Option (Brush V)
  thickness : Option Numeral
  lineCap : Option LineCap
  lineJoin : Option LineJoin
  miterLimit : Option Numeral
  dash : Option (DashStyle Numeral)

/-- A shape as it is printed. -/
structure Leaf (V : Type) where
  path : Path Numeral
  brush : Option (Brush V)
  pen : Option (Pen V)

/-- A member of a printed group. -/
inductive Drawing (G : Type) where
  | group (g : G)
  | leaf (l : Leaf G)

/-- A group as it is printed. -/
structure Group where
  transform : Option (Affine Numeral)
  clip : Option (Path Numeral)
  opacity : Option Numeral
  mask : Option (Brush Group)
  children : List (Drawing Group)

end Printed

/-! ## Printing -/

open Markup

/-- What is written of a value, nothing if it equals its default. -/
def printedUnless {τ : Type} (isDefault : Bool) (x : τ) : Option τ :=
  if isDefault then none else some x

mutual

/-- The group with every number replaced by its printed form. -/
def Group.printed : Group Float → Printed.Group
  | ⟨transform, clip, opacity, mask, children⟩ =>
    { transform := transform.map Affine.printed
      clip := clip.map Path.printed
      opacity := opacity.map .double
      mask := printedBrush? mask
      children := printedDrawings children }

/-- Some drawings as they are printed. -/
def printedDrawings : List (Drawing Float (Group Float)) → List (Printed.Drawing Printed.Group)
  | [] => []
  | d :: ds => printedDrawing d :: printedDrawings ds

/-- A drawing as it is printed. -/
def printedDrawing : Drawing Float (Group Float) → Printed.Drawing Printed.Group
  | .group g => .group (Group.printed g)
  | .leaf l => .leaf (printedLeaf l)

/-- A shape as it is printed. -/
def printedLeaf : Leaf Float (Group Float) → Printed.Leaf Printed.Group
  | ⟨path, brush, pen⟩ => ⟨path.printed, printedBrush? brush, printedPen? pen⟩

/-- A brush as it is printed, if there is one. -/
def printedBrush? : Option (Brush Float (Group Float)) → Option (Printed.Brush Printed.Group)
  | none => none
  | some b => some (printedBrush b)

/-- A pen as it is printed, if there is one. -/
def printedPen? : Option (Pen Float (Group Float)) → Option (Printed.Pen Printed.Group)
  | none => none
  | some p => some (printedPen p)

/-- A pen as it is printed: what has its default is left out. -/
def printedPen : Pen Float (Group Float) → Printed.Pen Printed.Group
  | ⟨brush, thickness, lineCap, lineJoin, miterLimit, dash⟩ =>
    { brush := printedBrush? brush
      thickness := printedUnless (thickness == defaultThickness) (.single thickness)
      lineCap := printedUnless (lineCap = .butt) lineCap
      lineJoin := printedUnless (lineJoin = .bevel) lineJoin
      miterLimit := printedUnless (miterLimit == defaultMiterLimit) (.single miterLimit)
      dash := dash.map DashStyle.printed }

/-- A brush as it is printed. -/
def printedBrush : Brush Float (Group Float) → Printed.Brush Printed.Group
  | .solid c => .solid c
  | .linear g => .linear g.printed
  | .radial g => .radial g.printed
  | .visual b => .visual (printedVisual b)

/-- A brush that shows a drawing, as it is printed. -/
def printedVisual : VisualBrush Float (Group Float) → Printed.VisualBrush Printed.Group
  | ⟨tileMode, source, destination, transform, visual⟩ =>
    { tileMode := tileMode
      source := source.map Rect.printed
      destination := destination.map Rect.printed
      transform := transform.map Affine.printed
      visual := Group.printed visual }

end

/-! ## Decoding -/

/-- What a text or an element means. -/
inductive Part where
  | text (t : String)
  | group (key : Option String) (g : Printed.Group)
  | image (key : Option String) (g : Printed.Group)
  | leaf (l : Printed.Leaf Printed.Group)
  | brush (b : Printed.Brush Printed.Group)
  | pen (p : Printed.Pen Printed.Group)
  | matrix (m : Affine Numeral)
  | path (p : Path Numeral)
  | dash (d : DashStyle Numeral)
  | stop (s : GradientStop Numeral)
  | stops (ss : List (GradientStop Numeral))
  /-- A property of the element around it. -/
  | property (name : String) (value : Part)

namespace Part

/-- What a property element of this name holds. -/
def value? (name : String) : Part → Option Part
  | .property n value => if n = name then some value else none
  | _ => none

/-- The value of a property among some parts. -/
def valueOf (name : String) (parts : List Part) : Option Part := parts.findSome? (value? name)

/-- The stop of a gradient. -/
def stop? : Part → Option (GradientStop Numeral)
  | .stop s => some s
  | _ => none

/-- A member of a group; a group with a key is none. -/
def drawing? : Part → Option (Printed.Drawing Printed.Group)
  | .group none g => some (.group g)
  | .leaf l => some (.leaf l)
  | _ => none

section

variable (attributes : List (String × String)) (parts : List Part)

/-- The transform in the property element of an owner. -/
def transformOf (owner : String) : Option (Affine Numeral) :=
  match valueOf (owner ++ ".Transform") parts with
  | some (.matrix m) => some m
  | _ => none

/-- A brush from an attribute, or else from a property. -/
def brushOf (name : String) : Option (Printed.Brush Printed.Group) :=
  match (attributes.lookup "Brush").bind Color.parse? with
  | some c => some (.solid c)
  | none =>
    match valueOf name parts with
    | some (.brush b) => some b
    | _ => none

/-- The spread, padding if it is not written. Any other word is refused. -/
def spreadOf? : Option Extend :=
  match attributes.lookup "SpreadMethod" with
  | none => some .pad
  | some "Repeat" => some .repeat
  | some "Reflect" => some .reflect
  | some _ => none

/-- The stops of a gradient, from the element that holds them. -/
def stopsOf? : Option (List (GradientStop Numeral)) :=
  parts.findSome? fun
    | .stops ss => some ss
    | _ => none

/-- A linear gradient: the points must be there. -/
def linearOf? : Option (LinearGradient Numeral) := do
  let start ← (attributes.lookup "StartPoint").bind Point.read?
  let finish ← (attributes.lookup "EndPoint").bind Point.read?
  let spread ← spreadOf? attributes
  let stops ← stopsOf? parts
  some ⟨start, finish, spread, transformOf parts "LinearGradientBrush", stops⟩

/-- A radial gradient: the points and the radius must be there. -/
def radialOf? : Option (RadialGradient Numeral) := do
  let center ← (attributes.lookup "Center").bind Point.read?
  let origin ← (attributes.lookup "GradientOrigin").bind Point.read?
  let radius ← (attributes.lookup "Radius").bind Number.read?
  let spread ← spreadOf? attributes
  let stops ← stopsOf? parts
  some ⟨center, origin, radius, spread, transformOf parts "RadialGradientBrush", stops⟩

/-- The tile mode, if it is written. -/
def tileModeOf : Option TileMode :=
  match attributes.lookup "TileMode" with
  | some "None" => some .none
  | some "Tile" => some .tile
  | some "FlipXY" => some .flipXY
  | _ => none

/-- A brush that shows a drawing: the drawing must be there. -/
def visualOf? : Option (Printed.VisualBrush Printed.Group) :=
  match valueOf "VisualBrush.Visual" parts with
  | some (.image none visual) =>
    some {
      tileMode := tileModeOf attributes
      source := (attributes.lookup "SourceRect").bind Box.read?
      destination := (attributes.lookup "DestinationRect").bind Box.read?
      transform := transformOf parts "VisualBrush"
      visual := visual }
  | _ => none

/-- The line cap, if it is written. -/
def capOf : Option LineCap :=
  match attributes.lookup "LineCap" with
  | some "Flat" => some .butt
  | some "Round" => some .round
  | some "Square" => some .square
  | _ => none

/-- The line join, if it is written. -/
def joinOf : Option LineJoin :=
  match attributes.lookup "LineJoin" with
  | some "Miter" => some .miter
  | some "Round" => some .round
  | some "Bevel" => some .bevel
  | _ => none

/-- A pen, nothing of which has to be written. -/
def penOf : Printed.Pen Printed.Group where
  brush := brushOf attributes parts "Pen.Brush"
  thickness := (attributes.lookup "Thickness").bind Number.read?
  lineCap := capOf attributes
  lineJoin := joinOf attributes
  miterLimit := (attributes.lookup "MiterLimit").bind Number.read?
  dash :=
    match valueOf "Pen.DashStyle" parts with
    | some (.dash d) => some d
    | _ => none

/-- A shape: its geometry must be there. -/
def leafOf? : Option (Printed.Leaf Printed.Group) := do
  let path ← (attributes.lookup "Geometry").bind Path.read?
  let pen :=
    match valueOf "GeometryDrawing.Pen" parts with
    | some (.pen p) => some p
    | _ => none
  some ⟨path, brushOf attributes parts "GeometryDrawing.Brush", pen⟩

/-- A group, nothing of which has to be written. -/
def groupOf : Printed.Group where
  transform := transformOf parts "DrawingGroup"
  clip :=
    match valueOf "DrawingGroup.ClipGeometry" parts with
    | some (.path p) => some p
    | _ => none
  opacity := (attributes.lookup "Opacity").bind Number.read?
  mask :=
    match valueOf "DrawingGroup.OpacityMask" parts with
    | some (.brush b) => some b
    | _ => none
  children := parts.filterMap drawing?

/-- What an element means. -/
def ofElement? (name : String) : Option Part :=
  match name with
  | "DrawingGroup" => some (.group (attributes.lookup "x:Key") (groupOf attributes parts))
  | "Image" =>
    match valueOf "DrawingImage" parts with
    | some (.group none g) => some (.image (attributes.lookup "x:Key") g)
    | _ => none
  | "GeometryDrawing" => (leafOf? attributes parts).map .leaf
  | "Pen" => some (.pen (penOf attributes parts))
  | "SolidColorBrush" =>
    ((attributes.lookup "Color").bind Color.parse?).map fun c => .brush (.solid c)
  | "LinearGradientBrush" => (linearOf? attributes parts).map fun g => .brush (.linear g)
  | "RadialGradientBrush" => (radialOf? attributes parts).map fun g => .brush (.radial g)
  | "VisualBrush" => (visualOf? attributes parts).map fun b => .brush (.visual b)
  | "MatrixTransform" => ((attributes.lookup "Matrix").bind Affine.read?).map .matrix
  | "StreamGeometry" =>
    match parts with
    | [.text t] => (Path.read? t).map .path
    | _ => none
  | "DashStyle" => do
    let dashes ← (attributes.lookup "Dashes").bind Number.readList?
    let offset ← (attributes.lookup "Offset").bind Number.read?
    some (.dash ⟨dashes, offset⟩)
  | "GradientStop" => do
    let offset ← (attributes.lookup "Offset").bind Number.read?
    let color ← (attributes.lookup "Color").bind Color.parse?
    some (.stop ⟨offset, color⟩)
  | "LinearGradientBrush.GradientStops" | "RadialGradientBrush.GradientStops" =>
    (parts.mapM stop?).map .stops
  | _ =>
    match attributes, parts with
    | [], [value] => some (.property name value)
    | _, _ => none

end

end Part

namespace Markup

mutual

/-- What is read of a document, from the innermost elements outwards. -/
def Tree.part? : Tree → Option Part
  | .text t => some (.text t)
  | .element name attributes content =>
    (parts? content).bind fun parts => Part.ofElement? attributes parts name

/-- The parts that some trees are read as, all of them or none. -/
def parts? : List Tree → Option (List Part)
  | [] => some []
  | t :: ts => do
    let first ← t.part?
    let others ← parts? ts
    some (first :: others)

end

end Markup

/-- The kind, the key and the drawing of a document. -/
def readDocument? (text : String) : Option (DocumentKind × Option String × Printed.Group) :=
  ((Markup.read text).bind Tree.part?).bind fun
    | .image key root => some (.image, key, root)
    | .group key root => some (.drawingGroup, key, root)
    | _ => none

end PictureMarkup
