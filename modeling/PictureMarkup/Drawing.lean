import PictureMarkup.Paint

/-!
# Drawings

The tree that a picture converts to. Groups nest and carry at most a transform, a
clip, an opacity and an opacity mask; leaves are painted shapes. Unlike the commands
of a picture, everything here is relative to the enclosing groups.

A brush may itself show a whole drawing. As with the pictures nested in paints, the
type of that drawing is a parameter `V`, and `Group` ties the knot.
-/

namespace PictureMarkup

/-- How a nested drawing repeats outside its tile. -/
inductive TileMode where
  | none
  | tile
  | flipXY
  deriving DecidableEq

namespace TileMode

/-- The name of the mode in markup. -/
def name : TileMode → String
  | .none => "None"
  | .tile => "Tile"
  | .flipXY => "FlipXY"

/-- The mode in which a shader continues outside its own area. -/
def ofExtend : Extend → TileMode
  | .pad => .none
  | .repeat => .tile
  | .reflect => .flipXY

end TileMode

/-- A gradient along the line between two points. -/
structure LinearGradient (α : Type) where
  start : Point α
  finish : Point α
  spread : Extend := .pad
  transform : Option (Affine α) := none
  stops : List (GradientStop α) := []

/-- A gradient around a point; the radius is a fraction of the shape's width. -/
structure RadialGradient (α : Type) where
  center : Point α
  origin : Point α
  radius : α
  spread : Extend := .pad
  transform : Option (Affine α) := none
  stops : List (GradientStop α) := []

/-- A brush that shows a drawing: a part of it, mapped to a destination and repeated from
there. -/
structure VisualBrush (α V : Type) where
  tileMode : Option TileMode := none
  source : Option (Rect α) := none
  destination : Option (Rect α) := none
  transform : Option (Affine α) := none
  visual : V

/-- What a shape or a stroke is painted with. -/
inductive Brush (α V : Type) where
  | solid (c : Color)
  | linear (g : LinearGradient α)
  | radial (g : RadialGradient α)
  | visual (b : VisualBrush α V)

/-- A dash pattern in units of the pen's thickness. -/
structure DashStyle (α : Type) where
  dashes : List α
  offset : α

/-- How the outline of a shape is drawn. -/
structure Pen (α V : Type) where
  brush : Option (Brush α V)
  thickness : α
  lineCap : LineCap
  lineJoin : LineJoin
  miterLimit : α
  dash : Option (DashStyle α)

/-- A shape with the brush of its area and the pen of its outline. -/
structure Leaf (α V : Type) where
  path : Path α
  brush : Option (Brush α V) := none
  pen : Option (Pen α V) := none

/-- A member of a group. -/
inductive Drawing (α G : Type) where
  | group (g : G)
  | leaf (l : Leaf α G)

/-- A list of drawings in paint order and what applies to all of them. -/
structure Group (α : Type) where
  transform : Option (Affine α) := none
  clip : Option (Path α) := none
  opacity : Option α := none
  mask : Option (Brush α (Group α)) := none
  children : List (Drawing α (Group α)) := []

namespace Brush

variable {α V : Type}

/-- The colour of a brush that has only one. -/
def color? : Brush α V → Option Color
  | .solid c => some c
  | .linear _ | .radial _ | .visual _ => none

end Brush

namespace Group

variable {α : Type}

/-- The group without properties and children. -/
def empty : Group α := {}

/-- The group has neither children nor properties. -/
def isEmpty (g : Group α) : Bool :=
  g.children.isEmpty && g.transform.isNone && g.clip.isNone && g.opacity.isNone && g.mask.isNone

/-- Add children behind those already there. -/
def append (g : Group α) (ds : List (Drawing α (Group α))) : Group α :=
  { g with children := g.children ++ ds }

/-- Give the group a mask, in place of the one it may have. -/
def setMask (g : Group α) (b : Brush α (Group α)) : Group α := { g with mask := some b }

mutual

/-- The number of groups below a group. -/
def groupCount : Group α → Nat
  | ⟨_, _, _, _, children⟩ => groupCountIn children

/-- The number of groups in some drawings. -/
def groupCountIn : List (Drawing α (Group α)) → Nat
  | [] => 0
  | d :: ds => groupCountOf d + groupCountIn ds

/-- The number of groups in a drawing, itself included. -/
def groupCountOf : Drawing α (Group α) → Nat
  | .group g => 1 + groupCount g
  | .leaf _ => 0

end

mutual

/-- The leaves below a group in paint order, those of brushes and masks left out. -/
def leaves : Group α → List (Leaf α (Group α))
  | ⟨_, _, _, _, children⟩ => leavesIn children

/-- The leaves in some drawings. -/
def leavesIn : List (Drawing α (Group α)) → List (Leaf α (Group α))
  | [] => []
  | d :: ds => leavesOf d ++ leavesIn ds

/-- The leaves in a drawing. -/
def leavesOf : Drawing α (Group α) → List (Leaf α (Group α))
  | .group g => leaves g
  | .leaf l => [l]

end

end Group

end PictureMarkup
