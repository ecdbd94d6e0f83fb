import PictureMarkup.Geometry

/-!
# Paths

A path is a list of pen movements together with the rule that says which
regions count as inside. The pen's position is implicit: each element starts
where the one before it ended.
-/

namespace PictureMarkup

/-- Which regions enclosed by a path count as inside. -/
inductive FillRule where
  | nonZero
  | evenOdd
  deriving DecidableEq

/-- A movement of the pen, from wherever the one before it ended. -/
inductive PathElement (α : Type) where
  | moveTo (p : Point α)
  | lineTo (p : Point α)
  | quadTo (control p : Point α)
  | curveTo (control₁ control₂ p : Point α)
  | close
  deriving DecidableEq

/-- The element draws something by itself. -/
def PathElement.isDrawable {α : Type} : PathElement α → Bool
  | .moveTo _ | .close => false
  | .lineTo _ | .quadTo .. | .curveTo .. => true

/-- A sequence of pen movements and the rule by which it is filled. -/
structure Path (α : Type) where
  elements : List (PathElement α)
  fillRule : FillRule := .nonZero
  deriving DecidableEq

namespace Path

variable {α : Type}

/-- Nothing would be drawn: the path only moves the pen and closes subpaths. -/
def isEmpty (p : Path α) : Bool := p.elements.all fun e => !e.isDrawable

/-- The outline of a rectangle, clockwise from its top left corner. -/
def ofRect (r : Rect α) : Path α where
  elements := [.moveTo ⟨r.x0, r.y0⟩, .lineTo ⟨r.x1, r.y0⟩, .lineTo ⟨r.x1, r.y1⟩,
    .lineTo ⟨r.x0, r.y1⟩, .close]

end Path

end PictureMarkup
