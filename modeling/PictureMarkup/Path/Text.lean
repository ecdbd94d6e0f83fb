import PictureMarkup.Number
import PictureMarkup.Path

/-!
# Path data in markup

The fill rule's token, one space, and the elements in order with nothing between
them. A letter starts each element, coordinates are absolute and separated by
spaces. The space stands even when the path has no elements.
-/

namespace PictureMarkup

/-- The token in front of path data. -/
def FillRule.token : FillRule → String
  | .evenOdd => "F0"
  | .nonZero => "F1"

/-- The two coordinates of a point. -/
def Point.pathText (p : Point Float) : String := Number.single p.x ++ " " ++ Number.single p.y

/-- The letter of an element. -/
def PathElement.letter {α : Type} : PathElement α → String
  | .moveTo _ => "M"
  | .lineTo _ => "L"
  | .quadTo .. => "Q"
  | .curveTo .. => "C"
  | .close => "Z"

/-- The points of an element in the order in which they are written. -/
def PathElement.points {α : Type} : PathElement α → List (Point α)
  | .moveTo p | .lineTo p => [p]
  | .quadTo c p => [c, p]
  | .curveTo c₁ c₂ p => [c₁, c₂, p]
  | .close => []

/-- An element's letter and points. -/
def PathElement.text (e : PathElement Float) : String :=
  e.letter ++ " ".intercalate (e.points.map Point.pathText)

/-- The whole path. -/
def Path.text (p : Path Float) : String :=
  p.fillRule.token ++ " " ++ String.join (p.elements.map PathElement.text)

end PictureMarkup
