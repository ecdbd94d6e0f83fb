import PictureMarkup.Scalar

/-!
# Points, rectangles and affine maps

The plane geometry of pictures and drawings. An affine map keeps its six
coefficients in the order in which they are written, `[a, b, c, d, e, f]`: the
linear part column by column, then the translation. Sums are evaluated from
left to right, which fixes every rounding when the scalars are floats.
-/

namespace PictureMarkup

/-- A place in the plane; the second coordinate grows downwards. -/
structure Point (α : Type) where
  x : α
  y : α
  deriving DecidableEq

/-- An axis-aligned box, given by its left, top, right and bottom edges. -/
structure Rect (α : Type) where
  x0 : α
  y0 : α
  x1 : α
  y1 : α
  deriving DecidableEq

/-- The map that takes `(x, y)` to `(a·x + c·y + e, b·x + d·y + f)`. -/
structure Affine (α : Type) where
  a : α
  b : α
  c : α
  d : α
  e : α
  f : α
  deriving DecidableEq

variable {α : Type} [Scalar α]

open Scalar

namespace Rect

/-- The rectangle without extent at the origin. -/
def empty : Rect α := ⟨zero, zero, zero, zero⟩

/-- The top left corner. -/
def origin (r : Rect α) : Point α := ⟨r.x0, r.y0⟩

/-- How far the right edge is from the left one; not positive for a rectangle turned inside
out. -/
def width (r : Rect α) : α := r.x1 - r.x0

/-- How far the bottom edge is from the top one. -/
def height (r : Rect α) : α := r.y1 - r.y0

end Rect

namespace Affine

/-- The map that moves nothing. -/
def identity : Affine α := ⟨one, zero, zero, one, zero, zero⟩

/-- The factor by which areas grow under the linear part, negative where it mirrors. -/
def determinant (m : Affine α) : α := m.a * m.d - m.b * m.c

/-- The map that does `n` first and then `m`. -/
def mul (m n : Affine α) : Affine α where
  a := m.a * n.a + m.c * n.b
  b := m.b * n.a + m.d * n.b
  c := m.a * n.c + m.c * n.d
  d := m.b * n.c + m.d * n.d
  e := m.a * n.e + m.c * n.f + m.e
  f := m.b * n.e + m.d * n.f + m.f

instance : Mul (Affine α) := ⟨mul⟩

/-- The map that undoes `m`, meaningful only where the determinant is not zero. -/
def inverse (m : Affine α) : Affine α :=
  let i := one / m.determinant
  { a := i * m.d
    b := -i * m.b
    c := -i * m.c
    d := i * m.a
    e := i * (m.c * m.f - m.d * m.e)
    f := i * (m.b * m.e - m.a * m.f) }

/-- The image of a point. -/
def apply (m : Affine α) (p : Point α) : Point α :=
  ⟨m.a * p.x + m.c * p.y + m.e, m.b * p.x + m.d * p.y + m.f⟩

/-- The product of a list of maps, outermost first. -/
def product (ms : List (Affine α)) : Affine α := ms.foldl (· * ·) identity

/-- The six numbers in the order in which they are written. -/
def coefficients (m : Affine α) : List α := [m.a, m.b, m.c, m.d, m.e, m.f]

/-- Two numbers count as equal. -/
def near (x y : α) : Bool := decide (magnitude (x - y) < identityTolerance)

/-- Every coefficient is within the tolerance of that of the identity. -/
def isIdentity (m : Affine α) : Bool :=
  near m.a one && near m.b zero && near m.c zero &&
    near m.d one && near m.e zero && near m.f zero

/-- The map cannot be undone reliably. -/
def isSingular (m : Affine α) : Bool := decide (magnitude m.determinant < singularDeterminant)

end Affine

end PictureMarkup
