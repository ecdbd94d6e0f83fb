/-!
# Scalars

Conversion adds, multiplies, divides and compares coordinates and asks whether
one is finite; it never looks inside a number. `Scalar` collects these
operations, and everything up to the drawing tree is written over it. The
program computes with `Float`; statements about exact arithmetic take the
rationals.

Every constant is a quotient of two naturals. For `Float` both are exact and
division rounds to nearest, so each quotient is the float closest to the
decimal it stands for.
-/

namespace PictureMarkup

/-- The operations that geometry asks of a number. -/
class Scalar (α : Type) extends Add α, Sub α, Mul α, Div α, Neg α, LT α where
  ofNat : Nat → α
  /-- Distance from zero. -/
  magnitude : α → α
  /-- Neither infinite nor undefined. -/
  isFinite : α → Bool
  decideLt : DecidableRel (fun x y : α => x < y)

namespace Scalar

variable {α : Type} [Scalar α]

instance : DecidableRel (fun x y : α => x < y) := Scalar.decideLt

instance (x y : α) : Decidable (x < y) := Scalar.decideLt x y

/-- The number zero. -/
def zero : α := ofNat 0

/-- The number one. -/
def one : α := ofNat 1

/-- The quotient of two natural numbers. -/
def ratio (m n : Nat) : α := ofNat m / ofNat n

/-- A matrix whose determinant is closer to zero than this cannot be undone. -/
def singularDeterminant : α := ratio 1 (Nat.pow 10 12)

/-- Coefficients closer to the identity's than this count as equal to them. -/
def identityTolerance : α := ratio 1 (Nat.pow 10 6)

/-- The spacing of double precision floats at one. -/
def epsilon : α := ratio 1 (Nat.pow 2 52)

/-- The number itself where it is positive, and zero everywhere else. -/
def clamp (x : α) : α := if zero < x then x else zero

end Scalar

instance : Scalar Float where
  ofNat := Float.ofNat
  magnitude := Float.abs
  isFinite := Float.isFinite
  decideLt x y := Float.decLt x y

end PictureMarkup
