/-!
# The shortest decimal of a float

Among the decimals that read back as the float `m · 2^q`, the shortest is the one
that lies on the coarsest decimal grid, and of two on that grid the one nearer to
the float. The reals that read back as the float form an interval around it whose
ends belong to it exactly when `m` is even. If a grid has a point in the interval
then one of the float's two neighbours on the grid is such a point, so testing
these two is enough. All comparisons are made between naturals.
-/

namespace PictureMarkup.Decimal

/-- A positive number written as `digits · 10^exponent`. -/
structure Digits where
  digits : Nat
  exponent : Int
  deriving DecidableEq

/-- Numerator and denominator of `2^q / 10^k`. -/
def gridUnit (q k : Int) : Nat × Nat :=
  (Nat.pow 2 q.toNat * Nat.pow 10 (-k).toNat, Nat.pow 2 (-q).toNat * Nat.pow 10 k.toNat)

/-- The multiple of `10^k` that reads back as `m · 2^q`, if there is one; of two
the nearer, and the larger of two equally near. Grids coarser than the number's
own leading digit have none. -/
def onGrid? (m : Nat) (q : Int) (narrow : Bool) (k : Int) : Option Nat :=
  -- in quarters of the float's own unit, both ends of the interval are whole
  let (num, den) := gridUnit (q - 2) k
  let value := 4 * m * num
  let low := (4 * m - if narrow then 1 else 2) * num
  let high := (4 * m + 2) * num
  let inside (d : Nat) : Bool :=
    if m % 2 = 0 then decide (low ≤ d * den ∧ d * den ≤ high)
    else decide (low < d * den ∧ d * den < high)
  let d := value / den
  if d = 0 then none
  else
    match inside d, inside (d + 1) with
    | true, true => some (if value - d * den < (d + 1) * den - value then d else d + 1)
    | true, false => some d
    | false, true => some (d + 1)
    | false, false => none

/-- An exponent `k` with `m · 2^q < 10^k`, at most two too large. -/
def exponentBound (m : Nat) (q : Int) : Int := ((m.log2 + q) * 30103).fdiv 100000 + 2

/-- The number itself, in as many digits as it takes. -/
def exactDigits (m : Nat) (q : Int) : Digits :=
  if 0 ≤ q then ⟨m * Nat.pow 2 q.toNat, 0⟩ else ⟨m * Nat.pow 5 (-q).toNat, q⟩

/-- Move factors of ten from the digits to the exponent. -/
def Digits.trim (x : Digits) : Digits :=
  if h : x.digits ≠ 0 ∧ x.digits % 10 = 0 then trim ⟨x.digits / 10, x.exponent + 1⟩ else x
termination_by x.digits
decreasing_by omega

/-- How many grids are tried: seventeen digits always suffice in double precision,
and the first few grids may be too coarse. -/
def gridCount : Nat := 21

/-- The shortest decimal that reads back as `m · 2^q`, for positive `m`. -/
def shortest (m : Nat) (q : Int) (narrow : Bool) : Digits :=
  let top := exponentBound m q
  let found := (List.range gridCount).findSome? fun (i : Nat) =>
    (onGrid? m q narrow (top - i)).map fun d => Digits.mk d (top - i)
  (found.getD (exactDigits m q)).trim

end PictureMarkup.Decimal
