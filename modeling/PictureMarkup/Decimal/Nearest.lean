/-!
# The float nearest to a decimal

A decimal `m · 10^e` is rounded to the nearest double precision float, to the even
one of two equally near. Exponents far outside the range of floats are settled
first, so that no power of ten larger than the result needs is ever formed.
-/

namespace PictureMarkup.Decimal

/-- Infinity. -/
def infinity : Float := 1.0 / 0.0

/-- The number of decimal digits of a natural, counting none for zero. -/
def digitCount (m : Nat) : Nat := if m = 0 then 0 else (Nat.toDigits 10 m).length

/-- The float nearest to `m · 10^e`. -/
def nearest (m : Nat) (e : Int) : Float :=
  let top := digitCount m + e
  if m = 0 || top < -330 then 0
  else if 310 < top then infinity
  else if 0 ≤ e then Float.ofScientific m false e.toNat
  else Float.ofScientific m true (-e).toNat

end PictureMarkup.Decimal
