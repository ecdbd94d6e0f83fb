import PictureMarkup.Decimal.Shortest

/-!
# Writing digits

Two ways to write `d · 10^k`. The positional one spells out every place. The
scientific one puts the point after the first digit and adds the exponent.
-/

namespace PictureMarkup.Decimal

/-- The decimal digits of a natural, most significant first. -/
def natDigits (n : Nat) : List Char := Nat.toDigits 10 n

/-- Every place written out, with a point only where places follow it. -/
def Digits.positional (x : Digits) : List Char :=
  let ds := natDigits x.digits
  if 0 ≤ x.exponent then ds ++ List.replicate x.exponent.toNat '0'
  else
    let places := (-x.exponent).toNat
    if places < ds.length then
      ds.take (ds.length - places) ++ '.' :: ds.drop (ds.length - places)
    else '0' :: '.' :: (List.replicate (places - ds.length) '0' ++ ds)

/-- An integer: a minus sign if it is negative, then its digits. -/
def intDigits (i : Int) : List Char :=
  if i < 0 then '-' :: natDigits i.natAbs else natDigits i.natAbs

/-- One digit before the point, then the exponent of ten. -/
def Digits.scientific (x : Digits) : List Char :=
  match natDigits x.digits with
  | [] => []
  | first :: rest =>
    let tail := if rest.isEmpty then [] else '.' :: rest
    first :: (tail ++ 'e' :: intDigits (x.exponent + rest.length))

end PictureMarkup.Decimal
