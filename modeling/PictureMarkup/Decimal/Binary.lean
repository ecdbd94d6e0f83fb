/-!
# What a float stands for

The bits of a binary floating point number, read as a sign, a natural `m` and a
power of two: the number is `±m · 2^q`. Everything that writes a float works on
`m` and `q` in exact arithmetic. The reading is the same for every width; single
and double precision are two instances.
-/

namespace PictureMarkup.Decimal

/-- The meaning of a float. -/
inductive Binary where
  /-- The number `±m · 2^q`; `narrow` when the next smaller float is closer than
  the next larger one, which happens at powers of two. -/
  | finite (negative : Bool) (m : Nat) (q : Int) (narrow : Bool)
  | infinite (negative : Bool)
  | nan

namespace Binary

/-- Read a bit pattern that has `p` fraction bits below `w` exponent bits. -/
def ofBits (p w bits : Nat) : Binary :=
  let fraction := bits % Nat.pow 2 p
  let exponent := bits / Nat.pow 2 p % Nat.pow 2 w
  let negative := decide (bits / Nat.pow 2 (p + w) % 2 = 1)
  let offset : Int := (Nat.pow 2 (w - 1) - 1 + p : Nat)
  if exponent = Nat.pow 2 w - 1 then
    if fraction = 0 then infinite negative else nan
  else if exponent = 0 then finite negative fraction (1 - offset) false
  else
    finite negative (Nat.pow 2 p + fraction) (exponent - offset)
      (decide (fraction = 0 ∧ 1 < exponent))

/-- The meaning of a double precision float. -/
def ofFloat (x : Float) : Binary := ofBits 52 11 x.toBits.toNat

/-- The meaning of a single precision float. -/
def ofFloat32 (x : Float32) : Binary := ofBits 23 8 x.toBits.toNat

end Binary

end PictureMarkup.Decimal
