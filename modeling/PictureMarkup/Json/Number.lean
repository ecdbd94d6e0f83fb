/-!
# Numbers in JSON

A number is first kept as it is spelled. Its value is an integer where it is spelled
as one and fits into 64 bits, and a float otherwise. Minus zero is a float.

The float of a spelling is computed from at most nineteen or twenty leading digits,
as many as fit into 64 bits, by one multiplication with or division by a power of
ten, or by a few divisions for very small numbers. This is fast and may be off the
nearest float by a unit in the last place; the exact procedure is part of the format
as read here. A value too large for a float is an error, one too small is zero.
-/

namespace PictureMarkup.Json

/-- A number as it is spelled, digit by digit. -/
structure Numeral where
  negative : Bool
  whole : List Nat
  /-- The digits after the point, if there is one. -/
  fraction : Option (List Nat)
  /-- The exponent of ten, if there is one. -/
  exponent : Option Int

/-- The value of a number. -/
inductive Number where
  | integer (i : Int)
  | real (x : Float)

/-- The largest number of 64 bits. -/
def maximumSignificand : Nat := Nat.pow 2 64 - 1

/-- Digits read so far and the power of ten they are to be multiplied with. -/
structure Significand where
  digits : Nat
  exponent : Int
  /-- Later digits do not count any more. -/
  full : Bool

namespace Significand

/-- One more digit before the point: once there is no room, it only counts as a place. -/
def pushWhole (s : Significand) (d : Nat) : Significand :=
  if !s.full && s.digits * 10 + d ≤ maximumSignificand then
    { s with digits := s.digits * 10 + d }
  else { s with exponent := s.exponent + 1, full := true }

/-- One more digit after the point: once there is no room, it is left out. -/
def pushFraction (s : Significand) (d : Nat) : Significand :=
  if !s.full && s.digits * 10 + d ≤ maximumSignificand then
    { s with digits := s.digits * 10 + d, exponent := s.exponent - 1 }
  else { s with full := true }

end Significand

/-- A power of ten that a float can hold. -/
def powerOfTen (k : Nat) : Float := Float.ofScientific 1 false k

/-- The largest exponent of a power of ten that a float can hold. -/
def maximumPower : Nat := 308

/-- A float times a power of ten, nothing if it is too large. -/
def scale (f : Float) (e : Int) : Option Float :=
  if 0 ≤ e then
    if e ≤ maximumPower then
      let x := f * powerOfTen e.toNat
      if x.isInf then none else some x
    else if f == 0 then some f
    else none
  else if _ : -(maximumPower : Int) ≤ e then some (f / powerOfTen (-e).toNat)
  else if f == 0 then some f
  else scale (f / powerOfTen maximumPower) (e + maximumPower)
termination_by (-e).toNat
decreasing_by simp only [maximumPower] at *; omega

namespace Numeral

/-- The digits before the point. -/
def wholeSignificand (n : Numeral) : Significand :=
  n.whole.foldl .pushWhole ⟨0, 0, false⟩

/-- All digits. -/
def significand (n : Numeral) : Significand :=
  match n.fraction with
  | none => n.wholeSignificand
  | some ds => ds.foldl .pushFraction { n.wholeSignificand with full := false }

/-- The float that is spelled, nothing if it is too large. -/
def float? (n : Numeral) : Option Float :=
  let s := n.significand
  let size := scale s.digits.toUInt64.toFloat (s.exponent + n.exponent.getD 0)
  size.map fun x => if n.negative then -x else x

/-- The integer that is spelled, if the spelling is that of one and it fits. -/
def integer? (n : Numeral) : Option Int :=
  let s := n.wholeSignificand
  if n.fraction.isSome || n.exponent.isSome || s.full then none
  else if !n.negative then some s.digits
  else if 0 < s.digits && s.digits ≤ Nat.pow 2 63 then some (-s.digits)
  else none

/-- The value, nothing if it is too large. -/
def number? (n : Numeral) : Option Number :=
  match n.integer? with
  | some i => some (.integer i)
  | none => n.float?.map .real

end Numeral

namespace Number

/-- The float nearest to the value. -/
def float : Number → Float
  | .real x => x
  | .integer i =>
    if i < 0 then -i.natAbs.toUInt64.toFloat else i.natAbs.toUInt64.toFloat

/-- The single precision float nearest to the value. -/
def single : Number → Float
  | .real x => x.toFloat32.toFloat
  | .integer i =>
    let size := i.natAbs.toUInt64.toFloat32.toFloat
    if i < 0 then -size else size

/-- The value as a natural below a bound. -/
def natural? (bound : Nat) : Number → Option Nat
  | .integer i => if 0 ≤ i ∧ i < bound then some i.toNat else none
  | .real _ => none

end Number

end PictureMarkup.Json
