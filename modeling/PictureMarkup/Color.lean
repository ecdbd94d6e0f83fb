/-!
# Colours

A colour is four bytes. Its written form is a hash sign and two hexadecimal
digits for each of alpha, red, green and blue. Writing always gives all eight
digits, in upper case; reading also takes six, which mean an opaque colour, and
letters in either case.
-/

namespace PictureMarkup

/-- A colour with an alpha channel, not premultiplied. -/
structure Color where
  alpha : UInt8
  red : UInt8
  green : UInt8
  blue : UInt8
  deriving DecidableEq

namespace Color

/-- Opaque black, by which a renderer marks the layers of a mask. -/
def maskSentinel : Color := ⟨255, 0, 0, 0⟩

/-- The colour that shows nothing. -/
def transparent : Color := ⟨0, 0, 0, 0⟩

/-- The upper case hexadecimal digit of a number below sixteen. -/
def hexDigit (n : Nat) : Char :=
  if n < 10 then Char.ofNat ('0'.toNat + n) else Char.ofNat ('A'.toNat + (n - 10))

/-- A byte in two digits, upper case. -/
def hexByte (b : UInt8) : List Char := [hexDigit (b.toNat / 16), hexDigit (b.toNat % 16)]

/-- The written form, `#AARRGGBB`. -/
def text (c : Color) : String :=
  String.ofList ('#' :: (hexByte c.alpha ++ hexByte c.red ++ hexByte c.green ++ hexByte c.blue))

/-- The value of a hexadecimal digit in either case. -/
def hexValue? (c : Char) : Option Nat :=
  if '0' ≤ c ∧ c ≤ '9' then some (c.toNat - '0'.toNat)
  else if 'A' ≤ c ∧ c ≤ 'F' then some (c.toNat - 'A'.toNat + 10)
  else if 'a' ≤ c ∧ c ≤ 'f' then some (c.toNat - 'a'.toNat + 10)
  else none

/-- The byte with these two digits. -/
def byteOfDigits (high low : Nat) : UInt8 := UInt8.ofNat (16 * high + low)

/-- The colour written by a list of digit values: six for an opaque colour, eight
with alpha first. -/
def ofDigits? : List Nat → Option Color
  | [r₁, r₀, g₁, g₀, b₁, b₀] =>
    some ⟨255, byteOfDigits r₁ r₀, byteOfDigits g₁ g₀, byteOfDigits b₁ b₀⟩
  | [a₁, a₀, r₁, r₀, g₁, g₀, b₁, b₀] =>
    some ⟨byteOfDigits a₁ a₀, byteOfDigits r₁ r₀, byteOfDigits g₁ g₀, byteOfDigits b₁ b₀⟩
  | _ => none

/-- Read a written colour: a hash sign and six or eight digits, nothing else. -/
def parse? (s : String) : Option Color :=
  match s.toList with
  | '#' :: digits => (digits.mapM hexValue?).bind ofDigits?
  | _ => none

end Color

end PictureMarkup
