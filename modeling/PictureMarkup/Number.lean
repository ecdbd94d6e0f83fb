import PictureMarkup.Decimal.Binary
import PictureMarkup.Decimal.Layout
import PictureMarkup.Geometry

/-!
# Numbers as text

Three ways to write a float, all by its shortest decimal. Markup never uses an
exponent and writes zero of either sign, infinities and undefined values as `0`;
geometry goes there in single precision, ratios such as opacity in double
precision. The plain text keeps the sign of zero and names the values that are no
numbers. The diagnostic text shows that a value is a float and turns to an exponent
for very large and very small magnitudes.
-/

namespace PictureMarkup

open Decimal

namespace Decimal.Binary

/-- The sign of a number, written in front of it. -/
def signChars (negative : Bool) : List Char := if negative then ['-'] else []

/-- The text in markup. -/
def markup : Binary → List Char
  | finite negative m q narrow =>
    if m = 0 then ['0'] else signChars negative ++ (shortest m q narrow).positional
  | infinite _ | nan => ['0']

/-- The plain text. -/
def plain : Binary → List Char
  | finite negative m q narrow =>
    signChars negative ++ if m = 0 then ['0'] else (shortest m q narrow).positional
  | infinite negative => signChars negative ++ "inf".toList
  | nan => "NaN".toList

/-- The first power of ten at which diagnostics turn to an exponent. -/
def exponentFrom : Float := 1e16

/-- The magnitude below which diagnostics turn to an exponent. -/
def exponentBelow : Float := 1e-4

end Decimal.Binary

namespace Number

/-- A coordinate in markup: single precision. -/
def single (x : Float) : String := String.ofList (Binary.ofFloat32 x.toFloat32).markup

/-- A ratio in markup: double precision. -/
def double (x : Float) : String := String.ofList (Binary.ofFloat x).markup

/-- The plain text in double precision. -/
def plain (x : Float) : String := String.ofList (Binary.ofFloat x).plain

/-- The plain text in single precision. -/
def plainSingle (x : Float) : String := String.ofList (Binary.ofFloat32 x.toFloat32).plain

/-- The text in diagnostics. -/
def diagnostic (x : Float) : String :=
  match Binary.ofFloat x with
  | .finite negative m q narrow =>
    let sign := Binary.signChars negative
    let size := x.abs
    if m = 0 then String.ofList (sign ++ "0.0".toList)
    else if size < Binary.exponentBelow || Binary.exponentFrom ≤ size then
      String.ofList (sign ++ (shortest m q narrow).scientific)
    else
      let body := (shortest m q narrow).positional
      String.ofList (sign ++ if body.contains '.' then body else body ++ ".0".toList)
  | b => String.ofList b.plain

/-- Numbers separated by commas. -/
def list (xs : List Float) : String := ",".intercalate (xs.map single)

/-- A point in markup, `x,y`. -/
def point (p : Point Float) : String := list [p.x, p.y]

/-- A rectangle in markup: left, top, width and height. -/
def rect (r : Rect Float) : String := list [r.x0, r.y0, r.width, r.height]

/-- A matrix in markup: its six coefficients. -/
def matrix (m : Affine Float) : String := list m.coefficients

end Number

end PictureMarkup
