import PictureMarkup.Path.Data
import PictureMarkup.Text.Quoted

/-!
# What can be wrong with a written picture
-/

namespace PictureMarkup.Written

/-- Why a text does not describe a picture. -/
inductive Fault where
  /-- It is not JSON, or not JSON of the right structure. -/
  | json
  /-- A text is no colour. -/
  | color (text : String)
  /-- A text is no path data. -/
  | path (data : String) (fault : PathData.Fault)
  /-- A colour matrix has a wrong number of values. -/
  | colorMatrix (count : Nat)
  /-- A run of glyphs has a different number of positions. -/
  | textBlob (glyphs positions : Nat)
  deriving DecidableEq

/-- The number of values in a colour matrix. -/
def matrixSize : Nat := 20

/-- The fault in words. -/
def Fault.message : Fault → String
  | .json => "malformed JSON"
  | .color text =>
    "invalid color " ++ Text.quoted text ++ "; expected #RRGGBB or #AARRGGBB"
  | .path data _ => "invalid path data " ++ Text.quoted data
  | .colorMatrix count =>
    "color matrix has " ++ toString count ++ " values; expected " ++ toString matrixSize
  | .textBlob glyphs positions =>
    "text blob has " ++ toString glyphs ++ " glyphs but " ++ toString positions ++ " positions"

/-- What lies behind the fault. -/
def Fault.cause : Fault → Option PathData.Fault
  | .path _ fault => some fault
  | .json | .color _ | .colorMatrix _ | .textBlob .. => none

end PictureMarkup.Written
