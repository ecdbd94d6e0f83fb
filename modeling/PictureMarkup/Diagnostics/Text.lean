import PictureMarkup.Diagnostics
import PictureMarkup.Number
import PictureMarkup.Text.Quoted

/-!
# Messages in words
-/

namespace PictureMarkup

open Text

/-- The name of a severity. -/
def Severity.name : Severity → String
  | .trace => "TRACE"
  | .debug => "DEBUG"
  | .warn => "WARN"

/-- A matrix with all its coefficients in diagnostic form. -/
def Affine.diagnostic (m : Affine Float) : String :=
  "Affine([" ++ ", ".intercalate (m.coefficients.map Number.diagnostic) ++ "])"

/-- The wording of a message. -/
def Message.text : Message Float → String
  | .command name depth => name ++ " at depth " ++ toString depth
  | .clipIgnored => "ignoring clip"
  | .differenceClip => "difference clip is written as an intersecting clip"
  | .aliasedClip => "aliased clip edges are not reproduced"
  | .singularAncestor m => "skipping singular ancestor transform " ++ m.diagnostic
  | .layerClassified kind => "layer classified as " ++ kind.name
  | .layerComposited kind => "compositing " ++ kind.name ++ " layer"
  | .maskReplaced => "replacing an existing opacity mask"
  | .restoreIgnored => "ignoring restore without a matching save"
  | .frameLeftOpen => "closing a frame left open at the end of the picture"
  | .emptyPath => "skipping empty path"
  | .drawing m clips =>
    "drawing under " ++ m.diagnostic ++ " with " ++ toString clips ++ " clips"
  | .noOutline text => "no outline for text " ++ quoted text ++ "; skipping"
  | .textOnPath text => "text on a path is not converted: " ++ quoted text
  | .textBlob glyphs => "text blob of " ++ toString glyphs ++ " glyphs is not converted"
  | .image width height =>
    toString width ++ "x" ++ toString height ++ " image is not converted"
  | .sweepGradient => "sweep gradient has no brush equivalent; skipping"
  | .degenerateRadius => "radial gradient on a zero-width shape; using radius 0.5"
  | .shaderMatrix m =>
    "picture shader local matrix " ++ m.diagnostic ++ " is not reproduced"
  | .nestingTooDeep =>
    "picture shaders nested deeper than " ++ toString maximumNesting ++ " levels are dropped"
  | .penWithoutBrush => "stroke shader has no brush equivalent; pen has no brush"

/-- A message as a line of a log. -/
def Message.line (m : Message Float) : String := m.severity.name ++ ": " ++ m.text

end PictureMarkup
