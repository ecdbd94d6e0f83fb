/-!
# Conversion options

What a caller can choose: which parts of a picture are reproduced, what the
outermost element is, and how the markup is laid out. The last two fields are
the layout; they never change the drawing tree.
-/

namespace PictureMarkup

/-- What separates the lines of a document. -/
inductive LineEnding where
  | lf
  | crlf
  deriving DecidableEq

/-- The characters of a line ending. -/
def LineEnding.text : LineEnding → String
  | .lf => "\n"
  | .crlf => "\r\n"

/-- The outermost element of a converted picture. -/
inductive DocumentKind where
  | image
  | drawingGroup
  deriving DecidableEq

/-- The name of the outermost element of a document. -/
def DocumentKind.name : DocumentKind → String
  | .image => "Image"
  | .drawingGroup => "DrawingGroup"

/-- What a user can ask of a conversion. -/
structure Options where
  generateImage : Bool := true
  /-- Write a shader's own matrix as a brush transform instead of mapping the
  gradient's geometry through it. -/
  brushTransform : Bool := false
  ignoreOpacity : Bool := false
  ignoreClips : Bool := false
  /-- Pass mask groups through and drop the masks. -/
  ignoreMask : Bool := false
  /-- Start every picture with a transparent rectangle over its bounds. -/
  transparentBackground : Bool := false
  lineEnding : LineEnding := .lf
  /-- Spaces for each level of nesting; none for a document on one line. -/
  indent : Option Nat := some 2
  deriving DecidableEq

namespace Options

/-- The outermost element that these options ask for. -/
def documentKind (o : Options) : DocumentKind :=
  if o.generateImage then .image else .drawingGroup

/-- The settings in words, with their names in the order of the fields. -/
def describe (o : Options) : String :=
  let lineEnding :=
    match o.lineEnding with
    | .lf => "Lf"
    | .crlf => "CrLf"
  let indent :=
    match o.indent with
    | none => "None"
    | some n => "Some(" ++ toString n ++ ")"
  let flag (b : Bool) : String := if b then "true" else "false"
  let fields :=
    [("generate_image", flag o.generateImage), ("brush_transform", flag o.brushTransform),
      ("ignore_opacity", flag o.ignoreOpacity), ("ignore_clip_path", flag o.ignoreClips),
      ("ignore_mask", flag o.ignoreMask),
      ("transparent_background", flag o.transparentBackground),
      ("line_ending", lineEnding), ("indent", indent)]
  "Converter \x7b options: ConvertOptions \x7b " ++
    ", ".intercalate (fields.map fun f => f.1 ++ ": " ++ f.2) ++ " \x7d, .. \x7d"

end Options

end PictureMarkup
