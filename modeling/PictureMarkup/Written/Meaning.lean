import PictureMarkup.Color
import PictureMarkup.Path.Plot
import PictureMarkup.Written.Basic
import PictureMarkup.Written.Fault

/-!
# The picture that is written

Colours and paths are read, counts are checked. The first fault is reported: commands
in their order; within a command the path or the number of positions before the
paint; within a paint the shader, the colour, the colour filter and the image filter;
within a gradient the stops in their order.
-/

namespace PictureMarkup.Written

/-- Read a colour. -/
def readColor (text : String) : Except Fault Color :=
  match Color.parse? text with
  | some c => .ok c
  | none => .error (.color text)

/-- Read a path. -/
def Outline.read (o : Outline) : Except Fault (Path Float) :=
  match Path.ofData o.data o.fillRule with
  | .ok p => .ok p
  | .error fault => .error (.path o.data fault)

/-- Read the colour of a stop. -/
def Stop.read (s : Stop) : Except Fault (GradientStop Float) := do
  return { offset := s.offset, color := ← readColor s.color }

/-- Read the colours of a colour filter and count its values. -/
def ColorFilter.read : ColorFilter → Except Fault (PictureMarkup.ColorFilter Float)
  | .luminanceToAlpha => .ok .luminanceToAlpha
  | .matrix values =>
    if values.length = matrixSize then .ok (.matrix values)
    else .error (.colorMatrix values.length)
  | .blend color => do return .blend (← readColor color)

/-- Read the colours of an image filter. -/
def ImageFilter.read : ImageFilter → Except Fault (PictureMarkup.ImageFilter Float)
  | .flood color => do return .flood (← readColor color)
  | .blur deviation => .ok (.blur deviation deviation)
  | .dropShadow dx dy deviation color => do
    return .dropShadow dx dy deviation deviation (← readColor color)
  | .offset dx dy => .ok (.offset dx dy)

/-- Pair glyphs with positions. -/
def readBlob (glyphs : List Nat) (positions : List (Point Float)) :
    Except Fault (TextBlob Float) :=
  if glyphs.length = positions.length then .ok { glyphs, positions }
  else .error (.textBlob glyphs.length positions.length)

/-- Read what may be missing. -/
def readOptional {σ τ : Type} (read : σ → Except Fault τ) : Option σ → Except Fault (Option τ)
  | none => .ok none
  | some v => do return some (← read v)

mutual

/-- Read a picture. -/
def Picture.read : Picture → Except Fault (PictureMarkup.Picture Float)
  | ⟨cullRect, commands⟩ => do return { cullRect, commands := ← readCommands commands }

/-- Read commands in their order. -/
def readCommands : List (Command Picture) →
    Except Fault (List (PictureMarkup.Command Float (PictureMarkup.Picture Float)))
  | [] => .ok []
  | c :: cs => do
    let c ← readCommand c
    return c :: (← readCommands cs)

/-- Read a command. -/
def readCommand : Command Picture →
    Except Fault (PictureMarkup.Command Float (PictureMarkup.Picture Float))
  | .save => .ok .save
  | .restore => .ok .restore
  | .setMatrix matrix => .ok (.setMatrix matrix)
  | .clipPath path combine antialias => do
    return .clipPath (← path.read) combine antialias
  | .clipRect rect combine antialias => .ok (.clipRect rect combine antialias)
  | .saveLayer paint => do return .saveLayer (← readLayerPaint paint)
  | .drawPath path paint => do
    let path ← path.read
    return .drawPath path (← readPaint paint)
  | .drawText text origin paint => do return .drawText text origin (← readPaint paint)
  | .drawTextOnPath text path offset paint => do
    let path ← path.read
    return .drawTextOnPath text path offset (← readPaint paint)
  | .drawTextBlob glyphs positions origin paint => do
    let blob ← readBlob glyphs positions
    return .drawTextBlob blob origin (← readPaint paint)
  | .drawImage image source target paint => do
    return .drawImage image source target (← readLayerPaint paint)

/-- Read a paint that may be missing. -/
def readLayerPaint : Option (Paint Picture) →
    Except Fault (Option (PictureMarkup.Paint Float (PictureMarkup.Picture Float)))
  | none => .ok none
  | some paint => do return some (← readPaint paint)

/-- Read a paint. -/
def readPaint : Paint Picture →
    Except Fault (PictureMarkup.Paint Float (PictureMarkup.Picture Float))
  | ⟨style, shader, color, stroke, colorFilter, imageFilter, text⟩ => do
    let shader ← readPaintShader shader
    let color ← readOptional readColor color
    let colorFilter ← readOptional ColorFilter.read colorFilter
    let imageFilter ← readOptional ImageFilter.read imageFilter
    return { style, shader, stroke := stroke.getD .standard, color, colorFilter, imageFilter, text }

/-- Read a shader that may be missing. -/
def readPaintShader : Option (Shader Picture) →
    Except Fault (Option (PictureMarkup.Shader Float (PictureMarkup.Picture Float)))
  | none => .ok none
  | some shader => do return some (← readShader shader)

/-- Read a shader. -/
def readShader : Shader Picture →
    Except Fault (PictureMarkup.Shader Float (PictureMarkup.Picture Float))
  | .color text => do return .color (← readColor text)
  | .linear start finish stops extend matrix => do
    return .gradient (.linear start finish) extend (← stops.mapM Stop.read) matrix
  | .conical center startRadius origin endRadius stops extend matrix => do
    return .gradient (.radial center startRadius origin endRadius) extend
      (← stops.mapM Stop.read) matrix
  | .picture picture tile extend matrix => do
    return .picture (← picture.read) tile extend matrix

end

end PictureMarkup.Written
