import PictureMarkup.Json.Decode
import PictureMarkup.Json.Read
import PictureMarkup.Written.Meaning

/-!
# Written pictures in JSON

The fields of each record in their declared order, the names of each choice, and what
a missing field means. Commands, shaders and filters are choices; everything else is
a record, an array or a single value. Commands are the outermost choices, so all that
belongs to one, its path and its paint and all parts of that, stands inside a choice.

Since the depth of what stands inside a choice is limited, following as many levels of
nested pictures as JSON may have follows all of them.
-/

namespace PictureMarkup.Written

open Json

/-- A point: an array of two numbers. -/
def point : Decoder (Point Float) := fun v => do
  match ← list float v with
  | [x, y] => return ⟨x, y⟩
  | _ => none

/-- A rectangle: an array of its left, top, right and bottom edges. -/
def rect : Decoder (Rect Float) := fun v => do
  match ← list float v with
  | [x0, y0, x1, y1] => return ⟨x0, y0, x1, y1⟩
  | _ => none

/-- A matrix: an array of its six coefficients. -/
def matrix : Decoder (Affine Float) := fun v => do
  match ← list float v with
  | [a, b, c, d, e, f] => return ⟨a, b, c, d, e, f⟩
  | _ => none

/-- The names of the fill rules. -/
def fillRules : List (String × FillRule) := [("nonzero", .nonZero), ("evenodd", .evenOdd)]

/-- The names of the ways in which clips combine. -/
def combines : List (String × ClipCombine) :=
  [("intersect", .intersect), ("difference", .difference)]

/-- The names of the styles of paints. -/
def styles : List (String × PaintStyle) :=
  [("fill", .fill), ("stroke", .stroke), ("fill_and_stroke", .fillAndStroke)]

/-- The names of the line caps. -/
def caps : List (String × LineCap) := [("butt", .butt), ("round", .round), ("square", .square)]

/-- The names of the line joins. -/
def joins : List (String × LineJoin) := [("miter", .miter), ("round", .round), ("bevel", .bevel)]

/-- The names of the ways in which shaders continue. -/
def continuations : List (String × Extend) :=
  [("clamp", .pad), ("repeat", .repeat), ("mirror", .reflect)]

/-- How a shader continues, by padding if nothing is said. -/
def extend : Option Json → Option Extend := optional .pad (name continuations)

/-- The matrix of a shader, if it has one. -/
def shaderMatrix : Option Json → Option (Option (Affine Float)) :=
  optional none (nullable matrix)

/-- A path. -/
def outline : Decoder Outline :=
  record ["data", "fill_rule"] fun
    | [data, fillRule] => do
      return {
        data := ← required text data
        fillRule := ← optional .nonZero (name fillRules) fillRule }
    | _ => none

/-- The geometry of a stroke; one name stands for both caps. -/
def stroke : Decoder (Stroke Float) :=
  record ["width", "cap", "join", "miter_limit", "dashes", "dash_offset"] fun
    | [width, cap, join, miterLimit, dashes, dashOffset] => do
      let cap ← optional .butt (name caps) cap
      return {
        width := ← optional Stroke.standard.width float width
        startCap := cap
        endCap := cap
        join := ← optional .miter (name joins) join
        miterLimit := ← optional Stroke.standard.miterLimit float miterLimit
        dashes := ← optional [] (list float) dashes
        dashOffset := ← optional Stroke.standard.dashOffset float dashOffset }
    | _ => none

/-- A gradient stop. -/
def stop : Decoder Stop :=
  record ["offset", "color"] fun
    | [offset, color] => do
      return { offset := ← required single offset, color := ← required text color }
    | _ => none

/-- One more than the largest glyph or weight. -/
def glyphBound : Nat := Nat.pow 2 16

/-- One more than the largest size of an image. -/
def sizeBound : Nat := Nat.pow 2 32

/-- The font of a text. -/
def textStyle : Decoder (TextStyle Float) :=
  record ["family", "size", "weight", "italic"] fun
    | [family, size, weight, italic] => do
      return {
        family := ← required text family
        size := ← required single size
        weight := ← optional 400 (natural glyphBound) weight
        italic := ← optional false boolean italic }
    | _ => none

/-- A filter on the colours of a layer. -/
def colorFilter : Decoder ColorFilter :=
  choice .inside "type"
    [("luminance_to_alpha", unit .luminanceToAlpha),
      ("matrix", record ["values"] fun
        | [values] => do return .matrix (← required (list single) values)
        | _ => none),
      ("blend", record ["color"] fun
        | [color] => do return .blend (← required text color)
        | _ => none)]

/-- A filter on the pixels of a layer. -/
def imageFilter : Decoder ImageFilter :=
  choice .inside "type"
    [("flood", record ["color"] fun
        | [color] => do return .flood (← required text color)
        | _ => none),
      ("blur", record ["sigma"] fun
        | [deviation] => do return .blur (← required single deviation)
        | _ => none),
      ("drop_shadow", record ["dx", "dy", "sigma", "color"] fun
        | [dx, dy, deviation, color] => do
          return .dropShadow (← required single dx) (← required single dy)
            (← required single deviation) (← required text color)
        | _ => none),
      ("offset", record ["dx", "dy"] fun
        | [dx, dy] => do return .offset (← required single dx) (← required single dy)
        | _ => none)]

section

variable {P : Type}

/-- A shader, given a decoder for the picture nested in it. -/
def shader (nested : Decoder P) : Decoder (Shader P) :=
  choice .inside "type"
    [("color", record ["color"] fun
        | [color] => do return .color (← required text color)
        | _ => none),
      ("linear_gradient", record ["start", "end", "stops", "extend", "local_matrix"] fun
        | [start, finish, stops, continuation, local?] => do
          return .linear (← required point start) (← required point finish)
            (← required (list stop) stops) (← extend continuation)
            (← shaderMatrix local?)
        | _ => none),
      ("two_point_conical",
        record ["center", "start_radius", "origin", "end_radius", "stops", "extend",
          "local_matrix"] fun
        | [center, startRadius, origin, endRadius, stops, continuation, local?] => do
          return .conical (← required point center) (← optional 0 single startRadius)
            (← required point origin) (← required single endRadius)
            (← required (list stop) stops) (← extend continuation)
            (← shaderMatrix local?)
        | _ => none),
      ("picture", record ["picture", "tile", "extend", "local_matrix"] fun
        | [picture, tile, continuation, local?] => do
          return .picture (← required nested picture) (← required rect tile)
            (← extend continuation) (← shaderMatrix local?)
        | _ => none)]

/-- A paint. -/
def paint (nested : Decoder P) : Decoder (Paint P) :=
  record ["style", "shader", "color", "stroke", "color_filter", "image_filter", "text"] fun
    | [style, shader?, color, stroke?, colorFilter?, imageFilter?, text?] => do
      return {
        style := ← optional .fill (name styles) style
        shader := ← optional none (nullable (shader nested)) shader?
        color := ← optional none (nullable text) color
        stroke := ← optional none (nullable stroke) stroke?
        colorFilter := ← optional none (nullable colorFilter) colorFilter?
        imageFilter := ← optional none (nullable imageFilter) imageFilter?
        text := ← optional none (nullable textStyle) text? }
    | _ => none

/-- The paint of a layer or an image, which may be missing. -/
def layerPaint (nested : Decoder P) : Option Json → Option (Option (Paint P)) :=
  optional none (nullable (paint nested))

/-- How a clip combines and whether its edges are smooth. -/
def clipping (combine antialias : Option Json) : Option (ClipCombine × Bool) := do
  return (← optional .intersect (name combines) combine,
    ← optional true boolean antialias)

/-- A position given by two fields. -/
def position (x y : Option Json) : Option (Point Float) := do
  return ⟨← required float x, ← required float y⟩

/-- A command. -/
def command (nested : Decoder P) (context : Context) : Decoder (Command P) :=
  choice context "op"
    [("save", unit .save),
      ("restore", unit .restore),
      ("set_matrix", record ["matrix"] fun
        | [m] => do return .setMatrix (← required matrix m)
        | _ => none),
      ("clip_path", record ["path", "combine", "antialias"] fun
        | [path, combine, antialias] => do
          let (combine, antialias) ← clipping combine antialias
          return .clipPath (← required outline path) combine antialias
        | _ => none),
      ("clip_rect", record ["rect", "combine", "antialias"] fun
        | [r, combine, antialias] => do
          let (combine, antialias) ← clipping combine antialias
          return .clipRect (← required rect r) combine antialias
        | _ => none),
      ("save_layer", record ["paint"] fun
        | [p] => do return .saveLayer (← layerPaint nested p)
        | _ => none),
      ("draw_path", record ["path", "paint"] fun
        | [path, p] => do
          return .drawPath (← required outline path)
            (← required (paint nested) p)
        | _ => none),
      ("draw_text", record ["text", "x", "y", "paint"] fun
        | [t, x, y, p] => do
          return .drawText (← required text t) (← position x y)
            (← required (paint nested) p)
        | _ => none),
      ("draw_text_on_path", record ["text", "path", "h_offset", "v_offset", "paint"] fun
        | [t, path, along, across, p] => do
          return .drawTextOnPath (← required text t) (← required outline path)
            ⟨← optional 0 float along, ← optional 0 float across⟩
            (← required (paint nested) p)
        | _ => none),
      ("draw_text_blob", record ["glyphs", "positions", "x", "y", "paint"] fun
        | [glyphs, positions, x, y, p] => do
          return .drawTextBlob (← required (list (natural glyphBound)) glyphs)
            (← required (list point) positions) (← position x y)
            (← required (paint nested) p)
        | _ => none),
      ("draw_image", record ["width", "height", "src", "dst", "paint"] fun
        | [width, height, source, target, p] => do
          return .drawImage
            ⟨← required (natural sizeBound) width, ← required (natural sizeBound) height⟩
            (← required rect source) (← required rect target) (← layerPaint nested p)
        | _ => none)]

end

/-- A picture with a number of levels of pictures nested in it. -/
def pictureOf : Nat → Context → Decoder Picture
  | 0, _ => fun _ => none
  | levels + 1, context =>
    record ["cull_rect", "commands"] fun
      | [cullRect, commands] => do
        return {
          cullRect := ← required rect cullRect
          commands := ← optional []
            (list (command (pictureOf levels .inside) context.deeper.deeper)) commands }
      | _ => none

/-- A picture on its own. -/
def picture : Decoder Picture := pictureOf (maximumDepth + 1) (.outside maximumDepth)

end PictureMarkup.Written

namespace PictureMarkup.Picture

open Written

/-- The picture that a JSON value describes. -/
def ofJson (v : Json) : Except Fault (Picture Float) :=
  match picture v with
  | some p => p.read
  | none => .error .json

/-- The picture that a document describes. -/
def parse (document : String) : Except Fault (Picture Float) :=
  match Json.read? document with
  | some v => ofJson v
  | none => .error .json

end PictureMarkup.Picture
