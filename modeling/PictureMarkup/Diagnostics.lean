import PictureMarkup.Conversion

/-!
# What a conversion reports

Conversion never fails; what it leaves out or changes is reported in messages. They
are computed beside the drawing, from the same states of the machine, and in the
order in which the drawing is made: the messages of a picture nested in a shader
stand where its brush is made.
-/

namespace PictureMarkup

/-- How important a message is. -/
inductive Severity where
  | trace
  | debug
  | warn
  deriving DecidableEq

/-- Something worth reporting. -/
inductive Message (α : Type) where
  | command (name : String) (depth : Nat)
  | clipIgnored
  | differenceClip
  | aliasedClip
  | singularAncestor (m : Affine α)
  | layerClassified (kind : LayerKind)
  | layerComposited (kind : LayerKind)
  | maskReplaced
  | restoreIgnored
  | frameLeftOpen
  | emptyPath
  | drawing (m : Affine α) (clips : Nat)
  | noOutline (text : String)
  | textOnPath (text : String)
  | textBlob (glyphs : Nat)
  | image (width height : Nat)
  | sweepGradient
  | degenerateRadius
  | shaderMatrix (m : Affine α)
  | nestingTooDeep
  | penWithoutBrush

/-- How important a message is. -/
def Message.severity {α : Type} : Message α → Severity
  | .command .. | .clipIgnored | .aliasedClip | .layerClassified _ | .layerComposited _
  | .emptyPath | .drawing .. | .shaderMatrix _ => .trace
  | .differenceClip | .singularAncestor _ | .maskReplaced | .restoreIgnored | .frameLeftOpen
  | .noOutline _ | .textOnPath _ | .textBlob _ | .image .. | .sweepGradient
  | .degenerateRadius | .penWithoutBrush => .debug
  | .nestingTooDeep => .warn

variable {α P : Type} [Scalar α]

namespace Affine

/-- The transforms that cannot be undone. -/
def singularNotes (ancestors : List (Affine α)) : List (Message α) :=
  (ancestors.filter isSingular).map .singularAncestor

end Affine

namespace Scene

/-- What making the brush of a shader reports; `nested` reports on a picture. -/
def brushNotes (s : Scene α P) (nested : P → List (Message α)) (bounds : Rect α) :
    Shader α P → List (Message α)
  | .color _ => []
  | .gradient (.linear ..) .. => []
  | .gradient (.radial ..) .. =>
    if isDegenerateWidth bounds.width then [.degenerateRadius] else []
  | .gradient (.sweep ..) .. => [.sweepGradient]
  | .picture picture _ _ matrix =>
    (if s.options.brushTransform then [] else matrix.toList.map .shaderMatrix) ++
      nested picture

/-- What painting a path reports. -/
def leafNotes (s : Scene α P) (nested : P → List (Message α)) (path : Path α)
    (paint : Paint α P) : List (Message α) :=
  let notes := (paint.shader.map (s.brushNotes nested (s.bounds path))).getD []
  let hasBrush := (paint.shader.bind (s.brush (s.bounds path))).isSome
  let penNotes := if paint.shader.isSome && !hasBrush then [.penWithoutBrush] else []
  (if paint.style.fills then notes else []) ++
    if paint.style.strokes then notes ++ penNotes else []

end Scene

namespace Machine

/-- What drawing a path reports. -/
def drawNotes (s : Scene α P) (nested : P → List (Message α)) (path : Path α)
    (paint : Paint α P) (m : Machine α) : List (Message α) :=
  if path.isEmpty then [.emptyPath]
  else
    .drawing (.product m.transforms.entries) m.clips.entries.length ::
      s.leafNotes nested path paint

/-- What a clip reports. -/
def clipNotes (options : Options) (combine : ClipCombine) (antialias : Bool) :
    List (Message α) :=
  if options.ignoreClips then [.clipIgnored]
  else
    (if combine = .difference then [.differenceClip] else []) ++
      if antialias then [] else [.aliasedClip]

/-- What a change of the matrix reports. -/
def matrixNotes (matrix : Affine α) (m : Machine α) : List (Message α) :=
  if matrix.isIdentity then [] else Affine.singularNotes m.transforms.entries

/-- What combining the innermost buffer reports. -/
def compositeNotes (options : Options) (kind : LayerKind) (m : Machine α) : List (Message α) :=
  let content := m.opened.headD .empty
  let parent := top { m with opened := m.opened.tail }
  let handed :=
    match kind with
    | .maskBrush => !options.ignoreMask
    | .maskGroup => options.ignoreMask && content.mask.isSome
    | .opacity _ => options.ignoreOpacity && content.mask.isSome
    | .filter | .unknown => content.mask.isSome
  .layerComposited kind :: if handed && parent.mask.isSome then [.maskReplaced] else []

/-- What leaving the innermost frame reports. -/
def restoreNotes (options : Options) (m : Machine α) : List (Message α) :=
  match m.layers with
  | [] => [.restoreIgnored]
  | none :: _ => []
  | some kind :: _ => m.closeFrame.compositeNotes options kind

/-- What following a command reports. -/
def stepNotes (s : Scene α P) (nested : P → List (Message α)) (m : Machine α)
    (c : Command α P) : List (Message α) :=
  .command c.name m.depth ::
    match c with
    | .clipPath _ combine antialias | .clipRect _ combine antialias =>
      clipNotes s.options combine antialias
    | .setMatrix matrix => m.matrixNotes matrix
    | .save => []
    | .restore => m.restoreNotes s.options
    | .saveLayer paint => [.layerClassified (.classify paint)]
    | .drawPath path paint => m.drawNotes s nested path paint
    | .drawText text origin paint =>
      match s.outline text origin paint with
      | none => [.noOutline text]
      | some path => m.drawNotes s nested path paint
    | .drawTextOnPath text .. => [.textOnPath text]
    | .drawTextBlob blob .. => [.textBlob blob.glyphs.length]
    | .drawImage image .. => [.image image.width image.height]

/-- What following commands reports. -/
def runNotes (s : Scene α P) (nested : P → List (Message α)) (m : Machine α) :
    List (Command α P) → List (Message α)
  | [] => []
  | c :: cs => m.stepNotes s nested c ++ runNotes s nested (m.step s c) cs

/-- What leaving a number of frames at the end reports. -/
def finishNotes (options : Options) : Nat → Machine α → List (Message α)
  | 0, _ => []
  | n + 1, m =>
    .frameLeftOpen :: m.restoreNotes options ++ finishNotes options n (m.restore options)

end Machine

/-- What converting a picture reports. -/
def Scene.notes (s : Scene α P) (nested : P → List (Message α)) (bounds : Rect α)
    (commands : List (Command α P)) : List (Message α) :=
  let start := Machine.start s.options bounds
  let last := start.run s commands
  start.runNotes s nested commands ++ last.finishNotes s.options last.depth

namespace Setting

/-- What the drawing of a nested picture reports. -/
def visualNotes (s : Setting α) : Nat → Picture α → List (Message α)
  | 0, _ => [.nestingTooDeep]
  | levels + 1, p =>
    (s.scene (s.visual levels)).notes (s.visualNotes levels) p.cullRect p.commands

/-- What the drawing of a picture reports. -/
def notes (s : Setting α) (p : Picture α) : List (Message α) :=
  (s.scene (s.visual maximumNesting)).notes (s.visualNotes maximumNesting) p.cullRect
    p.commands

end Setting

end PictureMarkup
