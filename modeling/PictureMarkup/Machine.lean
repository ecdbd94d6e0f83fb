import PictureMarkup.Frames
import PictureMarkup.Layer
import PictureMarkup.Shading

/-!
# From commands to groups

One pass over the commands of a picture builds its root group. A matrix or a clip
opens a group that stays open until the frame it belongs to is left; a layer opens a
buffer that is combined with what encloses it when the layer ends. The machine
keeps, frame by frame, the transforms and the clips in effect and the kinds of the
open layers, and beside these one stack of the groups that are still open.

Every transform and every clip has exactly one open group, so leaving a frame closes
as many groups as the frame has entries. A restore without a save does nothing, and
frames that are still open at the end are left as if they had been restored.
-/

namespace PictureMarkup

/-- A clip as a command asks for it. How it combines and whether its edges are smooth is kept,
but does not show in a group. -/
structure Clip (α : Type) where
  path : Path α
  combine : ClipCombine := .intersect
  antialias : Bool := true

/-- The state between two commands; all lists begin with what is innermost. -/
structure Machine (α : Type) where
  transforms : FrameStack (Affine α) := .empty
  clips : FrameStack (Clip α) := .empty
  /-- One entry for each frame above the outermost one, with a kind if it is a layer. -/
  layers : List (Option LayerKind) := []
  /-- The groups that are still open, the root left out. -/
  opened : List (Group α) := []
  root : Group α := .empty

namespace Machine

variable {α P : Type}

/-- The number of frames above the outermost one. -/
def depth (m : Machine α) : Nat := m.layers.length

/-- The innermost open group, the root if there is no other. -/
def top (m : Machine α) : Group α := m.opened.headD m.root

/-- Change the innermost open group. -/
def modifyTop (f : Group α → Group α) (m : Machine α) : Machine α :=
  match m.opened with
  | [] => { m with root := f m.root }
  | g :: rest => { m with opened := f g :: rest }

/-- Open a group inside the innermost one. -/
def openGroup (g : Group α) (m : Machine α) : Machine α := { m with opened := g :: m.opened }

/-- Close the innermost open group: it becomes the last child of the one around it. -/
def closeGroup (m : Machine α) : Machine α :=
  match m.opened with
  | [] => m
  | g :: rest => modifyTop (·.append [.group g]) { m with opened := rest }

/-- Close the innermost groups, a number of them. -/
def closeGroups : Nat → Machine α → Machine α
  | 0, m => m
  | n + 1, m => closeGroups n m.closeGroup

/-- The number of groups that the current frame has opened: one for each of its entries. -/
def frameGroups (m : Machine α) : Nat := m.transforms.current.length + m.clips.current.length

/-- Open a frame, of a layer if there is a kind. -/
def pushFrame (layer : Option LayerKind) (m : Machine α) : Machine α :=
  { m with
    transforms := m.transforms.pushFrame
    clips := m.clips.pushFrame
    layers := layer :: m.layers }

/-- Put a clip into effect, in a group of its own, unless clips are ignored. -/
def clip (options : Options) (c : Clip α) (m : Machine α) : Machine α :=
  if options.ignoreClips then m
  else { m.openGroup { clip := some c.path } with clips := m.clips.push c }

/-- Open the buffer of a layer, and a frame for it. -/
def saveLayer (kind : LayerKind) (m : Machine α) : Machine α :=
  (m.openGroup .empty).pushFrame (some kind)

/-- Add a leaf to the innermost group, unless the path has nothing to draw. -/
def draw (s : Scene α P) [Scalar α] (path : Path α) (paint : Paint α P) (m : Machine α) :
    Machine α :=
  if path.isEmpty then m else m.modifyTop (·.append [.leaf (s.leaf path paint)])

variable [Scalar α]

/-- The matrix as seen from inside the open transforms. -/
def relative (m : Machine α) (matrix : Affine α) : Affine α :=
  matrix.relativeTo m.transforms.entries

/-- Replace the matrix. Nothing is opened for the identity, and nothing for a matrix
that is already in effect. -/
def setMatrix (matrix : Affine α) (m : Machine α) : Machine α :=
  if matrix.isIdentity || (m.relative matrix).isIdentity then m
  else
    let relative := m.relative matrix
    { m.openGroup { transform := some relative } with
      transforms := m.transforms.push relative }

/-- Combine the content of the innermost buffer with what encloses it. -/
def composite (options : Options) (kind : LayerKind) (m : Machine α) : Machine α :=
  let content := m.opened.headD .empty
  modifyTop (·.composite options kind content) { m with opened := m.opened.tail }

/-- The machine whose innermost frame is about to be left, with that frame's groups
closed and its entries gone. -/
def closeFrame (m : Machine α) : Machine α :=
  { closeGroups m.frameGroups m with
    transforms := m.transforms.popFrame
    clips := m.clips.popFrame
    layers := m.layers.tail }

/-- Leave the innermost frame, if there is one above the outermost. -/
def restore (options : Options) (m : Machine α) : Machine α :=
  match m.layers with
  | [] => m
  | none :: _ => m.closeFrame
  | some kind :: _ => m.closeFrame.composite options kind

/-- Leave a number of frames, the innermost first. -/
def restoreFrames (options : Options) : Nat → Machine α → Machine α
  | 0, m => m
  | n + 1, m => restoreFrames options n (m.restore options)

/-- Follow a command. Texts are drawn by their outlines; texts along a path, runs of glyphs
and images are not drawn. -/
def step (s : Scene α P) (m : Machine α) : Command α P → Machine α
  | .clipPath path combine antialias => m.clip s.options { path, combine, antialias }
  | .clipRect rect combine antialias =>
    m.clip s.options { path := .ofRect rect, combine, antialias }
  | .setMatrix matrix => m.setMatrix matrix
  | .save => m.pushFrame none
  | .restore => m.restore s.options
  | .saveLayer paint => m.saveLayer (.classify paint)
  | .drawPath path paint => m.draw s path paint
  | .drawText text origin paint =>
    match s.outline text origin paint with
    | none => m
    | some path => m.draw s path paint
  | .drawTextOnPath .. | .drawTextBlob .. | .drawImage .. => m

/-- Follow commands in order. -/
def run (s : Scene α P) (m : Machine α) : List (Command α P) → Machine α
  | [] => m
  | c :: cs => run s (m.step s c) cs

theorem run_append (s : Scene α P) (m : Machine α) (cs ds : List (Command α P)) :
    m.run s (cs ++ ds) = (m.run s cs).run s ds := by
  induction cs generalizing m with
  | nil => rfl
  | cons c cs ih => exact ih _

/-- Leave every frame that is still open, then close what the outermost one holds. -/
def finish (options : Options) (m : Machine α) : Machine α :=
  let m := m.restoreFrames options m.depth
  { closeGroups m.frameGroups m with transforms := .empty, clips := .empty }

/-- The transparent leaf behind a picture. -/
def background (bounds : Rect α) : Drawing α (Group α) :=
  .leaf { path := .ofRect bounds, brush := some (.solid .transparent) }

/-- The state in front of the first command. -/
def start (options : Options) (bounds : Rect α) : Machine α :=
  if options.transparentBackground then { root := { children := [background bounds] } } else {}

end Machine

/-- The root group of a picture with some bounds and commands. -/
def Scene.convert {α P : Type} [Scalar α] (s : Scene α P) (bounds : Rect α)
    (commands : List (Command α P)) : Group α :=
  (((Machine.start s.options bounds).run s commands).finish s.options).root

end PictureMarkup
