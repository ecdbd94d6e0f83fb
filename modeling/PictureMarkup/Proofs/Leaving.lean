import PictureMarkup.Proofs.Content

/-!
# Leaving frames

What leaving a frame makes of the groups that were opened in it. Seen from outside, by a
restore or by the end of the picture,

* a frame that has just been opened and a content put into it are that content in the
  group around the frame (`restore_pushFrame`, `restore_saveLayer`);
* a group that has just been opened inside a frame, with a content put into it, is one
  more child of the group around it (`Opens.restore`, `Opens.finish`);
* the end of the picture is a restore of the innermost frame followed by the end of the
  picture (`finish_of_layers`).

The second fact is where the counting of groups matters: the frame has one entry more and
the builder stack one group more, so that closing as many groups as there are entries
closes this one too. It needs the three stacks of frames to have equally many frames,
which is `Lockstep`.
-/

namespace PictureMarkup

/-- An entry of a frame goes with the frame. -/
theorem FrameStack.popFrame_push {τ : Type} (s : FrameStack τ) (x : τ) (h : s.outer ≠ []) :
    (s.push x).popFrame = s.popFrame := by
  obtain ⟨current, outer⟩ := s
  cases outer with
  | nil => exact absurd rfl h
  | cons frame rest => rfl

namespace Machine

variable {α : Type}

/-- The transforms, the clips and the layers have the same number of frames. -/
structure Lockstep (m : Machine α) : Prop where
  transforms : m.transforms.depth = m.depth
  clips : m.clips.depth = m.depth

/-- Put a transform into effect, in a group of its own. -/
def openTransform (t : Affine α) (m : Machine α) : Machine α :=
  { m.openGroup { transform := some t } with transforms := m.transforms.push t }

/-- Put a clip into effect, in a group of its own. -/
def openClip (c : Clip α) (m : Machine α) : Machine α :=
  { m.openGroup { clip := some c.path } with clips := m.clips.push c }

/-! ## Closing groups -/

/-- Closing groups moves groups only: it commutes with a change of the stacks of frames. -/
theorem closeGroups_stacks (n : Nat) (m : Machine α) (ts : FrameStack (Affine α))
    (cs : FrameStack (Clip α)) (ls : List (Option LayerKind)) :
    closeGroups n { m with transforms := ts, clips := cs, layers := ls } =
      { closeGroups n m with transforms := ts, clips := cs, layers := ls } := by
  induction n generalizing m with
  | zero => rfl
  | succ n ih =>
      have step : closeGroup { m with transforms := ts, clips := cs, layers := ls } =
          { m.closeGroup with transforms := ts, clips := cs, layers := ls } := by
        -- closing looks at the two innermost groups, or at one and the root
        obtain ⟨transforms, clips, layers, opened, root⟩ := m
        rcases opened with _ | ⟨g, _ | ⟨h, rest⟩⟩ <;> rfl
      rw [closeGroups, step, ih]
      rfl

@[simp] theorem closeGroups_layers (n : Nat) (m : Machine α) :
    (closeGroups n m).layers = m.layers := by
  have same : closeGroups n m =
      { closeGroups n m with transforms := m.transforms, clips := m.clips, layers := m.layers } :=
    closeGroups_stacks n m m.transforms m.clips m.layers
  rw [same]

/-- The second machine is the first with one more group open in the innermost frame, and
that frame has one more entry. -/
structure Opens (g : Group α) (m m' : Machine α) : Prop where
  opened : m'.opened = g :: m.opened
  root : m'.root = m.root
  count : m'.frameGroups = m.frameGroups + 1
  layers : m'.layers = m.layers
  transforms : m.layers ≠ [] → m'.transforms.popFrame = m.transforms.popFrame
  clips : m.layers ≠ [] → m'.clips.popFrame = m.clips.popFrame

section

variable {m m' : Machine α} {g : Group α}

/-- A group with a transform closes into one child. -/
theorem opens_openTransform (lockstep : m.Lockstep) (t : Affine α) (c : Content α) :
    Opens (Group.fill { transform := some t } c) m ((m.openTransform t).fill c) where
  opened := rfl
  root := rfl
  count := Nat.succ_add _ _
  layers := rfl
  transforms inside := by
    refine m.transforms.popFrame_push t fun root => inside ?_
    have depth := lockstep.transforms
    rw [FrameStack.depth, root] at depth
    exact List.eq_nil_of_length_eq_zero depth.symm
  clips _ := rfl

theorem opens_openClip (lockstep : m.Lockstep) (e : Clip α) (c : Content α) :
    Opens (Group.fill { clip := some e.path } c) m ((m.openClip e).fill c) where
  opened := rfl
  root := rfl
  count := rfl
  layers := rfl
  transforms _ := rfl
  clips inside := by
    refine m.clips.popFrame_push e fun root => inside ?_
    have depth := lockstep.clips
    rw [FrameStack.depth, root] at depth
    exact List.eq_nil_of_length_eq_zero depth.symm

/-- Closing the groups of the frame turns the new group into a child of the one around it. -/
theorem Opens.closeGroups (h : Opens g m m') :
    closeGroups m'.frameGroups m' =
      { closeGroups m.frameGroups (m.fill (.one (.group g))) with
        transforms := m'.transforms, clips := m'.clips, layers := m'.layers } := by
  have closed : m'.closeGroup =
      { m.fill (.one (.group g)) with
        transforms := m'.transforms, clips := m'.clips, layers := m'.layers } := by
    have shape : m' = { m' with opened := g :: m.opened, root := m.root } := by
      rw [← h.opened, ← h.root]
    rw [shape]
    unfold closeGroup fill modifyTop
    cases m.opened with
    | nil => simp [Group.append_one]
    | cons around rest => simp [Group.append_one]
  -- the first of the closes accounts for the new group, the others are those of `m`
  rw [h.count, Machine.closeGroups, closed]
  exact closeGroups_stacks _ _ _ _ _

@[simp] theorem fill_frameGroups (m : Machine α) (c : Content α) :
    (m.fill c).frameGroups = m.frameGroups := by
  unfold frameGroups
  rw [fill_transforms, fill_clips]

/-- Closing a frame closes the group that was opened last in it as a child. -/
theorem Opens.closeFrame (h : Opens g m m') (inside : m.layers ≠ []) :
    m'.closeFrame = (m.fill (.one (.group g))).closeFrame := by
  -- the entry of the new group goes with the frame
  unfold Machine.closeFrame
  rw [h.closeGroups, h.transforms inside, h.clips inside, h.layers, fill_frameGroups,
    fill_transforms, fill_clips, fill_layers]

end

variable [Scalar α] {m m' : Machine α} {g : Group α}

/-! ## Restoring -/

/-- Above the outermost frame a restore does not tell an open group from a child. -/
theorem Opens.restore (options : Options) (h : Opens g m m') (inside : m.layers ≠ []) :
    m'.restore options = (m.fill (.one (.group g))).restore options := by
  obtain ⟨layer, rest, layers⟩ := List.exists_cons_of_ne_nil inside
  unfold Machine.restore
  rw [h.closeFrame inside, h.layers, fill_layers, layers]
  cases layer with
  | none => rfl
  | some kind => rfl

/-- Leaving a frame that a save has just opened puts its content into the group around. -/
theorem restore_pushFrame (options : Options) (m : Machine α) (c : Content α) :
    ((m.pushFrame none).fill c).restore options = m.fill c := by
  obtain ⟨transforms, clips, layers, groups, root⟩ := m
  cases groups with
  | nil => rfl
  | cons g rest => rfl

/-- Leaving a layer that has just been opened puts what its kind makes of the content into
the group around. -/
theorem restore_saveLayer (options : Options) (kind : LayerKind) (m : Machine α)
    (c : Content α) :
    ((m.saveLayer kind).fill c).restore options = m.fill (c.asLayer options kind) := by
  have popped : ((m.saveLayer kind).fill c).restore options =
      m.modifyTop fun parent => parent.composite options kind (Group.empty.fill c) := rfl
  rw [popped, Group.fill_empty_group]
  unfold fill
  congr 1
  funext parent
  exact parent.composite_group options kind c

theorem restore_of_root (options : Options) (m : Machine α) (root : m.layers = []) :
    m.restore options = m := by
  unfold restore
  rw [root]

@[simp] theorem restore_layers (options : Options) (m : Machine α) :
    (m.restore options).layers = m.layers.tail := by
  cases h : m.layers with
  | nil => rw [restore_of_root options m h, h]; rfl
  | cons layer rest =>
      cases layer with
      | none => simp [restore, h, closeFrame]
      | some kind =>
          simp only [restore, h, composite]
          unfold modifyTop
          split <;> simp [closeFrame, h]

/-! ## The end of the picture -/

/-- At the end an open frame is left first, as if it had been restored. -/
theorem finish_of_layers (options : Options) (m : Machine α) (inside : m.layers ≠ []) :
    m.finish options = (m.restore options).finish options := by
  obtain ⟨layer, rest, h⟩ := List.exists_cons_of_ne_nil inside
  have depth : m.depth = (m.restore options).depth + 1 := by
    unfold Machine.depth
    rw [restore_layers, h]
    rfl
  unfold finish
  rw [depth]
  rfl

theorem finish_of_root (options : Options) (m : Machine α) (root : m.layers = []) :
    m.finish options =
      { closeGroups m.frameGroups m with transforms := .empty, clips := .empty } := by
  unfold finish Machine.depth
  rw [root]
  rfl

/-- The end closes it as a child, too. -/
theorem Opens.finish (options : Options) (h : Opens g m m') :
    m'.finish options = (m.fill (.one (.group g))).finish options := by
  -- the end closes the groups of the outermost frame itself and restores the other frames
  by_cases root : m.layers = []
  · have layers : (Machine.closeGroups m.frameGroups (m.fill (.one (.group g)))).layers =
        m.layers := by rw [closeGroups_layers, fill_layers]
    rw [finish_of_root options m' (h.layers.trans root),
      finish_of_root options _ ((fill_layers m _).trans root), h.closeGroups, h.layers,
      fill_frameGroups, ← layers]
  · have inside : m'.layers ≠ [] := by rw [h.layers]; exact root
    have filled : (m.fill (.one (.group g))).layers ≠ [] := by rw [fill_layers]; exact root
    rw [finish_of_layers options m' inside, finish_of_layers options _ filled,
      h.restore options root]

end Machine

end PictureMarkup
