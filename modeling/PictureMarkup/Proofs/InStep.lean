import PictureMarkup.Proofs.Grown

/-!
# The stacks stay in step

The machine closes groups by counting entries, so everything rests on the builder stack
and the stacks of frames telling the same story. `Stacked` is that story, frame by frame:
a layer's frame begins with its buffer, and on top of it lies one group for each transform
and each clip of the frame. It holds of every reachable state (`Grown.stacked`), and from
it follows that

* no group is closed that is not there (`Grown.closeGroups_ne_nil`);
* below the groups of a layer's frame lies the layer's own buffer, and below that exactly
  what was open when the layer was opened (`Grown.closeFrame_layer`,
  `Grown.closeFrame_own_buffer`);
* nothing is open after the end of the picture (`Grown.finish_opened`), so that as many
  groups are closed as opened (`ledger`).
-/

namespace PictureMarkup

/-- The frames of a stack, the innermost first. -/
def FrameStack.frames {τ : Type} (s : FrameStack τ) : List (List τ) := s.current :: s.outer

namespace Machine

variable {α P : Type}

/-- The shells of the groups of one frame, latest first, as its transforms and clips have
them. -/
structure Entries (ts : List (Affine α)) (cs : List (Clip α)) (gs : List (Group α)) : Prop where
  /-- One group for each entry. -/
  length : gs.length = ts.length + cs.length
  transforms : gs.filterMap (·.transform) = ts
  clips : gs.filterMap (·.clip) = cs.map (·.path)
  /-- A transform or a clip, and nothing else. -/
  each : ∀ g ∈ gs, (∃ t, g = { transform := some t }) ∨ ∃ path, g = { clip := some path }

namespace Entries

variable {ts : List (Affine α)} {cs : List (Clip α)} {gs : List (Group α)}

theorem nil : Entries (α := α) [] [] [] := ⟨rfl, rfl, rfl, by simp⟩

theorem transform (h : Entries ts cs gs) (t : Affine α) :
    Entries (t :: ts) cs ({ transform := some t } :: gs) where
  length := by
    rw [List.length_cons, List.length_cons, h.length]
    omega
  transforms := congrArg (t :: ·) h.transforms
  clips := h.clips
  each g member := by
    rcases List.mem_cons.mp member with rfl | member
    · exact .inl ⟨t, rfl⟩
    · exact h.each g member

theorem clip (h : Entries ts cs gs) (c : Clip α) :
    Entries ts (c :: cs) ({ clip := some c.path } :: gs) where
  length := by
    rw [List.length_cons, List.length_cons, h.length]
    omega
  transforms := h.transforms
  clips := congrArg (c.path :: ·) h.clips
  each g member := by
    rcases List.mem_cons.mp member with rfl | member
    · exact .inr ⟨c.path, rfl⟩
    · exact h.each g member

end Entries

/-- The shells of the builder stack frame by frame, everything innermost first: the groups
of the frame and, for a layer, its buffer, which has no property of its own. -/
inductive Stacked : List (Option LayerKind) → List (List (Affine α)) → List (List (Clip α)) →
    List (Group α) → Prop
  | root {ts cs own} : Entries ts cs own → Stacked [] [ts] [cs] own
  | save {ts cs own layers tss css below} : Entries ts cs own →
      Stacked layers tss css below →
      Stacked (none :: layers) (ts :: tss) (cs :: css) (own ++ below)
  | layer {ts cs own layers tss css below} (kind : LayerKind) : Entries ts cs own →
      Stacked layers tss css below →
      Stacked (some kind :: layers) (ts :: tss) (cs :: css) (own ++ .empty :: below)

namespace Stacked

variable {layers : List (Option LayerKind)} {ts : List (Affine α)} {tss : List (List (Affine α))}
  {cs : List (Clip α)} {css : List (List (Clip α))} {gs : List (Group α)}

theorem transform (h : Stacked layers (ts :: tss) css gs) (t : Affine α) :
    Stacked layers ((t :: ts) :: tss) css ({ transform := some t } :: gs) := by
  cases h with
  | root own => exact .root (own.transform t)
  | save own below => exact .save (own.transform t) below
  | layer kind own below => exact .layer kind (own.transform t) below

theorem clip (h : Stacked layers tss (cs :: css) gs) (c : Clip α) :
    Stacked layers tss ((c :: cs) :: css) ({ clip := some c.path } :: gs) := by
  cases h with
  | root own => exact .root (own.clip c)
  | save own below => exact .save (own.clip c) below
  | layer kind own below => exact .layer kind (own.clip c) below

theorem frames (h : Stacked layers tss css gs) :
    tss.length = layers.length + 1 ∧ css.length = layers.length + 1 := by
  induction h with
  | root _ => exact ⟨rfl, rfl⟩
  | save _ _ ih => exact ⟨congrArg (· + 1) ih.1, congrArg (· + 1) ih.2⟩
  | layer _ _ _ ih => exact ⟨congrArg (· + 1) ih.1, congrArg (· + 1) ih.2⟩

theorem transforms (h : Stacked layers tss css gs) :
    gs.filterMap (·.transform) = tss.flatten := by
  induction h with
  | root own =>
      rw [own.transforms]
      exact (List.append_nil _).symm
  | save own _ ih => rw [List.filterMap_append, own.transforms, ih, List.flatten_cons]
  | layer _ own _ ih =>
      rw [List.filterMap_append, own.transforms, List.filterMap_cons_none rfl, ih,
        List.flatten_cons]

theorem own (h : Stacked layers (ts :: tss) (cs :: css) gs) :
    ∃ own below, gs = own ++ below ∧ Entries ts cs own := by
  cases h with
  | root own => exact ⟨_, [], (List.append_nil _).symm, own⟩
  | save own _ => exact ⟨_, _, rfl, own⟩
  | layer _ own _ => exact ⟨_, _, rfl, own⟩

end Stacked

/-- The stacks of the machine and its open groups belong to each other. -/
def InStep (m : Machine α) : Prop :=
  Stacked m.layers m.transforms.frames m.clips.frames (m.opened.map Group.shell)

theorem Grown.inStep {m : Machine α} (h : Grown {} m) : m.InStep := by
  unfold InStep
  induction h with
  | base => exact .root .nil
  | fill c _ ih =>
      rw [fill_layers, fill_transforms, fill_clips, fill_shells]
      exact ih
  | transform t _ ih => exact ih.transform t
  | clip c _ ih => exact ih.clip c
  | frame _ ih => exact .save .nil ih
  | layer kind _ ih => exact .layer kind .nil ih

/-! ## Closing -/

/-- Closing a group takes it off the stack and changes no other shell. -/
theorem closeGroups_shells (n : Nat) (m : Machine α) :
    (closeGroups n m).opened.map Group.shell = (m.opened.map Group.shell).drop n := by
  induction n generalizing m with
  | zero => rfl
  | succ n ih =>
      have closed : m.closeGroup.opened.map Group.shell = (m.opened.map Group.shell).tail := by
        obtain ⟨transforms, clips, layers, opened, root⟩ := m
        rcases opened with _ | ⟨g, _ | ⟨around, rest⟩⟩ <;> rfl
      rw [closeGroups, ih, closed, List.drop_tail]

theorem closeGroups_height (n : Nat) (m : Machine α) :
    (closeGroups n m).opened.length = m.opened.length - n := by
  have lengths := congrArg List.length (closeGroups_shells n m)
  rwa [List.length_map, List.length_drop, List.length_map] at lengths

namespace InStep

variable {m : Machine α}

/-- The transforms in effect are those of the open groups, outermost first. -/
theorem entries (h : m.InStep) :
    (m.opened.filterMap (·.transform)).reverse = m.transforms.entries := by
  have shells := Stacked.transforms h
  rw [List.filterMap_map] at shells
  exact congrArg List.reverse shells

/-- There are at least as many groups as the innermost frame has entries. -/
theorem frameGroups_le (h : m.InStep) : m.frameGroups ≤ m.opened.length := by
  obtain ⟨own, below, split, entries⟩ := Stacked.own h
  have lengths := congrArg List.length split
  rw [List.length_map, List.length_append, entries.length] at lengths
  unfold frameGroups
  omega

theorem closeGroups_ne_nil (h : m.InStep) {n : Nat} (entry : n < m.frameGroups) :
    (closeGroups n m).opened ≠ [] := by
  have enough := h.frameGroups_le
  have height := closeGroups_height n m
  intro nothing
  rw [nothing, List.length_nil] at height
  omega

/-- In the outermost frame there are exactly as many groups as entries. -/
theorem frameGroups_of_root (h : m.InStep) (root : m.layers = []) :
    m.frameGroups = m.opened.length := by
  unfold InStep at h
  rw [root] at h
  obtain ⟨transforms, clips, layers, opened, rootGroup⟩ := m
  obtain ⟨ts, tss⟩ := transforms
  obtain ⟨cs, css⟩ := clips
  cases h with
  | root own =>
      have lengths := own.length
      rw [List.length_map] at lengths
      exact lengths.symm

/-- Below the groups of a layer's frame lies a buffer, and below that the other frames. -/
theorem closeFrame_layer (h : m.InStep) {kind : LayerKind} {outer : List (Option LayerKind)}
    (layer : m.layers = some kind :: outer) :
    ∃ buffer below, m.closeFrame.opened = buffer :: below ∧ buffer.shell = .empty ∧
      Stacked outer m.transforms.outer m.clips.outer (below.map Group.shell) := by
  unfold InStep at h
  rw [layer] at h
  have shells : m.closeFrame.opened.map Group.shell =
      (m.opened.map Group.shell).drop m.frameGroups := closeGroups_shells _ _
  generalize m.opened.map Group.shell = gs at h shells
  unfold FrameStack.frames at h
  -- the innermost frame is that of a layer, so its buffer follows its groups
  cases h with
  | layer _ own below =>
      have count : m.frameGroups = _ := own.length.symm
      rw [count, List.drop_left] at shells
      obtain ⟨buffer, rest, opened, empty, others⟩ := List.map_eq_cons_iff.mp shells
      exact ⟨buffer, rest, opened, empty, others ▸ below⟩

end InStep

/-- Back in the frame of its base, a state differs from the base by what was added: closing
the frame gives what closing it would have given with some other content. -/
theorem Grown.closeFrame_of_depth {base m : Machine α} (start : base.Lockstep)
    (inside : base.layers ≠ []) (h : Grown base m) :
    m.depth = base.depth → ∀ c : Content α, ∃ d : Content α,
      (m.fill c).closeFrame = (base.fill d).closeFrame := by
  -- a state of the same depth is in a frame as well
  have nested : ∀ {n : Machine α}, n.depth = base.depth → n.layers ≠ [] := by
    intro n same root
    rw [depth, root] at same
    exact inside (List.eq_nil_of_length_eq_zero same.symm)
  induction h with
  | base => exact fun _ c => ⟨c, rfl⟩
  | @fill n d _ ih =>
      intro same c
      have depth : (n.fill d).depth = n.depth := fill_depth n d
      rw [fill_fill]
      exact ih (depth.symm.trans same) _
  | @transform n t h ih =>
      intro same c
      rw [(opens_openTransform (h.lockstep start) t c).closeFrame (nested same)]
      exact ih same _
  | @clip n e h ih =>
      intro same c
      rw [(opens_openClip (h.lockstep start) e c).closeFrame (nested same)]
      exact ih same _
  | @frame n h _ =>
      intro same
      have higher := h.depth_le
      have above : (n.pushFrame none).depth = n.depth + 1 := rfl
      omega
  | @layer n kind h _ =>
      intro same
      have higher := h.depth_le
      have above : (n.saveLayer kind).depth = n.depth + 1 := rfl
      omega

/-- When a layer is left, what lies below the groups of its frame is the buffer that was
opened with it, on top of what was open at that time. -/
theorem Grown.closeFrame_own_buffer {m inner : Machine α} {kind : LayerKind}
    (start : m.Lockstep) (h : Grown (m.saveLayer kind) inner)
    (same : inner.depth = m.depth + 1) :
    ∃ content : Content α, inner.closeFrame.opened = content.group :: m.opened := by
  have lockstep := (Grown.layer kind (.base : Grown m m)).lockstep start
  obtain ⟨d, closed⟩ := h.closeFrame_of_depth lockstep (List.cons_ne_nil _ _) same .empty
  rw [fill_empty] at closed
  refine ⟨d, ?_⟩
  rw [closed, ← Group.fill_empty_group]
  rfl

@[simp] theorem modifyTop_height (f : Group α → Group α) (m : Machine α) :
    (m.modifyTop f).opened.length = m.opened.length := by
  obtain ⟨transforms, clips, layers, opened, root⟩ := m
  cases opened <;> rfl

variable [Scalar α]

/-! ## The end of the picture -/

theorem restoreFrames_layers (options : Options) (n : Nat) (m : Machine α) :
    (restoreFrames options n m).layers = m.layers.drop n := by
  induction n generalizing m with
  | zero => rfl
  | succ n ih => rw [restoreFrames, ih, restore_layers, List.drop_tail]

theorem Grown.restoreFrames {m : Machine α} (h : Grown {} m) (options : Options) (n : Nat) :
    Grown {} (restoreFrames options n m) := by
  rw [restoreFrames_eq_perform]
  exact h.perform options lockstep_nothing _ fun _ _ => Nat.zero_le _

theorem Grown.finish_opened {m : Machine α} (h : Grown {} m) (options : Options) :
    (m.finish options).opened = [] := by
  have root : (Machine.restoreFrames options m.depth m).layers = [] := by
    rw [restoreFrames_layers, depth, List.drop_length]
  have count := (h.restoreFrames options m.depth).inStep.frameGroups_of_root root
  have height := closeGroups_height (Machine.restoreFrames options m.depth m).frameGroups
    (Machine.restoreFrames options m.depth m)
  rw [count, Nat.sub_self] at height
  rw [← count] at height
  exact List.eq_nil_of_length_eq_zero height

/-! ## Opened and closed -/

/-- How many groups an action opens. -/
def opening (m : Machine α) : Action α → Nat
  | .clip _ => 1
  | .matrix matrix => if (matrix.opening m.transforms.entries).isSome then 1 else 0
  | .enter layer => if layer.isSome then 1 else 0
  | .add _ | .leave | .nothing => 0

/-- How many groups an action closes: as many as the frame has entries, and the buffer of
a layer. -/
def closing (m : Machine α) : Action α → Nat
  | .leave =>
    match m.layers with
    | [] => 0
    | layer :: _ => m.frameGroups + if layer.isSome then 1 else 0
  | .clip _ | .matrix _ | .enter _ | .add _ | .nothing => 0

/-- The sum of a count over actions, each taken in the state in which it is done. -/
def total (count : Machine α → Action α → Nat) (options : Options) :
    Machine α → List (Action α) → Nat
  | _, [] => 0
  | m, a :: as => count m a + total count options (m.act options a) as

theorem InStep.restore_height {m : Machine α} (h : m.InStep) (options : Options) :
    (m.restore options).opened.length + m.closing .leave = m.opened.length := by
  have enough := h.frameGroups_le
  have closed : m.closeFrame.opened.length = m.opened.length - m.frameGroups :=
    closeGroups_height _ m
  unfold closing
  cases layers : m.layers with
  | nil => rw [restore_of_root options m layers]; rfl
  | cons layer outer =>
      cases layer with
      | none =>
          simp only [restore, layers, Option.isSome_none, Bool.false_eq_true, if_false]
          omega
      | some kind =>
          obtain ⟨buffer, below, opened, -⟩ := h.closeFrame_layer layers
          rw [opened, List.length_cons] at closed
          simp only [restore, layers, composite, modifyTop_height, opened, List.tail_cons,
            Option.isSome_some, if_true]
          omega

/-- The height of the builder stack follows what is opened and closed. -/
theorem InStep.act_height {m : Machine α} (h : m.InStep) (options : Options) (a : Action α) :
    (m.act options a).opened.length + m.closing a = m.opened.length + m.opening a := by
  cases a with
  | add l => exact modifyTop_height _ m
  | clip c => rfl
  | matrix matrix =>
      simp only [act, opening, closing]
      cases opens : matrix.opening m.transforms.entries with
      | none =>
          rw [setMatrix_of_no_opening opens]
          rfl
      | some t =>
          rw [setMatrix_of_opening opens]
          rfl
  | enter layer => cases layer <;> rfl
  | leave => exact h.restore_height options
  | nothing => rfl

/-- What has been opened and not closed is on the builder stack. -/
theorem ledger (options : Options) (as : List (Action α)) :
    ∀ {m : Machine α}, Grown {} m →
      (m.perform options as).opened.length + total closing options m as =
        m.opened.length + total opening options m as := by
  induction as with
  | nil => exact fun _ => rfl
  | cons a as ih =>
      intro m grown
      have first := grown.inStep.act_height options a
      have rest := ih (grown.act options lockstep_nothing a (Nat.zero_le _))
      rw [perform_cons, total, total]
      omega

/-- Commands that leave none of the frames that were there before them keep all that was
open. -/
theorem grown_run {m : Machine α} (lockstep : m.Lockstep) (s : Scene α P)
    (cs : List (Command α P))
    (inside : ∀ part, part <+: cs → m.depth ≤ (m.run s part).depth) : Grown m (m.run s cs) := by
  rw [run_eq_perform]
  refine Grown.perform s.options lockstep _ .base fun part initial => ?_
  obtain ⟨first, front, rfl⟩ := List.prefix_map_iff.mp initial
  rw [← run_eq_perform]
  exact inside first front

/-- Once every frame is left, what has been opened is closed but for the groups of the
outermost frame. -/
theorem ledger_of_root (options : Options) (bounds : Rect α) (as : List (Action α))
    (root : ((start options bounds).perform options as).layers = []) :
    total opening options (start options bounds) as =
      total closing options (start options bounds) as +
        ((start options bounds).perform options as).frameGroups := by
  have counted := ledger options as (grown_start options bounds)
  have groups := (grown_of_start options bounds as).inStep.frameGroups_of_root root
  have nothing : (start options bounds).opened.length = 0 := by
    rw [start_eq_fill]
    rfl
  omega

/-- **The stacks stay in step.** In every state of a conversion, the states in which the
end of the picture leaves frames included:

* there is one frame of transforms and one of clips more than there are layers;
* the builder stack is, frame by frame, the buffer of a layer and one group for each
  transform and each clip of the frame;
* a group of the frame that is to be closed is there;
* a layer that is to be combined finds its buffer on the builder stack, on top of exactly
  the groups that were open when it was opened, whatever ran inside it.

At the end nothing is left open, and as many groups have been closed as opened. -/
theorem stacks_in_step (s : Scene α P) (bounds : Rect α) (commands : List (Command α P))
    (left : Nat) :
    let m := restoreFrames s.options left ((start s.options bounds).run s commands)
    let actions := commands.map s.action ++ List.replicate left .leave
    (m.transforms.frames.length = m.layers.length + 1 ∧
        m.clips.frames.length = m.layers.length + 1) ∧
      Stacked m.layers m.transforms.frames m.clips.frames (m.opened.map Group.shell) ∧
      (∀ n < m.frameGroups, (closeGroups n m).opened ≠ []) ∧
      (∀ kind outer, m.layers = some kind :: outer →
        ∃ buffer below, m.closeFrame.opened = buffer :: below ∧ buffer.shell = .empty ∧
          Stacked outer m.transforms.outer m.clips.outer (below.map Group.shell)) ∧
      (∀ paint body,
        let entered := m.step s (.saveLayer paint)
        (∀ part, part <+: body → m.depth < (entered.run s part).depth) →
        (entered.run s body).depth = m.depth + 1 →
        ∃ content : Content α,
          (entered.run s body).closeFrame.opened = content.group :: m.opened) ∧
      (m.finish s.options).opened = [] ∧
      (m.layers = [] →
        total opening s.options (start s.options bounds) actions =
          total closing s.options (start s.options bounds) actions + m.frameGroups) := by
  intro m actions
  have reached : m = (start s.options bounds).perform s.options actions := by
    show restoreFrames _ _ _ = List.foldl _ _ _
    rw [restoreFrames_eq_perform, run_eq_perform, List.foldl_append]
    rfl
  have grown : Grown {} m := reached ▸ grown_of_start s.options bounds actions
  have inStep := grown.inStep
  refine ⟨inStep.frames, inStep, ?_, ?_, ?_, grown.finish_opened s.options, ?_⟩
  · intro n entry
    exact inStep.closeGroups_ne_nil entry
  · intro kind outer layer
    exact inStep.closeFrame_layer layer
  · intro paint body entered stays same
    have lockstep := grown.lockstep lockstep_nothing
    -- seen from inside, the layer's own frame counts among those that stay
    have lockstep' : entered.Lockstep :=
      (Grown.layer (.classify paint) (.base : Grown m m)).lockstep lockstep
    have inside := grown_run lockstep' s body stays
    exact inside.closeFrame_own_buffer lockstep same
  · intro root
    rw [reached] at root ⊢
    exact ledger_of_root s.options bounds actions root

end Machine

end PictureMarkup
