import PictureMarkup.Proofs.Translation

/-!
# What a state amounts to

Whatever the rest of a picture is, it does two things to a state: it puts contents into
the innermost group, and it leaves frames. So a state is known, as far as the tree is
concerned, once it is known which root group comes out when one content arrives in each of
its frames. `Machine.outcome` is that function, and each action turns it into itself with
other contents:

* a content that is put in now comes before the one that arrives later (`outcome_fill`);
* a group that is opened turns what arrives in it into one child
  (`outcome_openTransform`, `outcome_openClip`);
* a frame hands what arrives in it to the frame around it, as a save or as its kind of
  layer (`outcome_enter`);
* leaving a frame is an arrival of nothing in it (`outcome_restore`).

Two states with the same outcomes are `Alike`: no picture can tell them apart.
-/

namespace PictureMarkup

namespace Machine

variable {α P : Type} [Scalar α]

/-- The root group of the picture if one content arrives in the innermost frame and then,
frame by frame outwards, one in each of the others. -/
def outcome (options : Options) : Machine α → Content α → List (Content α) → Group α
  | m, c, [] => ((m.fill c).finish options).root
  | m, c, next :: around => outcome options ((m.fill c).restore options) next around

section

variable (options : Options) (m : Machine α)

theorem outcome_fill (c d : Content α) (around : List (Content α)) :
    (m.fill c).outcome options d around = m.outcome options (c ++ d) around := by
  cases around with
  | nil => rw [outcome, outcome, fill_fill]
  | cons next around => rw [outcome, outcome, fill_fill]

theorem outcome_restore (c : Content α) (around : List (Content α)) :
    (m.restore options).outcome options c around = m.outcome options .empty (c :: around) := by
  rw [outcome, fill_empty]

theorem outcome_enter (layer : Option LayerKind) (c next : Content α)
    (around : List (Content α)) :
    (m.act options (.enter layer)).outcome options c (next :: around) =
      m.outcome options (c.outside options layer ++ next) around := by
  rw [outcome, restore_enter, outcome_fill]

end

/-- What arrives in a group that has just been opened arrives as one child in the group
around it. -/
theorem Opens.outcome {options : Options} {m m' : Machine α} {g : Group α} {c : Content α}
    (opens : Opens g m (m'.fill c)) {around : List (Content α)}
    (enough : around.length ≤ m.depth) :
    m'.outcome options c around = m.outcome options (.one (.group g)) around := by
  cases around with
  | nil =>
      rw [Machine.outcome, Machine.outcome, opens.finish options]
  | cons next around =>
      have inside : m.layers ≠ [] := by
        intro root
        rw [depth, root] at enough
        exact absurd enough (Nat.not_succ_le_zero _)
      rw [Machine.outcome, Machine.outcome, opens.restore options inside]

theorem outcome_openTransform {m : Machine α} (lockstep : m.Lockstep) (options : Options)
    (t : Affine α) (c : Content α) {around : List (Content α)}
    (enough : around.length ≤ m.depth) :
    (m.openTransform t).outcome options c around =
      m.outcome options (.one (.group (Group.fill { transform := some t } c))) around :=
  (opens_openTransform lockstep t c).outcome enough

theorem outcome_openClip {m : Machine α} (lockstep : m.Lockstep) (options : Options)
    (e : Clip α) (c : Content α) {around : List (Content α)}
    (enough : around.length ≤ m.depth) :
    (m.openClip e).outcome options c around =
      m.outcome options (.one (.group (Group.fill { clip := some e.path } c))) around :=
  (opens_openClip lockstep e c).outcome enough

/-- If nothing more arrives anywhere, the outcome is the end of the picture. -/
theorem outcome_nothing (options : Options) (m : Machine α) :
    m.outcome options .empty (List.replicate m.depth .empty) = (m.finish options).root := by
  generalize depth : m.depth = n
  induction n generalizing m with
  | zero => rw [List.replicate_zero, outcome, fill_empty]
  | succ n ih =>
      have inside : m.layers ≠ [] := by
        intro root
        rw [Machine.depth, root] at depth
        exact absurd depth.symm (Nat.succ_ne_zero n)
      have left : (m.restore options).depth = n := by
        rw [restore_depth, depth, Nat.add_sub_cancel]
      rw [List.replicate_succ, ← outcome_restore, ih _ left, ← finish_of_layers options m inside]

/-! ## States that no picture can tell apart -/

/-- The same frames, the same transforms in effect and the same outcomes. -/
structure Alike (options : Options) (m m' : Machine α) : Prop where
  grown : Grown {} m
  grown' : Grown {} m'
  depth : m.depth = m'.depth
  transforms : m.transforms = m'.transforms
  outcome : ∀ c around, around.length = m.depth →
    m.outcome options c around = m'.outcome options c around

namespace Alike

variable {options : Options} {m m' : Machine α}

theorem refl (grown : Grown {} m) : Alike options m m :=
  ⟨grown, grown, rfl, rfl, fun _ _ _ => rfl⟩

/-- At the end of the picture states that are alike give the same tree. -/
theorem finish (h : Alike options m m') : (m.finish options).root = (m'.finish options).root := by
  rw [← outcome_nothing, ← outcome_nothing, h.outcome _ _ List.length_replicate, h.depth]

/-- Opening a frame in each of two states keeps them alike if the two frames hand on the
same. -/
theorem enter (h : Alike options m m') {layer layer' : Option LayerKind}
    (same : ∀ c : Content α, c.outside options layer = c.outside options layer') :
    Alike options (m.act options (.enter layer)) (m'.act options (.enter layer')) := by
  refine ⟨h.grown.act options lockstep_nothing _ (Nat.zero_le _),
    h.grown'.act options lockstep_nothing _ (Nat.zero_le _), ?_, ?_, ?_⟩
  · rw [enter_depth, enter_depth, h.depth]
  · rw [enter_transforms, enter_transforms, h.transforms]
  · intro c around length
    rw [enter_depth] at length
    obtain ⟨next, around, rfl⟩ := List.exists_cons_of_length_eq_add_one length
    rw [outcome_enter, outcome_enter, ← same]
    exact h.outcome _ _ (Nat.succ.inj length)

theorem restore (h : Alike options m m') :
    Alike options (m.restore options) (m'.restore options) := by
  by_cases root : m.layers = []
  · -- there is no frame to leave in either state
    have root' : m'.layers = [] := by
      have depth := h.depth
      rw [Machine.depth, root] at depth
      exact List.eq_nil_of_length_eq_zero depth.symm
    rw [restore_of_root options m root, restore_of_root options m' root']
    exact h
  · have lockstep := h.grown.lockstep lockstep_nothing
    have lockstep' := h.grown'.lockstep lockstep_nothing
    refine ⟨h.grown.act options lockstep_nothing .leave (Nat.zero_le _),
      h.grown'.act options lockstep_nothing .leave (Nat.zero_le _), ?_, ?_, ?_⟩
    · rw [restore_depth, restore_depth, h.depth]
    · rw [restore_transforms lockstep, restore_transforms lockstep', h.transforms]
    · intro c around length
      -- one content more is waiting around the frame than around what it leaves
      have positive : 0 < m.depth := List.length_pos_iff.mpr root
      rw [restore_depth] at length
      rw [outcome_restore, outcome_restore]
      apply h.outcome
      rw [List.length_cons]
      omega

/-- What is done to both of two states that are alike leaves them alike. -/
theorem act (h : Alike options m m') (a : Action α) :
    Alike options (m.act options a) (m'.act options a) := by
  have lockstep := h.grown.lockstep lockstep_nothing
  have lockstep' := h.grown'.lockstep lockstep_nothing
  have grown := h.grown.act options lockstep_nothing a (Nat.zero_le _)
  have grown' := h.grown'.act options lockstep_nothing a (Nat.zero_le _)
  cases a with
  | clip e =>
      refine ⟨grown, grown', h.depth, h.transforms, fun c around length => ?_⟩
      -- the group of the clip ends as one more child in both states
      have bound : around.length ≤ m.depth := Nat.le_of_eq length
      show (m.openClip e).outcome options c around = (m'.openClip e).outcome options c around
      rw [outcome_openClip lockstep options e c bound,
        outcome_openClip lockstep' options e c (h.depth ▸ bound)]
      exact h.outcome _ _ length
  | matrix matrix =>
      -- both states have the same transforms open, so the matrix opens the same group or none
      have same : matrix.opening m'.transforms.entries = matrix.opening m.transforms.entries := by
        rw [h.transforms]
      show Alike options (m.setMatrix matrix) (m'.setMatrix matrix)
      cases opening : matrix.opening m.transforms.entries with
      | none =>
          rw [setMatrix_of_no_opening opening, setMatrix_of_no_opening (same.trans opening)]
          exact h
      | some t =>
          change Grown {} (m.setMatrix matrix) at grown
          change Grown {} (m'.setMatrix matrix) at grown'
          rw [setMatrix_of_opening opening] at grown ⊢
          rw [setMatrix_of_opening (same.trans opening)] at grown' ⊢
          refine ⟨grown, grown', h.depth, congrArg (·.push t) h.transforms,
            fun c around length => ?_⟩
          have bound : around.length ≤ m.depth := Nat.le_of_eq length
          rw [outcome_openTransform lockstep options t c bound,
            outcome_openTransform lockstep' options t c (h.depth ▸ bound)]
          exact h.outcome _ _ length
  | add l =>
      refine ⟨grown, grown', ?_, ?_, fun c around length => ?_⟩
      · show (m.fill _).depth = (m'.fill _).depth
        rw [fill_depth, fill_depth]
        exact h.depth
      · show (m.fill _).transforms = (m'.fill _).transforms
        rw [fill_transforms, fill_transforms]
        exact h.transforms
      · show (m.fill _).outcome options c around = (m'.fill _).outcome options c around
        rw [outcome_fill, outcome_fill]
        exact h.outcome _ _ (length.trans (fill_depth m _))
  | enter layer => exact h.enter fun _ => rfl
  | leave => exact h.restore
  | nothing => exact h

end Alike

end Machine

end PictureMarkup
