import PictureMarkup.Conversion
import PictureMarkup.Proofs.Grown
import PictureMarkup.Proofs.Nesting

/-!
# Conversion follows the nesting of commands

The machine builds the root group in one pass over a flat list, with four stacks. Here is
what it builds, said by recursion over the nesting of the list (`Block.translate`): a clip
or a visible matrix makes one group of everything after it in its block, a save
contributes its block as it stands, and a layer contributes what its kind makes of its
block.

The proof runs over the list from the left. What is still to come is a block for each open
frame, innermost first; `Machine.resume` puts the translations of these blocks where they
belong, leaving the frames one by one. Each action moves something from the blocks into
the machine and changes nothing of what the end of the picture will show
(`finish_perform`). No frame is resumed that is not open, because unmatched restores are
dropped beforehand.
-/

namespace PictureMarkup

variable {α P : Type} [Scalar α]

/-- What a block adds to the group around it, where some transforms are open, outermost
first. -/
def Block.translate (options : Options) : List (Affine α) → Block α → Content α
  | _, .done => .empty
  | ts, .add l rest => .one (.leaf l) ++ rest.translate options ts
  | ts, .clip c rest =>
    .one (.group { (rest.translate options ts).group with clip := some c.path })
  | ts, .matrix m rest =>
    match m.opening ts with
    | none => rest.translate options ts
    | some t =>
      .one (.group { (rest.translate options (ts ++ [t])).group with transform := some t })
  | ts, .scope layer body rest =>
    (body.translate options ts).outside options layer ++ rest.translate options ts

/-- The root group of a picture, by recursion over the nesting of its commands. -/
def Scene.translation (s : Scene α P) (bounds : Rect α) (commands : List (Command α P)) :
    Group α :=
  let block := (Action.nest (Action.matched 0 (commands.map s.action))).1
  (.background s.options bounds ++ block.translate s.options [] : Content α).group

namespace Block

theorem translate_matrix_of_opening (options : Options) {ts : List (Affine α)}
    {m t : Affine α} (h : m.opening ts = some t) (rest : Block α) :
    (Block.matrix m rest).translate options ts =
      .one (.group { (rest.translate options (ts ++ [t])).group with transform := some t }) := by
  rw [translate, h]

theorem translate_matrix_of_no_opening (options : Options) {ts : List (Affine α)}
    {m : Affine α} (h : m.opening ts = none) (rest : Block α) :
    (Block.matrix m rest).translate options ts = rest.translate options ts := by
  rw [translate, h]

end Block

namespace Machine

/-- Put the translation of a block into the innermost group, then leave the frame for the
next block, until the last. -/
def resume (options : Options) : Machine α → Block α → List (Block α) → Machine α
  | m, b, [] => m.fill (b.translate options m.transforms.entries)
  | m, b, next :: around =>
    resume options ((m.fill (b.translate options m.transforms.entries)).restore options)
      next around

theorem restore_enter (options : Options) (layer : Option LayerKind) (m : Machine α)
    (c : Content α) :
    ((m.act options (.enter layer)).fill c).restore options =
      m.fill (c.outside options layer) := by
  cases layer with
  | none => exact restore_pushFrame options m c
  | some kind => exact restore_saveLayer options kind m c

@[simp] theorem enter_entries (options : Options) (layer : Option LayerKind) (m : Machine α) :
    (m.act options (.enter layer)).transforms.entries = m.transforms.entries := by
  cases layer with
  | none => exact FrameStack.entries_pushFrame _
  | some kind => exact FrameStack.entries_pushFrame _

theorem enter_layers_ne_nil (options : Options) (layer : Option LayerKind) (m : Machine α) :
    (m.act options (.enter layer)).layers ≠ [] := by
  cases layer <;> exact List.cons_ne_nil _ _

/-- What the innermost group already holds and what the block adds to it can trade places. -/
theorem resume_fill {options : Options} {m : Machine α} {b whole : Block α} {c : Content α}
    (split : whole.translate options m.transforms.entries =
      c ++ b.translate options m.transforms.entries) (around : List (Block α)) :
    (m.fill c).resume options b around = m.resume options whole around := by
  cases around with
  | nil => rw [resume, resume, fill_transforms, fill_fill, split]
  | cons next around => rw [resume, resume, fill_transforms, fill_fill, split]

/-- A group that is open, with the block still to be put into it, ends as the child that
holds the translation of the block. -/
theorem finish_resume_of_opens {options : Options} {m m' : Machine α} {b whole : Block α}
    {g : Group α} (opens : Opens g m (m'.fill (b.translate options m'.transforms.entries)))
    (wrapped : whole.translate options m.transforms.entries = .one (.group g))
    (around : List (Block α)) (enough : around.length ≤ m.depth) :
    (m'.resume options b around).finish options =
      (m.resume options whole around).finish options := by
  cases around with
  | nil =>
      rw [resume, resume, wrapped]
      exact opens.finish options
  | cons next around =>
      have inside : m.layers ≠ [] := by
        intro root
        rw [depth, root] at enough
        exact absurd enough (Nat.not_succ_le_zero _)
      rw [resume, resume, wrapped, opens.restore options inside]

/-- A frame that is open, with its block still to be put into it, ends as the content that
the frame amounts to. -/
theorem finish_resume_enter (options : Options) (layer : Option LayerKind) (m : Machine α)
    (as : List (Action α)) :
    ((m.act options (.enter layer)).resume options (Action.nest as).1
        (Action.nest as).2).finish options =
      (m.resume options (Action.nest (.enter layer :: as)).1
        (Action.nest (.enter layer :: as)).2).finish options := by
  obtain ⟨body, around, nested⟩ : ∃ body around, Action.nest as = (body, around) := ⟨_, _, rfl⟩
  simp only [Action.nest, nested]
  cases around with
  | nil =>
      -- nothing leaves the frame, so the end of the picture does
      have inside : ((m.act options (.enter layer)).fill
          (body.translate options m.transforms.entries)).layers ≠ [] := by
        rw [fill_layers]
        exact enter_layers_ne_nil options layer m
      rw [resume, resume, enter_entries, finish_of_layers options _ inside, restore_enter,
        Block.translate, Block.translate, Content.append_empty]
  | cons rest around =>
      rw [resume, enter_entries, restore_enter]
      congr 1
      exact resume_fill rfl around

/-- Following actions to the end of the picture is resuming the blocks they form. -/
theorem finish_perform (options : Options) (as : List (Action α)) :
    ∀ {m : Machine α}, Grown {} m →
      (m.perform options as).finish options =
        (m.resume options (Action.nest (Action.matched m.depth as)).1
          (Action.nest (Action.matched m.depth as)).2).finish options := by
  induction as with
  | nil =>
      intro m _
      simp only [perform_nil, Action.matched, Action.nest, resume, Block.translate, fill_empty]
  | cons a as ih =>
      intro m grown
      have next := ih (grown.act options lockstep_nothing a (Nat.zero_le _))
      have lockstep := grown.lockstep lockstep_nothing
      have enough := Action.nest_matched_length m.depth as
      rw [perform_cons, next]
      cases a with
      | add l =>
          have depth : (m.act options (.add l)).depth = m.depth := fill_depth m _
          rw [depth]
          simp only [act, Action.matched, Action.nest]
          congr 1
          exact resume_fill rfl _
      | clip c =>
          have opens := opens_openClip lockstep c
            ((Action.nest (Action.matched m.depth as)).1.translate options
              (m.openClip c).transforms.entries)
          rw [Group.fill_clip] at opens
          exact finish_resume_of_opens opens rfl _ enough
      | matrix matrix =>
          simp only [act, Action.matched, Action.nest]
          cases opening : matrix.opening m.transforms.entries with
          | none =>
              rw [setMatrix_of_no_opening opening]
              have same := Block.translate_matrix_of_no_opening options opening
                (Action.nest (Action.matched m.depth as)).1
              cases (Action.nest (Action.matched m.depth as)).2 with
              | nil => rw [resume, resume, same]
              | cons next around => rw [resume, resume, same]
          | some t =>
              rw [setMatrix_of_opening opening]
              have opens := opens_openTransform lockstep t
                ((Action.nest (Action.matched m.depth as)).1.translate options
                  (m.openTransform t).transforms.entries)
              have wrapped := Block.translate_matrix_of_opening options opening
                (Action.nest (Action.matched m.depth as)).1
              rw [← FrameStack.entries_push] at wrapped
              rw [Group.fill_transform] at opens
              exact finish_resume_of_opens opens wrapped _ enough
      | enter layer =>
          have depth : (m.act options (.enter layer)).depth = m.depth + 1 := by
            cases layer <;> rfl
          rw [depth]
          -- one frame more is open, so that one restore more is matched
          exact finish_resume_enter options layer m _
      | leave =>
          rw [act, restore_depth]
          cases depth : m.depth with
          | zero =>
              -- neither the machine nor the nesting takes notice of the restore
              rw [restore_of_root options m (List.eq_nil_of_length_eq_zero depth)]
              rfl
          | succ n =>
              simp only [Action.matched, Action.nest, resume, Block.translate, fill_empty]
              rfl
      | nothing => rfl

end Machine

theorem Scene.convert_eq_translation (s : Scene α P) (bounds : Rect α)
    (commands : List (Command α P)) :
    s.convert bounds commands = s.translation bounds commands := by
  have begun := Machine.grown_start s.options bounds
  have depth := Machine.start_depth s.options bounds
  have around := Action.nest_matched_length 0 (commands.map s.action)
  unfold convert translation
  rw [Machine.run_eq_perform, Machine.finish_perform s.options _ begun, depth,
    List.eq_nil_of_length_eq_zero (Nat.le_zero.mp around), Machine.resume,
    Machine.start_eq_fill, Machine.fill_transforms, Machine.fill_fill,
    Machine.finish_of_root _ _ (Machine.fill_layers _ _)]
  exact Group.fill_empty_group _

/-- **Conversion is structural.** The one pass over the commands of a picture, with its
stacks and its counting of groups, gives the root group that the recursion over their
nesting describes, for the picture itself and for the pictures nested in its shaders,
whether saves and restores match or not. -/
theorem Setting.convert_follows_nesting (s : Setting α) (p : Picture α) :
    s.convert p =
        (s.scene (s.visual maximumNesting)).translation p.cullRect p.commands ∧
      ∀ levels, s.visual (levels + 1) p =
        some ((s.scene (s.visual levels)).translation p.cullRect p.commands) := by
  refine ⟨?_, fun levels => ?_⟩
  · exact Scene.convert_eq_translation _ p.cullRect p.commands
  · rw [visual, Scene.convert_eq_translation]

end PictureMarkup
