import PictureMarkup.Proofs.Exact
import PictureMarkup.Proofs.Translation

/-!
# Saves and restores that do not match

A restore for which no frame is open is dropped, and frames that are still open at the end
are left there. So a picture converts as its completion does, the list of commands without
the one and with the restores that are missing for the other (`Command.completion`), in
which every save has its restore (`Command.balanced_completion`).

Both halves come from what the machine keeps: it has as many frames open as the commands
before it leave open (`Machine.run_depth`), the restores that are dropped find none
(`Machine.run_matched`), and the end of the picture does not tell a frame that is open from
one that has just been left (`Machine.finish_restoreFrames`).
-/

namespace PictureMarkup

variable {α P : Type}

namespace Command

/-! ## Open frames -/

/-- The command opens a frame: it is a save or opens a layer. -/
def opensFrame : Command α P → Bool
  | .save | .saveLayer _ => true
  | _ => false

/-- The command is a restore. -/
def leavesFrame : Command α P → Bool
  | .restore => true
  | _ => false

theorem eq_restore_of_leavesFrame {c : Command α P} (leaves : c.leavesFrame) : c = .restore := by
  cases c with
  | restore => rfl
  | _ => exact absurd leaves Bool.false_ne_true

theorem leavesFrame_of_opensFrame {c : Command α P} (opens : c.opensFrame) :
    c.leavesFrame = false := by
  cases c with
  | restore => exact absurd opens Bool.false_ne_true
  | _ => rfl

/-- How many frames are open behind a command, given how many are in front of it. -/
def depthAfter (n : Nat) (c : Command α P) : Nat :=
  if c.opensFrame then n + 1 else if c.leavesFrame then n - 1 else n

/-- How many frames are open behind some commands. -/
def openFrames (n : Nat) (cs : List (Command α P)) : Nat := cs.foldl depthAfter n

@[simp] theorem openFrames_cons (n : Nat) (c : Command α P) (cs : List (Command α P)) :
    openFrames n (c :: cs) = openFrames (c.depthAfter n) cs := rfl

/-! ## The completion -/

/-- The commands without the restores for which no frame is open. -/
def matched : Nat → List (Command α P) → List (Command α P)
  | _, [] => []
  | n, c :: cs =>
    if c.leavesFrame ∧ n = 0 then matched n cs else c :: matched (c.depthAfter n) cs

/-- The commands without the restores for which no frame is open, and with one restore for
each frame that they leave open. -/
def completion (cs : List (Command α P)) : List (Command α P) :=
  matched 0 cs ++ List.replicate (openFrames 0 cs) .restore

/-- Every frame that is opened is left, and no other. -/
inductive Balanced : List (Command α P) → Prop
  | nil : Balanced []
  | plain {c cs} : c.opensFrame = false → c.leavesFrame = false → Balanced cs → Balanced (c :: cs)
  | frame {c body rest} : c.opensFrame → Balanced body → Balanced rest →
      Balanced (c :: (body ++ .restore :: rest))

/-- Commands that leave every frame they open, and a number of frames besides. -/
inductive Leaves : Nat → List (Command α P) → Prop
  | last {cs} : Balanced cs → Leaves 0 cs
  | leave {n body rest} : Balanced body → Leaves n rest → Leaves (n + 1) (body ++ .restore :: rest)

namespace Leaves

variable {n : Nat} {cs : List (Command α P)} {c : Command α P}

theorem balanced (h : Leaves 0 cs) : Balanced cs := by
  cases h with
  | last h => exact h

theorem plain (opens : c.opensFrame = false) (leaves : c.leavesFrame = false) (h : Leaves n cs) :
    Leaves n (c :: cs) := by
  cases h with
  | last h => exact .last (.plain opens leaves h)
  | leave body rest => exact .leave (.plain opens leaves body) rest

/-- Opening a frame accounts for one of the frames that are left. -/
theorem frame (opens : c.opensFrame) (h : Leaves (n + 1) cs) : Leaves n (c :: cs) := by
  cases h with
  | @leave n body rest inside after =>
      cases after with
      | last after => exact .last (.frame opens inside after)
      | @leave n between rest first others =>
          have whole := Leaves.leave (.frame opens inside first) others
          rwa [List.cons_append, List.append_assoc, List.cons_append] at whole

end Leaves

theorem leaves_replicate (n : Nat) :
    Leaves n (List.replicate n (.restore : Command α P)) := by
  induction n with
  | zero => exact .last .nil
  | succ n ih => exact .leave .nil ih

/-- In front of any number of open frames, what is matched and completed leaves these. -/
theorem leaves_completed (cs : List (Command α P)) :
    ∀ n, Leaves n (matched n cs ++ List.replicate (openFrames n cs) .restore) := by
  induction cs with
  | nil => exact leaves_replicate
  | cons c cs ih =>
      intro n
      have next := ih (c.depthAfter n)
      rw [openFrames_cons, matched]
      by_cases opens : c.opensFrame
      · have stays := leavesFrame_of_opensFrame opens
        have deeper : c.depthAfter n = n + 1 := if_pos opens
        rw [if_neg (by simp [stays])]
        rw [deeper] at next ⊢
        exact next.frame opens
      · by_cases leaves : c.leavesFrame
        · have shallower : c.depthAfter n = n - 1 := by simp [depthAfter, opens, leaves]
          rw [shallower] at next ⊢
          cases n with
          -- with no frame open a restore is dropped
          | zero => simpa [leaves] using next
          | succ n =>
              obtain rfl := eq_restore_of_leavesFrame leaves
              simpa using Leaves.leave .nil next
        · have same : c.depthAfter n = n := by simp [depthAfter, opens, leaves]
          rw [if_neg (by simp [leaves])]
          rw [same] at next ⊢
          exact next.plain (by simpa using opens) (by simpa using leaves)

/-- The completion opens and leaves its frames in pairs. -/
theorem balanced_completion (cs : List (Command α P)) : Balanced (completion cs) :=
  (leaves_completed cs 0).balanced

end Command

/-! ## The machine -/

namespace Machine

variable [Scalar α]

/-- The machine opens and leaves frames where the commands say so. -/
theorem step_depth (s : Scene α P) (m : Machine α) (c : Command α P) :
    (m.step s c).depth = c.depthAfter m.depth := by
  have filled : ∀ path paint, (m.draw s path paint).depth = m.depth := by
    intro path paint
    unfold draw
    split
    · rfl
    · exact fill_depth m (.one (.leaf (s.leaf path paint)))
  have clipped : ∀ e, (m.clip s.options e).depth = m.depth := by
    intro e
    unfold clip
    split <;> rfl
  cases c with
  | clipPath path combine antialias => exact clipped _
  | clipRect rect combine antialias => exact clipped _
  | setMatrix matrix =>
      simp only [step, setMatrix]
      split <;> rfl
  | restore => exact restore_depth s.options m
  | drawPath path paint => exact filled path paint
  | drawText text origin paint =>
      simp only [step]
      split
      · rfl
      · exact filled _ paint
  | _ => rfl

/-- The depth behind a run is the number of frames that its commands leave open. -/
theorem run_depth (s : Scene α P) (m : Machine α) (cs : List (Command α P)) :
    (m.run s cs).depth = Command.openFrames m.depth cs := by
  induction cs generalizing m with
  | nil => rfl
  | cons c cs ih => rw [run, ih, step_depth, Command.openFrames_cons]

/-- A restore does nothing where no frame is open, whatever is open in the outermost one. -/
theorem step_restore_of_depth (s : Scene α P) {m : Machine α} (outermost : m.depth = 0) :
    m.step s .restore = m :=
  restore_of_root s.options m (List.eq_nil_of_length_eq_zero outermost)

/-- Restores for which no frame is open do nothing. -/
theorem run_matched (s : Scene α P) (cs : List (Command α P)) (m : Machine α) :
    m.run s (Command.matched m.depth cs) = m.run s cs := by
  induction cs generalizing m with
  | nil => rfl
  | cons c cs ih =>
      rw [Command.matched]
      split
      · rename_i stray
        have restore := Command.eq_restore_of_leavesFrame stray.1
        rw [ih, run, restore, step_restore_of_depth s stray.2]
      · rw [run, run, ← step_depth s m c, ih]

/-- At the end it makes no difference how many frames have been left already, or whether
more were to be left than are open. -/
theorem finish_restoreFrames (options : Options) (n : Nat) (m : Machine α) :
    (restoreFrames options n m).finish options = m.finish options := by
  induction n generalizing m with
  | zero => rfl
  | succ n ih =>
      rw [restoreFrames, ih]
      by_cases root : m.layers = []
      · rw [restore_of_root options m root]
      · exact (finish_of_layers options m root).symm

theorem run_replicate_restore (s : Scene α P) (n : Nat) (m : Machine α) :
    m.run s (List.replicate n .restore) = restoreFrames s.options n m := by
  induction n generalizing m with
  | zero => rfl
  | succ n ih => exact ih _

end Machine

/-! ## Conversion -/

namespace Scene

variable [Scalar α] (s : Scene α P) (bounds : Rect α)

/-- Restores at the end of a picture change nothing. -/
theorem convert_append_restores (commands : List (Command α P)) (n : Nat) :
    s.convert bounds (commands ++ List.replicate n .restore) = s.convert bounds commands := by
  unfold convert
  rw [Machine.run_append, Machine.run_replicate_restore, Machine.finish_restoreFrames]

theorem convert_matched (commands : List (Command α P)) :
    s.convert bounds (Command.matched 0 commands) = s.convert bounds commands := by
  have same := Machine.run_matched s commands (Machine.start s.options bounds)
  rw [Machine.start_depth] at same
  unfold convert
  rw [same]

/-- The completion has the same tree. -/
theorem convert_completion (commands : List (Command α P)) :
    s.convert bounds (Command.completion commands) = s.convert bounds commands := by
  rw [Command.completion, convert_append_restores, convert_matched]

/-- A restore where no frame is open changes nothing. -/
theorem convert_insert_restore {before : List (Command α P)}
    (outermost : Command.openFrames 0 before = 0) (after : List (Command α P)) :
    s.convert bounds (before ++ .restore :: after) = s.convert bounds (before ++ after) := by
  have depth : ((Machine.start s.options bounds).run s before).depth = 0 := by
    rw [Machine.run_depth, Machine.start_depth]
    exact outermost
  unfold convert
  rw [Machine.run_append, Machine.run_append, Machine.run,
    Machine.step_restore_of_depth s depth]

end Scene

variable [Scalar α]

/-- A picture has the same tree with other commands, as a whole and nested in a shader at any
level. -/
def Setting.SameTree (s : Setting α) (p : Picture α) (commands : List (Command α (Picture α))) :
    Prop :=
  s.convert { p with commands := commands } = s.convert p ∧
    ∀ levels, s.visual levels { p with commands := commands } = s.visual levels p

theorem Setting.sameTree_of_scenes {s : Setting α} {p : Picture α}
    {commands : List (Command α (Picture α))}
    (same : ∀ scene : Scene α (Picture α),
      scene.convert p.cullRect commands = scene.convert p.cullRect p.commands) :
    s.SameTree p commands := by
  refine ⟨same _, fun levels => ?_⟩
  cases levels with
  | zero => rfl
  | succ levels => exact congrArg some (same _)

/-- **Saves and restores that do not match are repaired.** A picture has the same tree as the
completion of its commands, in which they match. So restores behind its last command change
nothing, and neither does a restore anywhere where no frame is open, whatever transforms, clips
and masks the commands before it have put on the outermost one. -/
theorem Setting.convert_repaired (s : Setting α) (p : Picture α) :
    Command.Balanced (Command.completion p.commands) ∧
      s.SameTree p (Command.completion p.commands) ∧
      (∀ n, s.SameTree p (p.commands ++ List.replicate n .restore)) ∧
      ∀ before after, p.commands = before ++ after → Command.openFrames 0 before = 0 →
        s.SameTree p (before ++ .restore :: after) := by
  refine ⟨Command.balanced_completion p.commands, ?_, ?_, ?_⟩
  · exact sameTree_of_scenes fun scene => scene.convert_completion p.cullRect p.commands
  · intro n
    exact sameTree_of_scenes fun scene => scene.convert_append_restores p.cullRect p.commands n
  · intro before after split outermost
    refine sameTree_of_scenes fun scene => ?_
    rw [split]
    exact scene.convert_insert_restore p.cullRect outermost after

/-- Exact arithmetic with all options off, without outlines, for unit squares only. -/
def Setting.squares : Setting ℚ where
  options := {}
  glyphs := .none
  bounds _ := ⟨0, 0, 1, 1⟩

/-- A matrix, a clip and a mask in the outermost frame. -/
def Picture.tangledStart : List (Command ℚ (Picture ℚ)) :=
  [.setMatrix ⟨2, 0, 0, 2, 0, 0⟩, .clipRect ⟨0, 0, 4, 4⟩ .intersect true,
    .saveLayer (some { Paint.layer .maskSentinel with colorFilter := some .luminanceToAlpha }),
    .restore]

/-- A fading layer and a save that are never left. -/
def Picture.tangledEnd : List (Command ℚ (Picture ℚ)) :=
  [.saveLayer (some (.layer ⟨128, 0, 0, 0⟩)), .save,
    .drawPath (.ofRect ⟨0, 0, 1, 1⟩) (.fill ⟨255, 255, 0, 0⟩)]

/-- The two halves one after the other. -/
def Picture.tangled : Picture ℚ := ⟨⟨0, 0, 8, 8⟩, tangledStart ++ tangledEnd⟩

/-- A restore between the two halves finds no frame, and two restores complete the second. -/
theorem Setting.convert_repaired_tangled :
    Command.openFrames 0 Picture.tangledStart = 0 ∧
      squares.SameTree .tangled (Picture.tangledStart ++ .restore :: Picture.tangledEnd) ∧
      squares.SameTree .tangled
        (Picture.tangledStart ++ Picture.tangledEnd ++ [.restore, .restore]) := by
  have outermost : Command.openFrames 0 Picture.tangledStart = 0 := rfl
  obtain ⟨-, completed, -, inserted⟩ := convert_repaired squares .tangled
  exact ⟨outermost, inserted _ _ rfl outermost, completed⟩

end PictureMarkup
