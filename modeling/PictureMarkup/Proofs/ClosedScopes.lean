import PictureMarkup.Proofs.Completion

/-!
# Closed scopes are local

A scope that is opened and closed again (`ClosedScope`) is a frame, balanced commands inside
it, and the restore that leaves it. Whatever these commands open, everything is closed when the
scope is, so that only the group around the scope has changed, by a content that was put into
it (`Machine.run_closedScope`). The content is the translation of the commands inside, seen
from outside of the frame: it is known once the transforms are known that are open in front of
the scope, and does not depend on what the group holds (`ClosedScope.content`).

The induction is over balanced actions, for any machine with a frame to leave: leaving the frame
behind them is leaving it with their translation in its innermost group
(`Machine.restore_perform`). A scope among them is one more content of that group, and a group
that they open ends as one of its children.
-/

namespace PictureMarkup

variable {α P : Type}

namespace Machine

/-- A state differs from another one in its innermost group only, and there only by children at
the end and perhaps another mask. -/
structure Gains (m : Machine α) (c : Content α) (after : Machine α) : Prop where
  transforms : after.transforms = m.transforms
  clips : after.clips = m.clips
  layers : after.layers = m.layers
  height : after.opened.length = m.opened.length
  /-- The open groups around the innermost one. -/
  around : after.opened.tail = m.opened.tail
  /-- The root, unless it is the innermost group itself. -/
  root : m.opened ≠ [] → after.root = m.root
  top : after.top =
    { m.top with children := m.top.children ++ c.children, mask := c.mask.or m.top.mask }

theorem gains_fill (m : Machine α) (c : Content α) : m.Gains c (m.fill c) := by
  obtain ⟨transforms, clips, layers, opened, root⟩ := m
  cases opened with
  | nil => exact ⟨rfl, rfl, rfl, rfl, rfl, fun inside => absurd rfl inside, rfl⟩
  | cons g rest => exact ⟨rfl, rfl, rfl, rfl, rfl, fun _ => rfl, rfl⟩

end Machine

/-- The kind of the layer that a command opens; nothing for a save. -/
def Command.layer? : Command α P → Option LayerKind
  | .saveLayer paint => some (.classify paint)
  | _ => none

variable [Scalar α]

namespace Command

theorem action_of_opensFrame (s : Scene α P) {c : Command α P} (opens : c.opensFrame) :
    s.action c = .enter c.layer? := by
  cases c with
  | save => rfl
  | saveLayer paint => rfl
  -- the other commands open no frame
  | _ => exact absurd opens Bool.false_ne_true

/-- What balanced commands ask of the machine is balanced. -/
theorem Balanced.actions (s : Scene α P) {cs : List (Command α P)} (h : Balanced cs) :
    Action.Balanced (cs.map s.action) := by
  induction h with
  | nil => exact .nil
  | @plain c cs opens leaves _ ih =>
      rw [List.map_cons]
      rcases s.action_cases c with
        ⟨m, rfl⟩ | ⟨paint, rfl⟩ | rfl | rfl | ⟨e, asked⟩ | ⟨l, asked⟩ | asked
      · exact .matrix m ih
      · exact absurd opens (by simp [opensFrame])
      · exact absurd opens (by simp [opensFrame])
      · exact absurd leaves (by simp [leavesFrame])
      · rw [asked]
        exact .clip e ih
      · rw [asked]
        exact .add l ih
      · rw [asked]
        exact .nothing ih
  | frame opens _ _ ihBody ihRest =>
      rw [List.map_cons, List.map_append, List.map_cons, action_of_opensFrame s opens]
      exact .scope _ ihBody ihRest

end Command

namespace Machine

theorem perform_append (options : Options) (m : Machine α) (as bs : List (Action α)) :
    m.perform options (as ++ bs) = (m.perform options as).perform options bs :=
  List.foldl_append

theorem Lockstep.enter {m : Machine α} (h : m.Lockstep) (options : Options)
    (layer : Option LayerKind) : (m.act options (.enter layer)).Lockstep := by
  cases layer with
  | none => exact (Grown.frame (.base : Grown m m)).lockstep h
  | some kind => exact (Grown.layer kind (.base : Grown m m)).lockstep h

/-- Leaving a frame behind balanced actions is leaving it with their translation in the group
that was innermost in front of them. -/
theorem restore_perform (options : Options) {as : List (Action α)} (balanced : Action.Balanced as) :
    ∀ {m : Machine α}, m.Lockstep → m.layers ≠ [] →
      (m.perform options as).restore options =
        (m.fill ((Action.nest as).1.translate options m.transforms.entries)).restore options := by
  induction balanced with
  | nil =>
      intro m _ _
      rw [Action.nest, Block.translate, fill_empty, perform_nil]
  | @add l as _ ih =>
      intro m lockstep inside
      have filled := ih (lockstep.fill (.one (.leaf l))) (by rwa [fill_layers])
      rw [fill_transforms, fill_fill] at filled
      exact filled
  | @clip e as _ ih =>
      intro m lockstep inside
      -- the group of the clip is closed with the frame and becomes a child
      have opens := opens_openClip lockstep e
        ((Action.nest as).1.translate options m.transforms.entries)
      have opened : (m.openClip e).Lockstep := ⟨lockstep.transforms, lockstep.clips⟩
      rw [Group.fill_clip] at opens
      exact (ih opened inside).trans (opens.restore options inside)
  | @matrix matrix as _ ih =>
      intro m lockstep inside
      show ((m.setMatrix matrix).perform options as).restore options = _
      cases opening : matrix.opening m.transforms.entries with
      | none =>
          rw [setMatrix_of_no_opening opening, ih lockstep inside]
          congr 2
          exact (Block.translate_matrix_of_no_opening options opening _).symm
      | some t =>
          have opens := opens_openTransform lockstep t
            ((Action.nest as).1.translate options (m.openTransform t).transforms.entries)
          have opened : (m.openTransform t).Lockstep := ⟨lockstep.transforms, lockstep.clips⟩
          have entries : (m.openTransform t).transforms.entries = m.transforms.entries ++ [t] :=
            FrameStack.entries_push _ _
          have wrapped := Block.translate_matrix_of_opening options opening (Action.nest as).1
          rw [Group.fill_transform, entries] at opens
          rw [setMatrix_of_opening opening, ih opened inside, entries, opens.restore options inside,
            Action.nest, wrapped]
  | nothing _ ih => exact ih
  | @scope layer body rest inner _ ihBody ihRest =>
      intro m lockstep inside
      have closed := ihBody (lockstep.enter options layer) (enter_layers_ne_nil options layer m)
      rw [enter_entries, restore_enter] at closed
      -- what is left of the commands starts with the closed scope in its group
      have later := ihRest (lockstep.fill
        (((Action.nest body).1.translate options m.transforms.entries).outside options layer))
        (by rwa [fill_layers])
      rw [fill_transforms, fill_fill] at later
      rw [perform_cons, perform_append, perform_cons, act, closed, later, inner.nest_scope,
        Block.translate]

end Machine

/-! ## Scopes -/

/-- A frame with balanced commands inside that is left behind them. -/
structure ClosedScope (α P : Type) where
  opener : Command α P
  body : List (Command α P)
  opens : opener.opensFrame
  balanced : Command.Balanced body

namespace ClosedScope

/-- All commands of a scope, from the one that opens it to the restore. -/
def commands (scope : ClosedScope α P) : List (Command α P) :=
  scope.opener :: (scope.body ++ [.restore])

/-- What a scope puts into the group around it, where some transforms are open, outermost
first. -/
def content (s : Scene α P) (scope : ClosedScope α P) (ts : List (Affine α)) : Content α :=
  ((Action.nest (scope.body.map s.action)).1.translate s.options ts).outside s.options
    scope.opener.layer?

end ClosedScope

namespace Machine

/-- A scope that is closed has put its content into the innermost group. -/
theorem run_closedScope {m : Machine α} (lockstep : m.Lockstep) (s : Scene α P)
    (scope : ClosedScope α P) :
    m.run s scope.commands = m.fill (scope.content s m.transforms.entries) := by
  have entered := lockstep.enter s.options scope.opener.layer?
  have inside := enter_layers_ne_nil s.options scope.opener.layer? m
  have closed := restore_perform s.options (scope.balanced.actions s) entered inside
  rw [enter_entries, restore_enter] at closed
  rw [run_eq_perform, ClosedScope.commands, List.map_cons, List.map_append,
    Command.action_of_opensFrame s scope.opens, perform_cons, perform_append]
  exact closed

/-- **A closed scope is local.** In any state of a conversion, a save or a layer of any paint with
balanced commands inside leaves all stacks and all open groups as they were, but for the innermost
group. That group gains the content of the scope: children at its end, and a mask if the content
has one. The content is the same in any other state with the same transforms open, and for any
other scope with the same kind of frame and the same commands inside. Two scopes one after the
other gain the children of the first and then those of the second, and the mask of the second or
else that of the first, each as it would be alone. -/
theorem closed_scopes_are_local (s : Scene α P) (bounds : Rect α) (before : List (Command α P))
    (first second : ClosedScope α P) :
    let m := (start s.options bounds).run s before
    let one := first.content s m.transforms.entries
    let two := second.content s m.transforms.entries
    m.Gains one (m.run s first.commands) ∧
      m.Gains two (m.run s second.commands) ∧
      m.Gains ⟨one.children ++ two.children, two.mask.or one.mask⟩
        (m.run s (first.commands ++ second.commands)) ∧
      ∀ bounds' before' (other : ClosedScope α P),
        let m' := (start s.options bounds').run s before'
        m'.transforms.entries = m.transforms.entries →
        other.opener.layer? = first.opener.layer? → other.body = first.body →
          m'.Gains one (m'.run s other.commands) := by
  have reached : ∀ bounds before, ((start s.options bounds).run s before).Lockstep := by
    intro bounds before
    rw [run_eq_perform]
    exact (grown_of_start s.options bounds _).lockstep lockstep_nothing
  have gains : ∀ bounds before (scope : ClosedScope α P),
      let m := (start s.options bounds).run s before
      m.Gains (scope.content s m.transforms.entries) (m.run s scope.commands) := by
    intro bounds before scope m
    rw [run_closedScope (reached bounds before)]
    exact gains_fill m _
  intro m one two
  refine ⟨gains bounds before first, gains bounds before second, ?_, ?_⟩
  · have lockstep : m.Lockstep := reached bounds before
    -- the second scope finds the transforms that the first one found
    rw [run_append, run_closedScope lockstep, run_closedScope (lockstep.fill one),
      fill_transforms, fill_fill]
    exact gains_fill m (one ++ two)
  · intro bounds' before' other m' transforms kind body
    -- a content is known from the transforms, the kind of the frame and the commands inside
    have same : other.content s m'.transforms.entries = one := by
      rw [transforms, ClosedScope.content, kind, body]
      rfl
    rw [← same]
    exact gains bounds' before' other

end Machine

namespace ClosedScope

/-- A mask with a matrix and, under it, a frame of its own with a clip and a draw. -/
def masking : ClosedScope ℚ (Picture ℚ) where
  opener := .saveLayer
    (some { Paint.layer .maskSentinel with colorFilter := some .luminanceToAlpha })
  body :=
    [.setMatrix ⟨3, 0, 0, 3, 0, 0⟩, .save, .clipRect ⟨0, 0, 4, 4⟩ .intersect true,
      .drawPath (.ofRect ⟨0, 0, 1, 1⟩) (.fill ⟨255, 0, 0, 0⟩), .restore]
  opens := rfl
  balanced := Command.balanced_completion [.setMatrix _, .save, .clipRect _ _ _, .drawPath _ _,
    .restore]

/-- The same mask, told by another filter. -/
def blending : ClosedScope ℚ (Picture ℚ) where
  opener := .saveLayer
    (some { Paint.layer .maskSentinel with colorFilter := some (.blend .transparent) })
  body := masking.body
  opens := rfl
  balanced := masking.balanced

/-- A fading layer around one draw. -/
def fading : ClosedScope ℚ (Picture ℚ) where
  opener := .saveLayer (some (.layer ⟨128, 0, 0, 0⟩))
  body := [.drawPath (.ofRect ⟨0, 0, 1, 1⟩) (.fill ⟨255, 255, 0, 0⟩)]
  opens := rfl
  balanced := .plain rfl rfl .nil

end ClosedScope

/-- Inside a transform that is open, the mask gives the group of the transform a mask and no
child, and the fading layer behind it a child. The mask is the same where the transform was
opened inside a save, and for the other filter. -/
theorem Machine.closed_scopes_are_local_masking :
    let s := Setting.squares.scene fun _ => none
    let m := (start {} ⟨0, 0, 8, 8⟩).run s [.setMatrix ⟨2, 0, 0, 2, 0, 0⟩]
    let m' := (start {} ⟨0, 0, 4, 4⟩).run s [.save, .setMatrix ⟨2, 0, 0, 2, 0, 0⟩]
    let mask := ClosedScope.masking.content s m.transforms.entries
    let faded := ClosedScope.fading.content s m.transforms.entries
    m.opened ≠ [] ∧ mask.children = [] ∧ mask.mask.isSome ∧ faded.children.length = 1 ∧
      m.Gains ⟨mask.children ++ faded.children, faded.mask.or mask.mask⟩
        (m.run s (ClosedScope.masking.commands ++ ClosedScope.fading.commands)) ∧
      m'.Gains mask (m'.run s ClosedScope.blending.commands) := by
  intro s m m' mask faded
  obtain ⟨-, -, both, again⟩ := closed_scopes_are_local s ⟨0, 0, 8, 8⟩
    [.setMatrix ⟨2, 0, 0, 2, 0, 0⟩] ClosedScope.masking ClosedScope.fading
  have opened : m.opened.length = 1 := by decide +kernel
  have inside : m'.transforms.entries = m.transforms.entries := by decide +kernel
  refine ⟨?_, rfl, rfl, ?_, both, again ⟨0, 0, 4, 4⟩ _ ClosedScope.blending inside rfl rfl⟩
  · intro none
    rw [none] at opened
    exact absurd opened (by simp)
  · decide +kernel

end PictureMarkup
