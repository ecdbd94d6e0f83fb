import PictureMarkup.Proofs.Actions

/-!
# Reachable states grow

Restoring undoes what was done since the matching save, up to a content of the group
around the frame. So every state can also be reached without a single restore: by opening
frames and groups and adding content. `Grown base m` says this of `m`, seen from a state
`base` below which nothing is left, and it is what inductions over reachable states run
on:

* following an action keeps it, as long as no frame of `base` is left (`Grown.act`,
  `Grown.perform`);
* every state of a conversion has grown from the machine that holds nothing
  (`grown_of_start`).
-/

namespace PictureMarkup

namespace Machine

variable {α P : Type}

/-- A state reached from a base by opening and adding only. -/
inductive Grown (base : Machine α) : Machine α → Prop
  | base : Grown base base
  | fill {m} (c : Content α) : Grown base m → Grown base (m.fill c)
  | transform {m} (t : Affine α) : Grown base m → Grown base (m.openTransform t)
  | clip {m} (c : Clip α) : Grown base m → Grown base (m.openClip c)
  | frame {m} : Grown base m → Grown base (m.pushFrame none)
  | layer {m} (kind : LayerKind) : Grown base m → Grown base (m.saveLayer kind)

theorem lockstep_nothing : ({} : Machine α).Lockstep := ⟨rfl, rfl⟩

theorem Lockstep.fill {m : Machine α} (h : m.Lockstep) (c : Content α) :
    (m.fill c).Lockstep where
  transforms := by
    unfold depth
    rw [fill_transforms, fill_layers]
    exact h.transforms
  clips := by
    unfold depth
    rw [fill_clips, fill_layers]
    exact h.clips

namespace Grown

variable {base m : Machine α}

/-- A grown state has as many frames of each kind as its base. -/
theorem lockstep (start : base.Lockstep) (h : Grown base m) : m.Lockstep := by
  induction h with
  | base => exact start
  | fill c _ ih => exact ih.fill c
  | transform t _ ih => exact ⟨ih.transforms, ih.clips⟩
  | clip c _ ih => exact ⟨ih.transforms, ih.clips⟩
  | frame _ ih => exact ⟨congrArg (· + 1) ih.transforms, congrArg (· + 1) ih.clips⟩
  | layer kind _ ih => exact ⟨congrArg (· + 1) ih.transforms, congrArg (· + 1) ih.clips⟩

theorem depth_le (h : Grown base m) : base.depth ≤ m.depth := by
  induction h with
  | base => exact Nat.le_refl _
  | fill c _ ih =>
      unfold depth
      rw [fill_layers]
      exact ih
  | transform t _ ih => exact ih
  | clip c _ ih => exact ih
  | frame _ ih => exact Nat.le_succ_of_le ih
  | layer kind _ ih => exact Nat.le_succ_of_le ih

end Grown

@[simp] theorem fill_depth (m : Machine α) (c : Content α) : (m.fill c).depth = m.depth :=
  congrArg List.length (fill_layers m c)

theorem grown_start (options : Options) (bounds : Rect α) : Grown {} (start options bounds) := by
  rw [start_eq_fill]
  exact .fill _ .base

variable [Scalar α]

theorem enter_depth (options : Options) (m : Machine α) (layer : Option LayerKind) :
    (m.act options (.enter layer)).depth = m.depth + 1 := by
  cases layer <;> rfl

theorem enter_transforms (options : Options) (m : Machine α) (layer : Option LayerKind) :
    (m.act options (.enter layer)).transforms = m.transforms.pushFrame := by
  cases layer <;> rfl

@[simp] theorem restore_depth (options : Options) (m : Machine α) :
    (m.restore options).depth = m.depth - 1 := by
  unfold depth
  rw [restore_layers, List.length_tail]

/-- Leaving a frame takes its transforms out of effect and touches no others. -/
theorem restore_transforms {m : Machine α} (lockstep : m.Lockstep) (options : Options) :
    (m.restore options).transforms = m.transforms.popFrame := by
  cases layers : m.layers with
  | nil =>
      have depth := lockstep.transforms
      rw [Machine.depth, layers] at depth
      have outer : m.transforms.outer = [] := List.eq_nil_of_length_eq_zero depth
      rw [restore_of_root options m layers, FrameStack.popFrame, outer]
  | cons layer rest =>
      cases layer with
      | none =>
          simp only [restore, layers]
          rfl
      | some kind =>
          simp only [restore, layers, composite]
          unfold modifyTop
          split <;> rfl

namespace Grown

variable {base m : Machine α}

/-- A restore of a grown state, with some more content in its innermost group. The content
collects what the groups and frames on the way turn into. -/
theorem restore_fill (options : Options) (start : base.Lockstep) (h : Grown base m) :
    ∀ c : Content α, base.depth ≤ ((m.fill c).restore options).depth →
      Grown base ((m.fill c).restore options) := by
  -- in the outermost frame a restore does nothing, whatever the case
  have outermost : ∀ {n : Machine α} (c : Content α), Grown base n → n.layers = [] →
      Grown base ((n.fill c).restore options) := by
    intro n c grown root
    rw [restore_of_root options _ ((fill_layers n c).trans root)]
    exact grown.fill c
  induction h with
  | base =>
      intro c inside
      by_cases root : base.layers = []
      · exact outermost c .base root
      · have positive : 0 < base.depth := List.length_pos_iff.mpr root
        rw [restore_depth, fill_depth] at inside
        omega
  | fill d _ ih =>
      intro c inside
      rw [fill_fill] at inside ⊢
      exact ih _ inside
  | @transform n t h ih =>
      intro c inside
      by_cases root : n.layers = []
      · exact outermost c (.transform t h) root
      · rw [(opens_openTransform (h.lockstep start) t c).restore options root] at inside ⊢
        exact ih _ inside
  | @clip n e h ih =>
      intro c inside
      by_cases root : n.layers = []
      · exact outermost c (.clip e h) root
      · rw [(opens_openClip (h.lockstep start) e c).restore options root] at inside ⊢
        exact ih _ inside
  | frame h _ =>
      intro c _
      rw [restore_pushFrame]
      exact h.fill c
  | layer kind h _ =>
      intro c _
      rw [restore_saveLayer]
      exact h.fill _

/-- Following an action keeps a state grown, unless it leaves a frame of the base. -/
theorem act (options : Options) (start : base.Lockstep) (h : Grown base m) (a : Action α)
    (inside : base.depth ≤ (m.act options a).depth) : Grown base (m.act options a) := by
  cases a with
  | clip c => exact h.clip c
  | matrix matrix =>
      show Grown base (m.setMatrix matrix)
      cases opening : matrix.opening m.transforms.entries with
      | none => rwa [setMatrix_of_no_opening opening]
      | some t =>
          rw [setMatrix_of_opening opening]
          exact h.transform t
  | add l => exact h.fill _
  | enter layer =>
      cases layer with
      | none => exact h.frame
      | some kind => exact h.layer kind
  | leave =>
      have restored := h.restore_fill options start .empty
      rw [fill_empty] at restored
      exact restored inside
  | nothing => exact h

/-- Following actions keeps a state grown, unless they leave a frame of the base on the
way. -/
theorem perform (options : Options) (start : base.Lockstep) (as : List (Action α))
    (h : Grown base m)
    (inside : ∀ part, part <+: as → base.depth ≤ (m.perform options part).depth) :
    Grown base (m.perform options as) := by
  induction as generalizing m with
  | nil => exact h
  | cons a as ih =>
      have first := inside [a] (List.prefix_append [a] as)
      refine ih (h.act options start a first) fun part initial => ?_
      exact inside (a :: part) (List.cons_prefix_cons.mpr ⟨rfl, initial⟩)

end Grown

/-- Every state of a conversion has grown from nothing. -/
theorem grown_of_start (options : Options) (bounds : Rect α) (as : List (Action α)) :
    Grown {} ((start options bounds).perform options as) :=
  (grown_start options bounds).perform options lockstep_nothing as fun _ _ => Nat.zero_le _

end Machine

end PictureMarkup
