import PictureMarkup.Proofs.Outcome
import PictureMarkup.Proofs.Routing

/-!
# What arrives where

The machine does not know the target of a mask. A finished mask is set on the group that
happens to be innermost, which may be a buffer that only passes its content on; the mask
waits there, may be replaced, and moves on with the other content, replacing whatever mask
the next group has. Here the tree is compared with the ledger, which sends each mask
straight to its target.

The comparison goes by outcomes: what arrives in the frames of the machine arrives, in the
ledger, at the targets of its frames, and the tree is what the root holds once everything
is gathered (`Follows`, `Scene.convert_eq_gather`). A buffer that passes its content on has
the target of the frame around it, so that its arrivals are joined there in the same order.
-/

namespace PictureMarkup

variable {α P : Type}

/-! ## Frames -/

namespace FrameStack

variable {τ σ : Type}

/-- The entries that something can be made of, frame by frame. -/
def filterMap (f : τ → Option σ) (s : FrameStack τ) : FrameStack σ :=
  ⟨s.current.filterMap f, s.outer.map (List.filterMap f)⟩

theorem entries_filterMap (f : τ → Option σ) (s : FrameStack τ) :
    (s.filterMap f).entries = s.entries.filterMap f := by
  unfold entries filterMap
  rw [List.filterMap_reverse, List.filterMap_append, List.filterMap_flatten]

theorem popFrame_filterMap (f : τ → Option σ) (s : FrameStack τ) :
    (s.filterMap f).popFrame = s.popFrame.filterMap f := by
  obtain ⟨current, outer⟩ := s
  cases outer <;> rfl

end FrameStack

/-- The target of each frame, the innermost first. -/
def Holder.targets : List (List (Holder α)) → List Nat
  | [] => []
  | frame :: outer => target (frame ++ outer.flatten) :: targets outer

/-- Targets are numbers of commands that came before. -/
theorem Holder.targets_lt {bound : Nat} (positive : 0 < bound) (frames : List (List (Holder α)))
    (below : ∀ h ∈ frames.flatten, h.number < bound) : ∀ n ∈ targets frames, n < bound := by
  induction frames with
  | nil => exact fun n member => absurd member List.not_mem_nil
  | cons frame outer ih =>
      intro n member
      rw [List.flatten_cons] at below
      rcases List.mem_cons.mp member with rfl | member
      · exact target_lt positive below
      · exact ih (fun h inside => below h (List.mem_append_right frame inside)) n member

namespace Ledger

/-- The target of each open frame, the innermost first. -/
def targets (l : Ledger α) : List Nat :=
  Holder.targets (l.holders.current :: l.holders.outer)

/-- The targets of the frames around the current one. -/
def outerTargets (l : Ledger α) : List Nat := Holder.targets l.holders.outer

theorem targets_eq (l : Ledger α) : l.targets = Holder.target l.held :: l.outerTargets := rfl

theorem leave_of_outer {l : Ledger α} {frame : List (Holder α)} {outer : List (List (Holder α))}
    (h : l.holders.outer = frame :: outer) :
    l.leave.holders = ⟨frame, outer⟩ ∧ l.leave.targets = l.outerTargets := by
  obtain ⟨⟨current, frames⟩, log⟩ := l
  cases h
  exact ⟨rfl, rfl⟩

end Ledger

/-- What is held where one content arrives at each of some targets. -/
def Content.arriving : List Nat → List (Content α) → Nat → Content α
  | n :: ns, c :: cs => put n c (arriving ns cs)
  | _, _ => fun _ => .empty

namespace Content

theorem arriving_cons (n : Nat) (ns : List Nat) (c : Content α) (cs : List (Content α)) :
    arriving (n :: ns) (c :: cs) = put n c (arriving ns cs) := rfl

theorem arriving_of_not_mem {k : Nat} {ns : List Nat} (h : k ∉ ns) (cs : List (Content α)) :
    arriving ns cs k = .empty := by
  induction ns generalizing cs with
  | nil => rfl
  | cons n ns ih =>
      rw [List.mem_cons, not_or] at h
      cases cs with
      | nil => rfl
      | cons c cs => rw [arriving_cons, put_of_ne h.1, ih h.2]

theorem arriving_nothing (ns : List Nat) (n : Nat) :
    arriving ns (List.replicate n (.empty : Content α)) = fun _ => .empty := by
  induction n generalizing ns with
  | zero => cases ns <;> rfl
  | succ n ih =>
      cases ns with
      | nil => rfl
      | cons k ns => rw [List.replicate_succ, arriving_cons, put_empty, ih]

end Content

/-- What the content of a group or a buffer comes to in the group around it. -/
def Role.outside (c : Content α) : Role α → Content α
  | .wrapped shell => Parcel.content c (.group shell)
  | .masking => Parcel.content c .mask
  | .passing => c
  | .dropped => .empty

namespace Tidy

variable {number : Nat} {l : Ledger α} {opened : List (Delivery α)}

/-- What only the next number holds makes no difference to the root. -/
theorem gather_put (h : Tidy number l opened) (c : Content α) (contents : Nat → Content α) :
    gather opened (.put number c contents) 0 = gather opened contents 0 := by
  refine gather_congr (fun d member => Nat.ne_of_lt (h.past d member)) ?_ 0
    (Nat.ne_of_lt h.positive)
  intro n other
  exact Content.put_of_ne other c contents

/-- What arrives at the next number arrives, as what its parcel makes of it, at the target
of the next number. -/
theorem gather_deliveries (h : Tidy number l opened) {role : Role α} {parcel : Parcel α}
    (delivers : role.parcel? = some parcel) (c : Content α) {contents : Nat → Content α}
    (fresh : contents number = .empty) :
    gather (opened ++ Holder.deliveries ⟨number, role⟩ l.held) (.put number c contents) 0 =
      gather opened (.put (Holder.target l.held) (parcel.content c) contents) 0 := by
  have single : Holder.deliveries ⟨number, role⟩ l.held =
      [⟨number, Holder.target l.held, parcel⟩] := by
    unfold Holder.deliveries
    rw [delivers]
    rfl
  have held : Content.put number c contents number = c := by
    rw [Content.put_self, fresh, Content.append_empty]
  rw [single, gather_append, gather_cons, gather_nil]
  unfold Delivery.content
  rw [held]
  refine gather_congr (fun d member => Nat.ne_of_lt (h.past d member)) ?_ 0
    (Nat.ne_of_lt h.positive)
  intro n other
  unfold Content.put
  rw [if_neg other]

/-- Nothing has arrived at the next number yet. -/
theorem arriving_fresh (h : Tidy number l opened) (cs : List (Content α)) :
    Content.arriving l.targets cs number = .empty ∧
      Content.arriving l.outerTargets cs number = .empty := by
  have bound : ∀ n ∈ l.targets, n < number := Holder.targets_lt h.positive _ h.below
  constructor
  · exact Content.arriving_of_not_mem (fun member => Nat.lt_irrefl _ (bound _ member)) cs
  · refine Content.arriving_of_not_mem (fun member => Nat.lt_irrefl number (bound _ ?_)) cs
    exact List.mem_cons_of_mem _ member

/-- What arrives in the buffer of a new frame arrives, as its role says, at the target around
it. -/
theorem gather_buffer (h : Tidy number l opened) (role : Role α) (c next : Content α)
    (around : List (Content α)) :
    gather (opened ++ Holder.deliveries ⟨number, role⟩ l.held)
        (.arriving (l.pushFrame.hold ⟨number, role⟩).targets (c :: next :: around)) 0 =
      gather opened (.arriving l.targets ((role.outside c ++ next) :: around)) 0 := by
  have fresh := (h.arriving_fresh (next :: around)).1
  have outer : l.targets = Holder.target l.held :: l.outerTargets := l.targets_eq
  rw [outer, Content.arriving_cons] at fresh
  rw [outer, Content.arriving_cons, ← Content.put_put]
  have held : role ≠ .passing → (l.pushFrame.hold ⟨number, role⟩).targets =
      number :: Holder.target l.held :: l.outerTargets := by
    intro holds
    show Holder.target (⟨number, role⟩ :: ([] ++ (_ :: _).flatten)) :: _ = _
    rw [Holder.target_cons holds]
    rfl
  cases role with
  | passing =>
      show gather (opened ++ []) (.arriving
        (Holder.target l.held :: Holder.target l.held :: l.outerTargets)
        (c :: next :: around)) 0 = _
      rw [List.append_nil, Content.arriving_cons, Content.arriving_cons]
      rfl
  | dropped =>
      -- what arrives in the buffer stays there
      rw [held (by simp), Content.arriving_cons, Content.arriving_cons]
      show gather (opened ++ []) _ 0 = gather opened (.put _ .empty _) 0
      rw [List.append_nil, h.gather_put, Content.put_empty]
  | wrapped shell =>
      rw [held (by simp), Content.arriving_cons, Content.arriving_cons]
      exact h.gather_deliveries rfl c fresh
  | masking =>
      rw [held (by simp), Content.arriving_cons, Content.arriving_cons]
      exact h.gather_deliveries rfl c fresh

end Tidy

/-! ## The order of opening, action by action -/

variable [Scalar α]

namespace Ledger

/-- What an action will have delivered once everything is closed. -/
def opening (options : Options) (number : Nat) (l : Ledger α) : Action α → List (Delivery α)
  | .clip c => Holder.deliveries ⟨number, .wrapped { clip := some c.path }⟩ l.held
  | .matrix matrix =>
    match matrix.opening l.transforms with
    | none => []
    | some t => Holder.deliveries ⟨number, .wrapped { transform := some t }⟩ l.held
  | .add leaf => [⟨number, Holder.target l.held, .leaf leaf⟩]
  | .enter (some kind) => Holder.deliveries ⟨number, kind.role options⟩ l.held
  | .enter none | .leave | .nothing => []

/-- What some actions deliver by opening groups, in order. -/
def openings (options : Options) : Nat → Ledger α → List (Action α) → List (Delivery α)
  | _, _, [] => []
  | number, l, a :: as =>
    l.opening options number a ++ openings options (number + 1) (l.act options number a) as

end Ledger

theorem Content.asLayer_eq_outside (options : Options) (kind : LayerKind) (c : Content α) :
    c.asLayer options kind = (kind.role options).outside c := by
  cases kind with
  | maskGroup | maskBrush | opacity =>
      rw [asLayer, LayerKind.role]
      split <;> rfl
  | filter => rfl
  | unknown => rfl

/-- The buffer of a layer has no transform of its own. -/
theorem Holder.transform?_layer (options : Options) (number : Nat) (kind : LayerKind) :
    transform? (⟨number, kind.role options⟩ : Holder α) = none := by
  cases kind with
  | maskGroup | maskBrush =>
      rw [LayerKind.role]
      by_cases ignored : options.ignoreMask = true
      · rw [if_pos ignored]
        rfl
      · rw [if_neg ignored]
        rfl
  | opacity alpha =>
      rw [LayerKind.role]
      by_cases ignored : options.ignoreOpacity = true
      · rw [if_pos ignored]
        rfl
      · rw [if_neg ignored]
        rfl
  | filter => rfl
  | unknown => rfl

theorem LayerKind.role_eq_masking (options : Options) (kind : LayerKind) :
    (kind.role options : Role α).parcel? = some .mask ↔
      kind = .maskBrush ∧ options.ignoreMask = false := by
  cases kind <;> cases mask : options.ignoreMask <;> cases opacity : options.ignoreOpacity <;>
    simp [role, Role.parcel?, mask, opacity]

/-- An action delivers a mask just if it opens the layer of a mask that is not ignored. -/
theorem Ledger.opening_mask (options : Options) (number : Nat) (l : Ledger α) (a : Action α) :
    (∃ d ∈ l.opening options number a, d.parcel = .mask) ↔
      a = .enter (some .maskBrush) ∧ options.ignoreMask = false := by
  -- what an open group delivers is told by its role
  have holder : ∀ role : Role α, (∃ d ∈ Holder.deliveries ⟨number, role⟩ l.held,
      d.parcel = .mask) ↔ role.parcel? = some .mask := by
    intro role
    constructor
    · rintro ⟨d, member, mask⟩
      rw [← mask]
      exact (Holder.mem_deliveries member).2.2
    · intro mask
      refine ⟨⟨number, Holder.target l.held, .mask⟩, ?_, rfl⟩
      unfold Holder.deliveries
      rw [mask]
      exact List.mem_singleton.mpr rfl
  cases a with
  | clip c => simp [opening, holder, Role.parcel?]
  | matrix matrix =>
      simp only [opening]
      cases matrix.opening l.transforms with
      | none => simp
      | some t => simp [holder, Role.parcel?]
  | add leaf => simp [opening]
  | enter layer =>
      cases layer with
      | none => simp [opening]
      | some kind =>
          rw [opening, holder, LayerKind.role_eq_masking]
          simp
  | leave => simp [opening]
  | nothing => simp [opening]

theorem Ledger.opening_number {options : Options} {number : Nat} {l : Ledger α} {a : Action α} :
    ∀ d ∈ l.opening options number a, d.number = number := by
  intro d member
  cases a with
  | clip c => exact (Holder.mem_deliveries member).1
  | matrix matrix =>
      simp only [opening] at member
      cases opens : matrix.opening l.transforms with
      | none =>
          rw [opens] at member
          exact absurd member List.not_mem_nil
      | some t =>
          rw [opens] at member
          exact (Holder.mem_deliveries member).1
  | add leaf => rw [List.mem_singleton.mp member]
  | enter layer =>
      cases layer with
      | none => exact absurd member List.not_mem_nil
      | some kind => exact (Holder.mem_deliveries member).1
  | leave => exact absurd member List.not_mem_nil
  | nothing => exact absurd member List.not_mem_nil

/-- What later actions deliver has later numbers. -/
theorem Ledger.openings_number {options : Options} {as : List (Action α)} :
    ∀ {number : Nat} {l : Ledger α}, ∀ d ∈ openings options number l as, number ≤ d.number := by
  induction as with
  | nil => exact fun d member => absurd member List.not_mem_nil
  | cons a as ih =>
      intro number l d member
      rcases List.mem_append.mp member with first | later
      · exact Nat.le_of_eq (opening_number d first).symm
      · exact Nat.le_of_succ_le (ih d later)

/-- The masks that are delivered are those of the mask layers, under the numbers of the
commands that open them. -/
theorem Ledger.openings_mask (options : Options) (as : List (Action α)) :
    ∀ (number : Nat) (l : Ledger α) (i : Nat),
      (∃ d ∈ openings options number l as, d.number = number + i ∧ d.parcel = .mask) ↔
        as[i]? = some (.enter (some .maskBrush)) ∧ options.ignoreMask = false := by
  induction as with
  | nil =>
      intro number l i
      simp [openings]
  | cons a as ih =>
      intro number l i
      rw [openings]
      cases i with
      | zero =>
          rw [List.getElem?_cons_zero, Option.some_inj, ← opening_mask options number l a]
          constructor
          · rintro ⟨d, member, first, mask⟩
            rcases List.mem_append.mp member with own | later
            · exact ⟨d, own, mask⟩
            · -- what is delivered later has a later number
              have after := openings_number d later
              omega
          · rintro ⟨d, member, mask⟩
            exact ⟨d, List.mem_append_left _ member, opening_number d member, mask⟩
      | succ i =>
          rw [List.getElem?_cons_succ, ← ih (number + 1) (l.act options number a) i]
          constructor
          · rintro ⟨d, member, index, mask⟩
            rcases List.mem_append.mp member with own | later
            · have first := opening_number d own
              omega
            · exact ⟨d, later, by omega, mask⟩
          · rintro ⟨d, member, index, mask⟩
            exact ⟨d, List.mem_append_right _ member, by omega, mask⟩

/-! ## Machine and ledger -/

/-- A state of the machine beside the ledger of the same commands: the same frames and
transforms, and outcomes that are gathered from the deliveries, behind what the root holds
from the start. -/
structure Follows (options : Options) (first : Content α) (number : Nat) (m : Machine α)
    (l : Ledger α) (opened : List (Delivery α)) : Prop where
  grown : Machine.Grown {} m
  tidy : Tidy number l opened
  depth : l.holders.depth = m.depth
  transforms : m.transforms = l.holders.filterMap Holder.transform?
  outcome : ∀ c around, around.length = m.depth →
    m.outcome options c around =
      (first ++ gather opened (.arriving l.targets (c :: around)) 0).group

namespace Tidy

variable {number : Nat} {l : Ledger α} {opened : List (Delivery α)}

/-- The ledger stays tidy, one case for each kind of action. -/
theorem act (h : Tidy number l opened) (options : Options) (a : Action α) :
    Tidy (number + 1) (l.act options number a) (opened ++ l.opening options number a) := by
  cases a with
  | clip c => exact h.hold _
  | matrix matrix =>
      simp only [Ledger.act, Ledger.opening]
      cases matrix.opening l.transforms with
      | none => rw [List.append_nil]; exact h.wait
      | some t => exact h.hold _
  | add leaf => exact h.deliver leaf
  | enter layer =>
      cases layer with
      | none =>
          rw [Ledger.opening, List.append_nil]
          exact h.wait.pushFrame
      | some kind => exact h.pushFrame.hold _
  | leave =>
      rw [Ledger.opening, List.append_nil]
      exact h.wait.leave
  | nothing =>
      rw [Ledger.opening, List.append_nil]
      exact h.wait

end Tidy

namespace Follows

open Machine

variable {options : Options} {first : Content α} {number : Nat} {m : Machine α} {l : Ledger α}
  {opened : List (Delivery α)}

theorem entries (h : Follows options first number m l opened) :
    l.transforms = m.transforms.entries := by
  rw [h.transforms, FrameStack.entries_filterMap]
  rfl

/-- A group that is opened in the frame: what arrives in it arrives outside as a child. -/
theorem hold (h : Follows options first number m l opened) {m' : Machine α} {shell : Group α}
    (grown : Grown {} m') (depth : m'.depth = m.depth)
    (transforms : m'.transforms = (l.hold ⟨number, .wrapped shell⟩).holders.filterMap
      Holder.transform?)
    (child : ∀ c around, around.length = m.depth → m'.outcome options c around =
      m.outcome options (Parcel.content c (.group shell)) around) :
    Follows options first (number + 1) m' (l.hold ⟨number, .wrapped shell⟩)
      (opened ++ Holder.deliveries ⟨number, .wrapped shell⟩ l.held) := by
  refine ⟨grown, h.tidy.hold _, h.depth.trans depth.symm, transforms, fun c around length => ?_⟩
  rw [depth] at length
  have targets : (l.hold ⟨number, .wrapped shell⟩).targets = number :: l.outerTargets := rfl
  rw [child c around length, h.outcome _ _ length, targets, Content.arriving_cons,
    h.tidy.gather_deliveries rfl c (h.tidy.arriving_fresh around).2, l.targets_eq,
    Content.arriving_cons]

/-- A leaf arrives in the group that its target makes. -/
theorem add (h : Follows options first number m l opened) (leaf : Leaf α (Group α)) :
    Follows options first (number + 1) (m.fill (.one (.leaf leaf))) (l.deliver number leaf)
      (opened ++ [⟨number, Holder.target l.held, .leaf leaf⟩]) := by
  have depth : (m.fill (.one (.leaf leaf))).depth = m.depth := fill_depth m _
  refine ⟨h.grown.fill _, h.tidy.deliver leaf, h.depth.trans depth.symm, ?_,
    fun c around length => ?_⟩
  · rw [fill_transforms]
    exact h.transforms
  · have targets : (l.deliver number leaf).targets = l.targets := rfl
    rw [outcome_fill, h.outcome _ _ (length.trans depth), targets, l.targets_eq,
      Content.arriving_cons, Content.arriving_cons, gather_append, gather_cons, gather_nil,
      ← Content.put_put]
    rfl

/-- A frame that is opened: what arrives in it arrives outside as its kind of frame makes
of it. -/
theorem enter (h : Follows options first number m l opened) (layer : Option LayerKind) :
    Follows options first (number + 1) (m.act options (.enter layer))
      (l.act options number (.enter layer))
      (opened ++ l.opening options number (.enter layer)) := by
  refine ⟨h.grown.act options lockstep_nothing _ (Nat.zero_le _), h.tidy.act options _, ?_, ?_, ?_⟩
  · rw [enter_depth, ← h.depth]
    cases layer <;> rfl
  · rw [enter_transforms, h.transforms]
    cases layer with
    | none => rfl
    | some kind =>
        show _ = FrameStack.mk (List.filterMap _ [_]) _
        rw [List.filterMap_cons_none (Holder.transform?_layer options number kind)]
        rfl
  · intro c around length
    rw [enter_depth] at length
    -- of the contents that wait around the new frame, the first belongs to the frame before it
    obtain ⟨next, around, rfl⟩ := List.exists_cons_of_length_eq_add_one length
    have length := Nat.succ.inj length
    rw [outcome_enter, h.outcome _ _ length]
    congr 2
    cases layer with
    | none =>
        show _ = gather (opened ++ []) (.arriving
          (Holder.target l.held :: Holder.target l.held :: l.outerTargets) (c :: next :: around)) 0
        rw [List.append_nil, l.targets_eq, Content.arriving_cons, Content.arriving_cons,
          Content.arriving_cons, Content.put_put]
        rfl
    | some kind =>
        rw [Content.outside, Content.asLayer_eq_outside]
        exact (h.tidy.gather_buffer _ c next around).symm

/-- What the groups of a frame have gathered arrives when the frame is left. -/
theorem leave (h : Follows options first number m l opened) :
    Follows options first (number + 1) (m.restore options) l.leave opened := by
  have grown := h.grown.act options lockstep_nothing .leave (Nat.zero_le _)
  have lockstep := h.grown.lockstep lockstep_nothing
  cases frames : l.holders.outer with
  | nil =>
      -- there is no frame to leave on either side
      have depth := h.depth
      rw [FrameStack.depth, frames] at depth
      have same : l.leave = l := by
        unfold Ledger.leave
        rw [frames]
      rw [same, restore_of_root options m (List.eq_nil_of_length_eq_zero depth.symm)]
      exact ⟨h.grown, h.tidy.wait, h.depth, h.transforms, h.outcome⟩
  | cons frame outer =>
      obtain ⟨holders, targets⟩ := Ledger.leave_of_outer frames
      have depth : m.depth = outer.length + 1 := by
        rw [← h.depth, FrameStack.depth, frames, List.length_cons]
      have popped : l.leave.holders = l.holders.popFrame := by
        rw [holders, FrameStack.popFrame, frames]
      refine ⟨grown, h.tidy.wait.leave, ?_, ?_, fun c around length => ?_⟩
      · rw [restore_depth, depth, holders]
        rfl
      · rw [restore_transforms lockstep, h.transforms, FrameStack.popFrame_filterMap, popped]
      · have whole : (c :: around).length = m.depth := by
          rw [restore_depth] at length
          rw [List.length_cons]
          omega
        rw [outcome_restore, h.outcome _ _ whole, l.targets_eq, Content.arriving_cons,
          Content.put_empty, targets]

/-- Following an action keeps machine and ledger together. -/
theorem act (h : Follows options first number m l opened) (a : Action α) :
    Follows options first (number + 1) (m.act options a) (l.act options number a)
      (opened ++ l.opening options number a) := by
  have lockstep := h.grown.lockstep lockstep_nothing
  cases a with
  | clip c =>
      refine h.hold (h.grown.clip c) rfl h.transforms fun d around length => ?_
      -- the group of a clip arrives where its frame is left, as does that of a matrix
      have child := outcome_openClip lockstep options c d (Nat.le_of_eq length)
      rw [Group.fill_clip] at child
      exact child
  | matrix matrix =>
      show Follows options first (number + 1) (m.setMatrix matrix) _ _
      simp only [Ledger.act, Ledger.opening, h.entries]
      cases opening : matrix.opening m.transforms.entries with
      | none =>
          rw [setMatrix_of_no_opening opening, List.append_nil]
          exact ⟨h.grown, h.tidy.wait, h.depth, h.transforms, h.outcome⟩
      | some t =>
          rw [setMatrix_of_opening opening]
          refine h.hold (h.grown.transform t) rfl (congrArg (·.push t) h.transforms)
            fun d around length => ?_
          have child := outcome_openTransform lockstep options t d (Nat.le_of_eq length)
          rw [Group.fill_transform] at child
          exact child
  | add leaf => exact h.add leaf
  | enter layer => exact h.enter layer
  | leave =>
      rw [Ledger.opening, List.append_nil]
      exact h.leave
  | nothing =>
      rw [Ledger.opening, List.append_nil]
      exact ⟨h.grown, h.tidy.wait, h.depth, h.transforms, h.outcome⟩

/-- A run follows the ledger, by induction on its actions. -/
theorem perform (as : List (Action α)) :
    ∀ {number : Nat} {m : Machine α} {l : Ledger α} {opened : List (Delivery α)},
      Follows options first number m l opened →
        Follows options first (number + as.length) (m.perform options as)
          (l.follow options number as) (opened ++ l.openings options number as) := by
  induction as with
  | nil =>
      intro number m l opened h
      rw [Ledger.openings, List.append_nil]
      exact h
  | cons a as ih =>
      intro number m l opened h
      have rest := ih (h.act a)
      rw [List.append_assoc, Nat.add_right_comm] at rest
      exact rest

theorem start (options : Options) (bounds : Rect α) :
    Follows options (.background options bounds) 1 (Machine.start options bounds) {} [] := by
  have depth := start_depth options bounds
  refine ⟨grown_start options bounds, .start, depth.symm, ?_, fun c around length => ?_⟩
  · rw [start_transforms]
    rfl
  · rw [depth] at length
    rw [List.eq_nil_of_length_eq_zero length, start_eq_fill, outcome_fill, Machine.outcome,
      finish_of_root options _ (fill_layers _ _)]
    have arrived : Content.arriving ({} : Ledger α).targets [c] 0 = c := by
      show Content.put 0 c (fun _ => .empty) 0 = c
      rw [Content.put_self, Content.append_empty]
    rw [gather_nil, arrived]
    exact Group.fill_empty_group _

end Follows

/-! ## Whole pictures -/

/-- The deliveries of a picture in the order of opening. -/
def Scene.openings (s : Scene α P) (commands : List (Command α P)) : List (Delivery α) :=
  Ledger.openings s.options 1 {} (commands.map s.action)

/-- The tree of a picture is what the root holds once the deliveries are gathered. -/
theorem Scene.convert_eq_gather (s : Scene α P) (bounds : Rect α)
    (commands : List (Command α P)) :
    s.convert bounds commands = (.background s.options bounds ++
      gather (s.openings commands) (fun _ => .empty) 0 : Content α).group := by
  have follows := (Follows.start s.options bounds).perform (commands.map s.action)
  have finished := follows.outcome .empty (.replicate _ .empty) List.length_replicate
  rw [Machine.outcome_nothing, ← List.replicate_succ, Content.arriving_nothing] at finished
  show Machine.root (((Machine.start s.options bounds).run s commands).finish s.options) = _
  rw [Machine.run_eq_perform]
  exact finished

end PictureMarkup
