import PictureMarkup.Proofs.Delivery

/-!
# Deliveries in the order of opening

A ledger writes a group down when it is closed, when all that belongs to it has already
been delivered. The tree is easier to read off the same deliveries in the order of opening:
each comes before everything that is delivered to what it delivers, so that contents can be
gathered from the last delivery to the first (`gather`). Both orders deliver the same to
each group in the same order (`Tidy.routed`), because of all that is open no two holders
are delivered to the same group (`closing_pairwise`).
-/

namespace PictureMarkup

variable {α P : Type}

/-! ## Gathering contents -/

namespace Content

/-- One content after the other. -/
def join (cs : List (Content α)) : Content α := cs.foldr (· ++ ·) .empty

@[simp] theorem join_cons (c : Content α) (cs : List (Content α)) :
    join (c :: cs) = c ++ join cs := rfl

theorem join_children (cs : List (Content α)) :
    (join cs).children = cs.flatMap (·.children) := by
  induction cs with
  | nil => rfl
  | cons c cs ih =>
      rw [List.flatMap_cons, ← ih]
      rfl

/-- Of several masks the last one stays. -/
theorem join_mask (cs : List (Content α)) :
    (join cs).mask = (cs.filterMap (·.mask)).getLast? := by
  induction cs with
  | nil => rfl
  | cons c cs ih =>
      have joined : (join (c :: cs)).mask = (join cs).mask.or c.mask := rfl
      rw [joined, ih]
      cases mask : c.mask with
      | none => rw [List.filterMap_cons_none mask, Option.or_none]
      | some b =>
          rw [List.filterMap_cons_some mask, List.getLast?_cons]
          cases (cs.filterMap (·.mask)).getLast? <;> rfl

/-- Contents with something more in front of one of them. -/
def put (n : Nat) (c : Content α) (contents : Nat → Content α) : Nat → Content α :=
  fun k => if k = n then c ++ contents k else contents k

/-- Putting twice in one place is putting both at once, the later in front. -/
@[simp] theorem put_put (n : Nat) (c d : Content α) (contents : Nat → Content α) :
    put n c (put n d contents) = put n (c ++ d) contents := by
  funext k
  unfold put
  split
  · rw [append_assoc]
  · rfl

@[simp] theorem put_empty (n : Nat) (contents : Nat → Content α) :
    put n .empty contents = contents := by
  funext k
  unfold put
  split
  · rw [empty_append]
  · rfl

theorem put_self (n : Nat) (c : Content α) (contents : Nat → Content α) :
    put n c contents n = c ++ contents n := if_pos rfl

theorem put_of_ne {n k : Nat} (h : k ≠ n) (c : Content α) (contents : Nat → Content α) :
    put n c contents k = contents k := if_neg h

end Content

/-- What each group holds, gathered from deliveries in the order of opening, when something
is held already. -/
def gather (opened : List (Delivery α)) (contents : Nat → Content α) : Nat → Content α :=
  opened.foldr (fun d held => .put d.target (d.content held) held) contents

@[simp] theorem gather_nil (contents : Nat → Content α) : gather [] contents = contents := rfl

@[simp] theorem gather_cons (d : Delivery α) (opened : List (Delivery α))
    (contents : Nat → Content α) :
    gather (d :: opened) contents =
      .put d.target (d.content (gather opened contents)) (gather opened contents) := rfl

theorem gather_append (opened later : List (Delivery α)) (contents : Nat → Content α) :
    gather (opened ++ later) contents = gather opened (gather later contents) := by
  induction opened with
  | nil => rfl
  | cons d opened ih => rw [List.cons_append, gather_cons, gather_cons, ih]

/-- What a number holds does not matter to the others if nothing of that number is
delivered. -/
theorem gather_congr {opened : List (Delivery α)} {k : Nat} {contents contents' : Nat → Content α}
    (silent : ∀ d ∈ opened, d.number ≠ k) (same : ∀ n ≠ k, contents n = contents' n) :
    ∀ n ≠ k, gather opened contents n = gather opened contents' n := by
  induction opened with
  | nil => exact same
  | cons d opened ih =>
      intro n other
      have rest := ih fun e member => silent e (List.mem_cons_of_mem d member)
      have content : d.content (gather opened contents) = d.content (gather opened contents') := by
        unfold Delivery.content
        rw [rest d.number (silent d List.mem_cons_self)]
      rw [gather_cons, gather_cons, content]
      unfold Content.put
      rw [rest n other]

/-- Deliveries in the order of opening: nothing is delivered to what is delivered later, or
to itself. -/
def InOrder (opened : List (Delivery α)) : Prop :=
  opened.Pairwise (fun d e => d.target < e.number) ∧ ∀ d ∈ opened, d.target < d.number

theorem InOrder.tail {d : Delivery α} {opened : List (Delivery α)}
    (h : InOrder (d :: opened)) : InOrder opened :=
  ⟨(List.pairwise_cons.mp h.1).2, fun e member => h.2 e (List.mem_cons_of_mem d member)⟩

/-- A delivery may come behind the others if its target was open before. -/
theorem InOrder.append {opened : List (Delivery α)} (h : InOrder opened) {d : Delivery α}
    (self : d.target < d.number) (later : ∀ e ∈ opened, e.target < d.number) :
    InOrder (opened ++ [d]) := by
  constructor
  · rw [List.pairwise_append]
    refine ⟨h.1, List.pairwise_singleton _ _, fun e member f last => ?_⟩
    rw [List.mem_singleton.mp last]
    exact later e member
  · intro e member
    rcases List.mem_append.mp member with member | last
    · exact h.2 e member
    · rw [List.mem_singleton.mp last]
      exact self

@[simp] theorem deliveredTo_append (n : Nat) (log later : List (Delivery α)) :
    deliveredTo n (log ++ later) = deliveredTo n log ++ deliveredTo n later :=
  List.filter_append ..

@[simp] theorem deliveredTo_reverse (n : Nat) (log : List (Delivery α)) :
    deliveredTo n log.reverse = (deliveredTo n log).reverse := List.filter_reverse ..

/-- What is gathered for a number is what is delivered to it, with contents that are
gathered the same way. -/
theorem gather_eq_join {opened : List (Delivery α)} (order : InOrder opened)
    (contents : Nat → Content α) (n : Nat) :
    gather opened contents n =
      .join ((deliveredTo n opened).map (·.content (gather opened contents))) ++ contents n := by
  induction opened with
  | nil => exact (Content.empty_append _).symm
  | cons d opened ih =>
      -- the first delivery changes none of the contents that are delivered
      have same : ∀ e ∈ d :: opened,
          e.content (gather (d :: opened) contents) = e.content (gather opened contents) := by
        intro e member
        have ahead : d.target < e.number := by
          rcases List.mem_cons.mp member with rfl | member
          · exact order.2 e List.mem_cons_self
          · exact (List.pairwise_cons.mp order.1).1 e member
        unfold Delivery.content
        rw [gather_cons, Content.put_of_ne (Nat.ne_of_gt ahead)]
      have joined : (deliveredTo n (d :: opened)).map (·.content (gather (d :: opened) contents)) =
          (deliveredTo n (d :: opened)).map (·.content (gather opened contents)) :=
        List.map_congr_left fun e member => same e (List.mem_filter.mp member).1
      rw [joined, gather_cons]
      by_cases here : n = d.target
      · subst here
        have first : deliveredTo d.target (d :: opened) = d :: deliveredTo d.target opened :=
          List.filter_cons_of_pos (beq_self_eq_true d.target)
        rw [Content.put_self, ih order.tail, first, List.map_cons, Content.join_cons,
          Content.append_assoc]
      · have skipped : deliveredTo n (d :: opened) = deliveredTo n opened := by
          refine List.filter_cons_of_neg ?_
          rw [beq_iff_eq]
          exact Ne.symm here
        rw [Content.put_of_ne here, ih order.tail, skipped]

/-! ## What is open -/

namespace Holder

/-- The innermost number is the greatest, and none is that of the root. -/
def Numbered (hs : List (Holder α)) : Prop :=
  hs.Pairwise (fun h below => below.number < h.number) ∧ ∀ h ∈ hs, 0 < h.number

theorem Numbered.tail {h : Holder α} {hs : List (Holder α)} (numbered : Numbered (h :: hs)) :
    Numbered hs :=
  ⟨(List.pairwise_cons.mp numbered.1).2,
    fun g member => numbered.2 g (List.mem_cons_of_mem h member)⟩

theorem Numbered.of_append {hs below : List (Holder α)} (numbered : Numbered (hs ++ below)) :
    Numbered below :=
  ⟨(List.pairwise_append.mp numbered.1).2.1,
    fun g member => numbered.2 g (List.mem_append_right hs member)⟩

/-- The target is the root or one of the holders. -/
theorem target_lt {hs : List (Holder α)} {bound : Nat} (positive : 0 < bound)
    (below : ∀ h ∈ hs, h.number < bound) : target hs < bound := by
  induction hs with
  | nil => exact positive
  | cons h hs ih =>
      have rest := ih fun g member => below g (List.mem_cons_of_mem h member)
      have first := below h List.mem_cons_self
      obtain ⟨number, role⟩ := h
      cases role with
      | passing => exact rest
      | wrapped shell => exact first
      | masking => exact first
      | dropped => exact first

/-- What a holder delivers goes to one with a smaller number. -/
theorem Numbered.target_lt {h : Holder α} {hs : List (Holder α)}
    (numbered : Numbered (h :: hs)) : target hs < h.number :=
  Holder.target_lt (numbered.2 h List.mem_cons_self) (List.pairwise_cons.mp numbered.1).1

theorem target_cons {h : Holder α} (holds : h.role ≠ .passing) (hs : List (Holder α)) :
    target (h :: hs) = h.number := by
  obtain ⟨number, role⟩ := h
  cases role with
  | passing => exact absurd rfl holds
  | wrapped shell => rfl
  | masking => rfl
  | dropped => rfl

/-- A layer that passes its content on delivers nothing itself. -/
theorem deliveries_of_passing {h : Holder α} (passes : h.role = .passing)
    (below : List (Holder α)) : h.deliveries below = [] := by
  unfold deliveries
  rw [passes]
  rfl

/-- Closing a holder delivers at most once. -/
theorem deliveries_reverse (h : Holder α) (below : List (Holder α)) :
    (h.deliveries below).reverse = h.deliveries below := by
  unfold deliveries
  cases h.role.parcel? <;> rfl

theorem mem_deliveries {h : Holder α} {below : List (Holder α)} {d : Delivery α}
    (member : d ∈ h.deliveries below) :
    d.number = h.number ∧ d.target = target below ∧ h.role.parcel? = some d.parcel := by
  unfold deliveries at member
  obtain ⟨parcel, some, rfl⟩ := List.mem_map.mp member
  exact ⟨rfl, rfl, Option.mem_toList.mp some⟩

/-- Closing two stretches is closing the inner one first. -/
theorem closing_append (hs gs below : List (Holder α)) :
    closing (hs ++ gs) below = closing hs (gs ++ below) ++ closing gs below := by
  induction hs with
  | nil => rfl
  | cons h hs ih =>
      rw [List.cons_append, closing, closing, ih, List.append_assoc, List.append_assoc]

/-- What is closed is delivered further out than what would be delivered now. -/
theorem closing_target_lt {hs : List (Holder α)} (numbered : Numbered hs) :
    ∀ d ∈ closing hs [], d.target < target hs := by
  induction hs with
  | nil => exact fun d member => absurd member List.not_mem_nil
  | cons h hs ih =>
      intro d member
      rw [closing, List.append_nil] at member
      by_cases passes : h.role = .passing
      · rw [deliveries_of_passing passes, List.nil_append] at member
        have same : target (h :: hs) = target hs := by
          obtain ⟨number, role⟩ := h
          cases passes
          rfl
        rw [same]
        exact ih numbered.tail d member
      · rw [target_cons passes]
        have outer := numbered.target_lt
        rcases List.mem_append.mp member with own | member
        · rw [(mem_deliveries own).2.1]
          exact outer
        · exact Nat.lt_trans (ih numbered.tail d member) outer

/-- No two of the open holders are delivered to the same target. -/
theorem closing_pairwise {hs : List (Holder α)} (numbered : Numbered hs) :
    (closing hs []).Pairwise fun d e => e.target < d.target := by
  induction hs with
  | nil => exact List.Pairwise.nil
  | cons h hs ih =>
      rw [closing, List.append_nil, List.pairwise_append]
      refine ⟨?_, ih numbered.tail, fun d own e member => ?_⟩
      · unfold deliveries
        cases h.role.parcel? with
        | none => exact List.Pairwise.nil
        | some parcel => exact List.pairwise_singleton _ _
      · rw [(mem_deliveries own).2.1]
        exact closing_target_lt numbered.tail e member

/-- So the order in which they are closed makes no difference to any target. -/
theorem deliveredTo_closing_reverse {hs : List (Holder α)} (numbered : Numbered hs) (n : Nat) :
    (deliveredTo n (closing hs [])).reverse = deliveredTo n (closing hs []) := by
  have apart := (closing_pairwise numbered).filter fun d => d.target == n
  change (deliveredTo n (closing hs [])).Pairwise _ at apart
  have here : ∀ d ∈ deliveredTo n (closing hs []), d.target = n :=
    fun d member => beq_iff_eq.mp (List.mem_filter.mp member).2
  rcases h : deliveredTo n (closing hs []) with _ | ⟨d, _ | ⟨e, rest⟩⟩
  · rfl
  · rfl
  · -- two deliveries to one target would have to be apart
    rw [h] at apart here
    have less := (List.pairwise_cons.mp apart).1 e List.mem_cons_self
    rw [here d List.mem_cons_self,
      here e (List.mem_cons_of_mem d List.mem_cons_self)] at less
    exact absurd less (Nat.lt_irrefl n)

end Holder

/-! ## Both orders -/

open Holder in
/-- A ledger after the commands below a number, beside its deliveries in the order of
opening. -/
structure Tidy (number : Nat) (l : Ledger α) (opened : List (Delivery α)) : Prop where
  positive : 0 < number
  numbered : Numbered l.held
  below : ∀ h ∈ l.held, h.number < number
  order : InOrder opened
  past : ∀ d ∈ opened, d.number < number
  distinct : (opened.map (·.number)).Nodup
  /-- The same deliveries. -/
  perm : opened.Perm (l.log ++ (closing l.held []).reverse)
  /-- In the same order to each target. -/
  routed : ∀ n, deliveredTo n opened = deliveredTo n (l.log ++ (closing l.held []).reverse)

namespace Tidy

open Holder

variable {number : Nat} {l : Ledger α} {opened : List (Delivery α)}

theorem start : Tidy 1 ({} : Ledger α) [] where
  positive := Nat.one_pos
  numbered := ⟨List.Pairwise.nil, fun _ member => absurd member List.not_mem_nil⟩
  below _ member := absurd member List.not_mem_nil
  order := ⟨List.Pairwise.nil, fun _ member => absurd member List.not_mem_nil⟩
  past _ member := absurd member List.not_mem_nil
  distinct := List.nodup_nil
  perm := List.Perm.refl _
  routed _ := rfl

theorem target_lt (h : Tidy number l opened) : target l.held < number :=
  Holder.target_lt h.positive h.below

/-- Nothing changes with the next command. -/
theorem wait (h : Tidy number l opened) : Tidy (number + 1) l opened where
  positive := Nat.succ_pos number
  numbered := h.numbered
  below g member := Nat.lt_succ_of_lt (h.below g member)
  order := h.order
  past d member := Nat.lt_succ_of_lt (h.past d member)
  distinct := h.distinct
  perm := h.perm
  routed := h.routed

/-- The order of opening takes in what is delivered under the next number. -/
theorem add {l' : Ledger α} (h : Tidy number l opened) {new : List (Delivery α)}
    (single : new.length ≤ 1)
    (named : ∀ d ∈ new, d.number = number ∧ d.target = target l.held)
    (numbered : Numbered l'.held) (below : ∀ g ∈ l'.held, g.number < number + 1)
    (perm : (opened ++ new).Perm (l'.log ++ (closing l'.held []).reverse))
    (routed : ∀ n, deliveredTo n (opened ++ new) =
      deliveredTo n (l'.log ++ (closing l'.held []).reverse)) :
    Tidy (number + 1) l' (opened ++ new) := by
  -- what is new has the number of this action, and all before have smaller ones
  have fresh : ∀ d ∈ new, d.number = number := fun d member => (named d member).1
  refine ⟨Nat.succ_pos number, numbered, below, ?_, ?_, ?_, perm, routed⟩
  · rcases new with _ | ⟨d, _ | ⟨e, rest⟩⟩
    · rw [List.append_nil]
      exact h.order
    · obtain ⟨own, target⟩ := named d List.mem_cons_self
      -- its target was opened before, so the order holds
      refine h.order.append ?_ fun e member => ?_
      · rw [own, target]
        exact h.target_lt
      · rw [own]
        exact Nat.lt_trans (h.order.2 e member) (h.past e member)
    · exact absurd single (by simp)
  · intro d member
    rcases List.mem_append.mp member with member | member
    · exact Nat.lt_succ_of_lt (h.past d member)
    · rw [fresh d member]
      exact Nat.lt_succ_self number
  · rw [List.map_append, List.nodup_append]
    refine ⟨h.distinct, ?_, fun k old j recent => ?_⟩
    · rcases new with _ | ⟨d, _ | ⟨e, rest⟩⟩
      · exact List.nodup_nil
      · exact List.pairwise_singleton _ _
      · exact absurd single (by simp)
    · obtain ⟨d, member, rfl⟩ := List.mem_map.mp old
      obtain ⟨e, member', rfl⟩ := List.mem_map.mp recent
      rw [fresh e member']
      exact Nat.ne_of_lt (h.past d member)

/-- A group that is opened comes behind all that were opened before it. -/
theorem hold (h : Tidy number l opened) (role : Role α) :
    Tidy (number + 1) (l.hold ⟨number, role⟩)
      (opened ++ Holder.deliveries ⟨number, role⟩ l.held) := by
  have closed : (closing (l.hold ⟨number, role⟩).held []).reverse =
      (closing l.held []).reverse ++ Holder.deliveries ⟨number, role⟩ l.held := by
    show (closing (⟨number, role⟩ :: l.held) []).reverse = _
    rw [closing, List.append_nil, List.reverse_append, deliveries_reverse]
  -- the new holder is the first to close, and so the last one with closing read backwards
  refine h.add ?_ ?_ ?_ ?_ ?_ ?_
  · unfold Holder.deliveries
    rw [List.length_map]
    cases role.parcel? <;> simp
  · intro d member
    exact ⟨(mem_deliveries member).1, (mem_deliveries member).2.1⟩
  · refine ⟨List.pairwise_cons.mpr ⟨h.below, h.numbered.1⟩, fun g member => ?_⟩
    rcases List.mem_cons.mp member with rfl | member
    · exact h.positive
    · exact h.numbered.2 g member
  · intro g member
    rcases List.mem_cons.mp member with rfl | member
    · exact Nat.lt_succ_self number
    · exact Nat.lt_succ_of_lt (h.below g member)
  · rw [closed, ← List.append_assoc]
    exact h.perm.append_right _
  · intro n
    rw [closed, ← List.append_assoc, deliveredTo_append, h.routed n]
    exact (deliveredTo_append ..).symm

/-- A leaf is delivered at once, and no later delivery gets in front of it. -/
theorem deliver (h : Tidy number l opened) (leaf : Leaf α (Group α)) :
    Tidy (number + 1) (l.deliver number leaf)
      (opened ++ [⟨number, target l.held, .leaf leaf⟩]) := by
  refine h.add (Nat.le_refl 1) ?_ h.numbered (fun g m => Nat.lt_succ_of_lt (h.below g m)) ?_ ?_
  · intro d member
    rw [List.mem_singleton.mp member]
    exact ⟨rfl, rfl⟩
  · refine (h.perm.append_right _).trans ?_
    rw [List.append_assoc]
    show (l.log ++ ((closing l.held []).reverse ++ [_])).Perm
      ((l.log ++ [_]) ++ (closing l.held []).reverse)
    rw [List.append_assoc]
    exact List.perm_append_comm.append_left _
  · intro n
    show _ = deliveredTo n ((l.log ++ [_]) ++ (closing l.held []).reverse)
    rw [deliveredTo_append, h.routed n]
    simp only [deliveredTo_append, List.append_assoc]
    congr 1
    -- the leaf is logged at once, the open holders only when they close
    by_cases here : target l.held = n
    · -- none of the open holders is delivered to where the leaf goes
      have none : deliveredTo n (closing l.held []) = [] := by
        refine List.filter_eq_nil_iff.mpr fun d member => ?_
        have further := closing_target_lt h.numbered d member
        rw [beq_iff_eq]
        omega
      rw [deliveredTo_reverse, none, List.reverse_nil, List.nil_append, List.append_nil]
    · have elsewhere : deliveredTo n
          [(⟨number, target l.held, .leaf leaf⟩ : Delivery α)] = [] := by
        refine List.filter_eq_nil_iff.mpr fun d member => ?_
        rw [List.mem_singleton.mp member, beq_iff_eq]
        exact here
      rw [elsewhere, List.append_nil, List.nil_append]

theorem pushFrame (h : Tidy number l opened) : Tidy number l.pushFrame opened := by
  have same : l.pushFrame.held = l.held := List.nil_append _
  refine ⟨h.positive, ?_, ?_, h.order, h.past, h.distinct, ?_, ?_⟩
  · rw [same]
    exact h.numbered
  · rw [same]
    exact h.below
  · rw [same]
    exact h.perm
  · rw [same]
    exact h.routed

/-- Leaving a frame delivers what its groups have to deliver. -/
theorem leave (h : Tidy number l opened) : Tidy number l.leave opened := by
  obtain ⟨⟨current, outer⟩, log⟩ := l
  cases outer with
  | nil => exact h
  | cons frame outer =>
      have numbered : Numbered (current ++ (frame :: outer).flatten) := h.numbered
      -- only what is outside of the frame stays open
      have outside : (Ledger.leave ⟨⟨current, frame :: outer⟩, log⟩).held =
          (frame :: outer).flatten := (List.flatten_cons ..).symm
      have closed : closing (current ++ (frame :: outer).flatten) [] =
          closing current (frame :: outer).flatten ++ closing (frame :: outer).flatten [] := by
        rw [closing_append, List.append_nil]
      have perm : opened.Perm
          (log ++ (closing (current ++ (frame :: outer).flatten) []).reverse) := h.perm
      have routed : ∀ n, deliveredTo n opened = deliveredTo n
          (log ++ (closing (current ++ (frame :: outer).flatten) []).reverse) := h.routed
      refine ⟨h.positive, ?_, ?_, h.order, h.past, h.distinct, ?_, ?_⟩
      · rw [outside]
        exact numbered.of_append
      · rw [outside]
        exact fun g member => h.below g (List.mem_append_right current member)
      · rw [outside]
        refine perm.trans ?_
        have logged : (Ledger.leave ⟨⟨current, frame :: outer⟩, log⟩).log =
            log ++ closing current (frame :: outer).flatten := rfl
        rw [closed, logged, List.append_assoc]
        refine List.Perm.append_left log ((List.reverse_perm _).trans ?_)
        exact (List.reverse_perm _).symm.append_left _
      · -- the frame is logged innermost first, but no target gets two of its deliveries
        intro n
        have own := deliveredTo_closing_reverse numbered n
        have further := deliveredTo_closing_reverse numbered.of_append n
        rw [routed n, outside]
        show _ = deliveredTo n ((log ++ closing current (frame :: outer).flatten) ++ _)
        rw [deliveredTo_append, deliveredTo_append, deliveredTo_append, deliveredTo_reverse,
          deliveredTo_reverse, own, further, closed, deliveredTo_append, List.append_assoc]

/-- At the end of the picture both orders have the same deliveries, and the same for each
target. -/
theorem finish (h : Tidy number l opened) :
    opened.Perm l.finish ∧ ∀ n, deliveredTo n opened = deliveredTo n l.finish := by
  refine ⟨h.perm.trans ((List.reverse_perm _).append_left _), fun n => ?_⟩
  rw [h.routed n, deliveredTo_append, deliveredTo_reverse,
    deliveredTo_closing_reverse h.numbered]
  exact (deliveredTo_append ..).symm

end Tidy

end PictureMarkup
