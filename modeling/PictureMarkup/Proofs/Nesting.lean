import PictureMarkup.Proofs.Actions

/-!
# The nesting of commands

A list of commands is flat, but saves and restores make it a tree. `Block` is that tree:
what stands between a save and its restore, read from left to right, where everything
after a clip or a matrix is part of it and a frame is followed by the rest of the block.

Two readings lead from the list to the tree. `Action.matched` drops every restore for
which no frame is open. `Action.nest` gives a frame the actions up to its restore, or all
that are left if there is none.
-/

namespace PictureMarkup

/-- The actions between opening a frame and leaving it. -/
inductive Block (α : Type) where
  | done
  | add (l : Leaf α (Group α)) (rest : Block α)
  | clip (c : Clip α) (rest : Block α)
  | matrix (m : Affine α) (rest : Block α)
  | scope (layer : Option LayerKind) (body rest : Block α)

namespace Action

variable {α : Type}

/-- The actions without the restores for which no frame is open, where a number of frames
is open at the start. -/
def matched : Nat → List (Action α) → List (Action α)
  | _, [] => []
  | 0, .leave :: as => matched 0 as
  | n + 1, .leave :: as => .leave :: matched n as
  | n, .enter layer :: as => .enter layer :: matched (n + 1) as
  | n, .add l :: as => .add l :: matched n as
  | n, .clip c :: as => .clip c :: matched n as
  | n, .matrix m :: as => .matrix m :: matched n as
  | n, .nothing :: as => .nothing :: matched n as

/-- The block in which some actions begin, and the blocks around it in which they go on,
innermost first, each from where the frame inside it is left. -/
def nest : List (Action α) → Block α × List (Block α)
  | [] => (.done, [])
  | .leave :: as => (.done, (nest as).1 :: (nest as).2)
  | .enter layer :: as =>
    match nest as with
    | (body, []) => (.scope layer body .done, [])
    | (body, rest :: around) => (.scope layer body rest, around)
  | .add l :: as => (.add l (nest as).1, (nest as).2)
  | .clip c :: as => (.clip c (nest as).1, (nest as).2)
  | .matrix m :: as => (.matrix m (nest as).1, (nest as).2)
  | .nothing :: as => nest as

/-- Matched actions leave no more frames than were open at the start. -/
theorem nest_matched_length (n : Nat) (as : List (Action α)) :
    (nest (matched n as)).2.length ≤ n := by
  induction as generalizing n with
  | nil => exact Nat.zero_le n
  | cons a as ih =>
      cases a with
      | leave =>
          cases n with
          | zero => exact ih 0
          | succ n => exact Nat.succ_le_succ (ih n)
      | enter layer =>
          have inner := ih (n + 1)
          rw [matched, nest]
          -- the scope takes up one of the blocks outside
          cases h : nest (matched (n + 1) as) with
          | mk body around =>
              rw [h] at inner
              cases around with
              | nil => exact Nat.zero_le n
              | cons rest around => exact Nat.le_of_succ_le_succ inner
      | add l => exact ih n
      | clip c => exact ih n
      | matrix m => exact ih n
      | nothing => exact ih n

/-- Actions that leave every frame they open and no other. -/
inductive Balanced : List (Action α) → Prop
  | nil : Balanced []
  | add (l : Leaf α (Group α)) {as} : Balanced as → Balanced (.add l :: as)
  | clip (c : Clip α) {as} : Balanced as → Balanced (.clip c :: as)
  | matrix (m : Affine α) {as} : Balanced as → Balanced (.matrix m :: as)
  | nothing {as} : Balanced as → Balanced (.nothing :: as)
  | scope (layer : Option LayerKind) {body rest} : Balanced body → Balanced rest →
      Balanced (.enter layer :: (body ++ .leave :: rest))

/-- The restore after balanced actions is the one that leaves their block. -/
theorem Balanced.nest_leave {body : List (Action α)} (h : Balanced body) :
    ∀ after : List (Action α),
      nest (body ++ .leave :: after) = ((nest body).1, (nest after).1 :: (nest after).2) := by
  induction h with
  | nil => intro after; rfl
  | add l _ ih => intro after; simp only [List.cons_append, nest, ih]
  | clip c _ ih => intro after; simp only [List.cons_append, nest, ih]
  | matrix m _ ih => intro after; simp only [List.cons_append, nest, ih]
  | nothing _ ih => intro after; simp only [List.cons_append, nest, ih]
  | @scope layer body rest _ _ ihBody ihRest =>
      intro after
      have whole : Action.enter layer :: (body ++ .leave :: rest) ++ .leave :: after =
          .enter layer :: (body ++ .leave :: (rest ++ .leave :: after)) := by
        simp only [List.cons_append, List.append_assoc]
      rw [whole]
      simp only [nest, ihBody, ihRest]

theorem Balanced.nest_scope {body : List (Action α)} (h : Balanced body)
    (layer : Option LayerKind) (after : List (Action α)) :
    nest (.enter layer :: (body ++ .leave :: after)) =
      (.scope layer (nest body).1 (nest after).1, (nest after).2) := by
  rw [nest, h.nest_leave after]

end Action

end PictureMarkup
