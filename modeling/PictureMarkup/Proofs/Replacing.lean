import PictureMarkup.Proofs.Translation

/-!
# Other leaves, other layers

Two conversions often differ only in the leaf that a draw adds, or in the kind that a layer
is given. The nesting of the commands is then the same, with the leaves and the kinds
replaced (`Action.nest_matched_replace`), so that statements about the two trees are
inductions over one block.

What happens inside a list of actions can be told from the outside by `Block.Every`: a
property of all the actions is a property of all the actions in their block
(`Action.every_nest_matched`).
-/

namespace PictureMarkup

variable {α P : Type}

namespace Action

/-- Another leaf for each leaf and another kind for each layer. -/
def replace (leaf : Leaf α (Group α) → Leaf α (Group α)) (kind : LayerKind → LayerKind) :
    Action α → Action α
  | .clip c => .clip c
  | .matrix m => .matrix m
  | .add l => .add (leaf l)
  | .enter layer => .enter (layer.map kind)
  | .leave => .leave
  | .nothing => .nothing

end Action

namespace Block

/-- A block with other leaves and other kinds of layers. -/
def replace (leaf : Leaf α (Group α) → Leaf α (Group α)) (kind : LayerKind → LayerKind) :
    Block α → Block α
  | .done => .done
  | .add l rest => .add (leaf l) (rest.replace leaf kind)
  | .clip c rest => .clip c (rest.replace leaf kind)
  | .matrix m rest => .matrix m (rest.replace leaf kind)
  | .scope layer body rest =>
    .scope (layer.map kind) (body.replace leaf kind) (rest.replace leaf kind)

@[simp] theorem replace_id (b : Block α) : b.replace id id = b := by
  induction b with
  | done => rfl
  | add l rest ih => simp only [replace, ih, id]
  | clip c rest ih => simp only [replace, ih]
  | matrix m rest ih => simp only [replace, ih]
  | scope layer body rest ihBody ihRest =>
      simp only [replace, ihBody, ihRest, Option.map_id, id]

/-- All actions of a block have a property. -/
def Every (ok : Action α → Prop) : Block α → Prop
  | .done => True
  | .add l rest => ok (.add l) ∧ rest.Every ok
  | .clip c rest => ok (.clip c) ∧ rest.Every ok
  | .matrix m rest => ok (.matrix m) ∧ rest.Every ok
  | .scope layer body rest => ok (.enter layer) ∧ body.Every ok ∧ rest.Every ok

end Block

namespace Action

section

variable (leaf : Leaf α (Group α) → Leaf α (Group α)) (kind : LayerKind → LayerKind)

theorem matched_replace (as : List (Action α)) :
    ∀ n, matched n (as.map (replace leaf kind)) = (matched n as).map (replace leaf kind) := by
  induction as with
  | nil => exact fun _ => rfl
  | cons a as ih =>
      intro n
      cases a with
      | leave =>
          cases n with
          | zero => exact ih 0
          | succ n => exact congrArg (Action.leave :: ·) (ih n)
      | enter layer => exact congrArg (Action.enter (layer.map kind) :: ·) (ih (n + 1))
      | clip c => exact congrArg (Action.clip c :: ·) (ih n)
      | matrix m => exact congrArg (Action.matrix m :: ·) (ih n)
      | add l => exact congrArg (Action.add (leaf l) :: ·) (ih n)
      | nothing => exact congrArg (Action.nothing :: ·) (ih n)

theorem nest_replace (as : List (Action α)) :
    nest (as.map (replace leaf kind)) =
      ((nest as).1.replace leaf kind, (nest as).2.map (Block.replace leaf kind)) := by
  induction as with
  | nil => rfl
  | cons a as ih =>
      cases a with
      | enter layer =>
          simp only [List.map_cons, replace, nest, ih]
          -- the frame is followed by something if something leaves it
          rcases nest as with ⟨body, _ | ⟨rest, around⟩⟩ <;> rfl
      | _ => simp only [List.map_cons, replace, nest, ih, Block.replace]

theorem nest_matched_replace (n : Nat) (as : List (Action α)) :
    nest (matched n (as.map (replace leaf kind))) =
      ((nest (matched n as)).1.replace leaf kind,
        (nest (matched n as)).2.map (Block.replace leaf kind)) := by
  rw [matched_replace, nest_replace]

end

section

variable {ok : Action α → Prop}

theorem every_nest {as : List (Action α)} (h : ∀ a ∈ as, ok a) :
    (nest as).1.Every ok ∧ ∀ b ∈ (nest as).2, b.Every ok := by
  induction as with
  | nil => exact ⟨trivial, fun _ member => absurd member List.not_mem_nil⟩
  | cons a as ih =>
      have first := h a List.mem_cons_self
      obtain ⟨inner, outer⟩ := ih fun a member => h a (List.mem_cons_of_mem _ member)
      cases a with
      | leave =>
          refine ⟨trivial, fun b member => ?_⟩
          rcases List.mem_cons.mp member with rfl | member
          · exact inner
          · exact outer b member
      | enter layer =>
          simp only [nest]
          -- the block behind the scope is the first of those outside, if it is ever left
          rcases nested : nest as with ⟨body, _ | ⟨rest, around⟩⟩ <;> rw [nested] at inner outer
          · exact ⟨⟨first, inner, trivial⟩, outer⟩
          · exact ⟨⟨first, inner, outer rest List.mem_cons_self⟩,
              fun b member => outer b (List.mem_cons_of_mem _ member)⟩
      | clip c => exact ⟨⟨first, inner⟩, outer⟩
      | matrix m => exact ⟨⟨first, inner⟩, outer⟩
      | add l => exact ⟨⟨first, inner⟩, outer⟩
      | nothing => exact ⟨inner, outer⟩

theorem mem_of_mem_matched {a : Action α} (as : List (Action α)) :
    ∀ n, a ∈ matched n as → a ∈ as := by
  induction as with
  | nil => exact fun _ member => member
  | cons b as ih =>
      intro n member
      have step : ∀ k, a ∈ b :: matched k as → a ∈ b :: as := fun k member =>
        (List.mem_cons.mp member).elim (fun same => same ▸ List.mem_cons_self)
          fun member => List.mem_cons_of_mem _ (ih k member)
      cases b with
      | leave =>
          cases n with
          | zero => exact List.mem_cons_of_mem _ (ih 0 member)
          | succ n => exact step n member
      | enter layer => exact step (n + 1) member
      | clip c => exact step n member
      | matrix m => exact step n member
      | add l => exact step n member
      | nothing => exact step n member

/-- What holds of all actions holds of all actions in the block that they begin in. -/
theorem every_nest_matched {as : List (Action α)} (h : ∀ a ∈ as, ok a) (n : Nat) :
    (nest (matched n as)).1.Every ok :=
  (every_nest fun a member => h a (mem_of_mem_matched as n member)).1

end

end Action

end PictureMarkup
