import PictureMarkup.Drawing

/-!
# Trees in brushes

A tree holds further trees: a mask shows one, and so may the brush of a leaf or of its pen.
`Group.Shows` lists all groups that are somewhere in a tree, with the number of brushes on
the way; a mask is on the way without being counted. `Group.prune` cuts a tree off below a
number of brushes: it leaves out every brush that would show one more, and nothing else.

What a pruned tree shows is what the whole tree shows as deep as that, pruned by what is left
(`Group.shows_prune_iff`).
-/

namespace PictureMarkup

variable {α : Type}

namespace Group

/-- The groups directly inside a group, behind no brush or behind one. -/
inductive Holds (g : Group α) : Nat → Group α → Prop
  | child {h} : .group h ∈ g.children → Holds g 0 h
  | mask {b : VisualBrush α (Group α)} : g.mask = some (.visual b) → Holds g 0 b.visual
  | fill {l} {b : VisualBrush α (Group α)} : .leaf l ∈ g.children →
      l.brush = some (.visual b) → Holds g 1 b.visual
  | stroke {l pen} {b : VisualBrush α (Group α)} : .leaf l ∈ g.children → l.pen = some pen →
      pen.brush = some (.visual b) → Holds g 1 b.visual

/-- The groups that are somewhere in a tree, behind a number of brushes. -/
inductive Shows (root : Group α) : Nat → Group α → Prop
  | root : Shows root 0 root
  | inside {k j g h} : Shows root k g → g.Holds j h → Shows root (k + j) h

/-- A group in a tree is its root, or it is in a tree that the root holds. -/
theorem Shows.eq_or_inside {root h : Group α} {k : Nat} (shows : root.Shows k h) :
    h = root ∨ ∃ j part i, root.Holds j part ∧ part.Shows i h := by
  induction shows with
  | root => exact .inl rfl
  | inside _ holds ih =>
      obtain rfl | ⟨j, part, i, first, shown⟩ := ih
      · exact .inr ⟨_, _, _, holds, .root⟩
      · exact .inr ⟨j, part, _, first, .inside shown holds⟩

mutual

/-- The tree without the brushes that show a tree behind more than a number of brushes. -/
def prune : Nat → Group α → Group α
  | n, ⟨transform, clip, opacity, mask, children⟩ =>
    ⟨transform, clip, opacity, pruneMask n mask, pruneIn n children⟩

/-- A mask is not counted: its drawing is pruned by the same number. -/
def pruneMask : Nat → Option (Brush α (Group α)) → Option (Brush α (Group α))
  | n, some (.visual ⟨tileMode, source, destination, transform, visual⟩) =>
    some (.visual ⟨tileMode, source, destination, transform, prune n visual⟩)
  | _, brush => brush

/-- Some drawings, pruned. -/
def pruneIn : Nat → List (Drawing α (Group α)) → List (Drawing α (Group α))
  | _, [] => []
  | n, d :: ds => pruneOf n d :: pruneIn n ds

/-- A drawing, pruned. -/
def pruneOf : Nat → Drawing α (Group α) → Drawing α (Group α)
  | n, .group g => .group (prune n g)
  | n, .leaf l => .leaf (pruneLeaf n l)

/-- The leaf stays, whatever becomes of its brush and its pen's. -/
def pruneLeaf : Nat → Leaf α (Group α) → Leaf α (Group α)
  | n, ⟨path, brush, pen⟩ => ⟨path, pruneBrush n brush, prunePen n pen⟩

/-- A brush counts: beyond the number it is left out, and within it its drawing is pruned by
one less. -/
def pruneBrush : Nat → Option (Brush α (Group α)) → Option (Brush α (Group α))
  | 0, some (.visual _) => none
  | n + 1, some (.visual ⟨tileMode, source, destination, transform, visual⟩) =>
    some (.visual ⟨tileMode, source, destination, transform, prune n visual⟩)
  | _, brush => brush

/-- A pen stays, also where its brush is left out. -/
def prunePen : Nat → Option (Pen α (Group α)) → Option (Pen α (Group α))
  | _, none => none
  | n, some ⟨brush, thickness, lineCap, lineJoin, miterLimit, dash⟩ =>
    some ⟨pruneBrush n brush, thickness, lineCap, lineJoin, miterLimit, dash⟩

end

/-- What a brush may show of a tree: nothing if no brush is left, and else the tree pruned by
one brush less. -/
def shownBy : Nat → Group α → Option (Group α)
  | 0, _ => none
  | n + 1, g => some (g.prune n)

/-! ## What pruning leaves alone -/

theorem pruneIn_eq_map (n : Nat) (ds : List (Drawing α (Group α))) :
    pruneIn n ds = ds.map (pruneOf n) := by
  induction ds with
  | nil => rfl
  | cons d ds ih => rw [pruneIn, ih, List.map_cons]

/-- What pruning does to each part of a group. -/
theorem prune_mk (n : Nat) (transform : Option (Affine α)) (clip : Option (Path α))
    (opacity : Option α) (mask : Option (Brush α (Group α)))
    (children : List (Drawing α (Group α))) :
    prune n ⟨transform, clip, opacity, mask, children⟩ =
      ⟨transform, clip, opacity, pruneMask n mask, children.map (pruneOf n)⟩ := by
  rw [prune, pruneIn_eq_map]

section

variable (n : Nat) (g : Group α) (l : Leaf α (Group α))

@[simp] theorem prune_mask : (g.prune n).mask = pruneMask n g.mask := by
  cases g
  rfl

@[simp] theorem prune_children : (g.prune n).children = g.children.map (pruneOf n) := by
  cases g
  rw [prune_mk]

@[simp] theorem pruneLeaf_path : (pruneLeaf n l).path = l.path := by
  cases l
  rfl

@[simp] theorem pruneLeaf_brush : (pruneLeaf n l).brush = pruneBrush n l.brush := by
  cases l
  rfl

@[simp] theorem pruneLeaf_pen : (pruneLeaf n l).pen = prunePen n l.pen := by
  cases l
  rfl

end

/-- A brush that shows a tree is kept as long as the number is not used up. -/
theorem pruneBrush_succ_visual (n : Nat) (b : VisualBrush α (Group α)) :
    pruneBrush (n + 1) (some (.visual b)) = some (.visual { b with visual := b.visual.prune n }) :=
  rfl

theorem pruneMask_visual (n : Nat) (b : VisualBrush α (Group α)) :
    pruneMask n (some (.visual b)) = some (.visual { b with visual := b.visual.prune n }) := rfl

theorem prunePen_some (n : Nat) (pen : Pen α (Group α)) :
    prunePen n (some pen) = some { pen with brush := pruneBrush n pen.brush } := rfl

/-- A brush that is left and shows a tree showed that tree before, less one level. -/
theorem eq_of_pruneBrush_visual {n : Nat} {brush : Option (Brush α (Group α))}
    {b : VisualBrush α (Group α)} (h : pruneBrush n brush = some (.visual b)) :
    ∃ m b', n = m + 1 ∧ brush = some (.visual b') ∧ b.visual = b'.visual.prune m := by
  cases brush with
  | none => cases n <;> exact absurd h (by simp [pruneBrush])
  | some brush =>
      cases brush with
      | visual b' =>
          cases n with
          | zero => exact absurd h (by simp [pruneBrush])
          | succ m =>
              rw [pruneBrush_succ_visual] at h
              cases h
              exact ⟨m, b', rfl, rfl, rfl⟩
      | _ => cases n <;> exact absurd h (by simp [pruneBrush])

theorem eq_of_pruneMask_visual {n : Nat} {mask : Option (Brush α (Group α))}
    {b : VisualBrush α (Group α)} (h : pruneMask n mask = some (.visual b)) :
    ∃ b', mask = some (.visual b') ∧ b.visual = b'.visual.prune n := by
  cases mask with
  | none => exact absurd h (by simp [pruneMask])
  | some mask =>
      cases mask with
      | visual b' =>
          rw [pruneMask_visual] at h
          cases h
          exact ⟨b', rfl, rfl⟩
      | _ => exact absurd h (by simp [pruneMask])

theorem eq_of_prunePen {n : Nat} {pen : Option (Pen α (Group α))} {pruned : Pen α (Group α)}
    (h : prunePen n pen = some pruned) :
    ∃ whole, pen = some whole ∧ pruned.brush = pruneBrush n whole.brush := by
  cases pen with
  | none => exact absurd h (by simp [prunePen])
  | some whole =>
      rw [prunePen_some] at h
      cases h
      exact ⟨whole, rfl, rfl⟩

/-- Every leaf of a pruned group is a pruned leaf of the group. -/
theorem leaf_of_mem_prune {n : Nat} {g : Group α} {l : Leaf α (Group α)}
    (member : .leaf l ∈ (g.prune n).children) :
    ∃ l', .leaf l' ∈ g.children ∧ l = pruneLeaf n l' := by
  rw [prune_children, List.mem_map] at member
  obtain ⟨d, member, same⟩ := member
  cases d with
  | group h => exact absurd same (by simp [pruneOf])
  | leaf l' =>
      cases same
      exact ⟨l', member, rfl⟩

theorem group_of_mem_prune {n : Nat} {g h : Group α} (member : .group h ∈ (g.prune n).children) :
    ∃ h', .group h' ∈ g.children ∧ h = h'.prune n := by
  rw [prune_children, List.mem_map] at member
  obtain ⟨d, member, same⟩ := member
  cases d with
  | group h' =>
      cases same
      exact ⟨h', member, rfl⟩
  | leaf l => exact absurd same (by simp [pruneOf])

/-- Every leaf of a group is left when the group is pruned. -/
theorem mem_prune_of_leaf {n : Nat} {g : Group α} {l : Leaf α (Group α)}
    (member : .leaf l ∈ g.children) : .leaf (pruneLeaf n l) ∈ (g.prune n).children := by
  rw [prune_children]
  exact List.mem_map_of_mem (f := pruneOf n) member

theorem mem_prune_of_group {n : Nat} {g h : Group α} (member : .group h ∈ g.children) :
    .group (h.prune n) ∈ (g.prune n).children := by
  rw [prune_children]
  exact List.mem_map_of_mem (f := pruneOf n) member

/-! ## What a pruned tree shows -/

variable {root g : Group α} {n k j : Nat}

/-- What a group holds within the number of brushes, the pruned group still holds. -/
theorem Holds.prune {h : Group α} (holds : g.Holds j h) (within : j ≤ n) :
    (g.prune n).Holds j (h.prune (n - j)) := by
  cases holds with
  | child member => exact .child (mem_prune_of_group member)
  | @mask b mask =>
      refine .mask (b := { b with visual := _ }) ?_
      rw [prune_mask, mask, pruneMask_visual]
      rfl
  | @fill l b member brush =>
      obtain ⟨m, rfl⟩ := Nat.exists_eq_add_of_le' within
      refine .fill (b := { b with visual := _ }) (mem_prune_of_leaf member) ?_
      rw [pruneLeaf_brush, brush, pruneBrush_succ_visual]
      rfl
  | @stroke l pen b member hasPen brush =>
      obtain ⟨m, rfl⟩ := Nat.exists_eq_add_of_le' within
      have kept := prunePen_some (m + 1) pen
      rw [← hasPen, ← pruneLeaf_pen, brush, pruneBrush_succ_visual] at kept
      exact .stroke (mem_prune_of_leaf member) kept rfl

/-- What a pruned group holds, the whole group held, and it was within the number. -/
theorem Holds.of_prune {h : Group α} (holds : (g.prune n).Holds j h) :
    j ≤ n ∧ ∃ h', g.Holds j h' ∧ h = h'.prune (n - j) := by
  cases holds with
  | child member =>
      obtain ⟨h, below, rfl⟩ := group_of_mem_prune member
      exact ⟨Nat.zero_le n, h, .child below, rfl⟩
  | mask pruned =>
      rw [prune_mask] at pruned
      obtain ⟨b, mask, visual⟩ := eq_of_pruneMask_visual pruned
      exact ⟨Nat.zero_le n, b.visual, .mask mask, visual⟩
  | fill member pruned =>
      obtain ⟨l, below, rfl⟩ := leaf_of_mem_prune member
      rw [pruneLeaf_brush] at pruned
      -- a brush that is left was within the number, which is then positive
      obtain ⟨m, b, rfl, brush, visual⟩ := eq_of_pruneBrush_visual pruned
      exact ⟨Nat.le_add_left 1 m, b.visual, .fill below brush, visual⟩
  | stroke member prunedPen pruned =>
      obtain ⟨l, below, rfl⟩ := leaf_of_mem_prune member
      rw [pruneLeaf_pen] at prunedPen
      obtain ⟨pen, hasPen, same⟩ := eq_of_prunePen prunedPen
      rw [same] at pruned
      obtain ⟨m, b, rfl, brush, visual⟩ := eq_of_pruneBrush_visual pruned
      exact ⟨Nat.le_add_left 1 m, b.visual, .stroke below hasPen brush, visual⟩

/-- What a tree shows within the number of brushes, the pruned tree still shows. -/
theorem Shows.prune (shows : root.Shows k g) :
    k ≤ n → (root.prune n).Shows k (g.prune (n - k)) := by
  induction shows with
  | root => exact fun _ => .root
  | @inside k j g h _ holds ih =>
      intro within
      have inner := holds.prune (Nat.le_sub_of_add_le' within)
      rw [Nat.sub_sub] at inner
      exact .inside (ih (Nat.le_of_add_right_le within)) inner

/-- A pruned tree shows nothing behind more than the number of brushes, and nothing that the
whole tree does not show there. -/
theorem Shows.of_prune {h : Group α} (shows : (root.prune n).Shows k h) :
    k ≤ n ∧ ∃ g, root.Shows k g ∧ h = g.prune (n - k) := by
  induction shows with
  | root => exact ⟨Nat.zero_le n, root, .root, rfl⟩
  | @inside k j _ _ _ pruned ih =>
      obtain ⟨within, g, shown, rfl⟩ := ih
      obtain ⟨inner, h, holds, rfl⟩ := pruned.of_prune
      refine ⟨Nat.add_le_of_le_sub' within inner, h, .inside shown holds, ?_⟩
      rw [Nat.sub_sub]

/-- A pruned tree shows what the whole tree shows within the number, pruned by what is left of
it. -/
theorem shows_prune_iff {h : Group α} :
    (root.prune n).Shows k h ↔ k ≤ n ∧ ∃ g, root.Shows k g ∧ h = g.prune (n - k) := by
  refine ⟨Shows.of_prune, ?_⟩
  rintro ⟨within, g, shown, rfl⟩
  exact shown.prune within

end Group

end PictureMarkup
