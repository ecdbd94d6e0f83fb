import PictureMarkup.Proofs.NestedPictures
import PictureMarkup.Proofs.Visuals

/-!
# The limit on nesting only prunes

Only so many pictures are followed inside each other. Without the limit the conversion
follows them all, which ends because a picture nests fewer levels than the picture around it
(`Setting.unlimited`). The tree of the limited conversion is that tree pruned: what would be
shown behind more brushes than the limit is left out, brush by brush, and all else stays
(`Setting.convert_prunes`). Masks are followed without being counted, in the conversion as
well as in the pruning.

Two conversions with the same commands differ in their leaves only, and a leaf that shows
less is the leaf that shows all, pruned (`Group.pruneLeaf_eq`). So the pruning of one block is
the pruning of its leaves (`Block.translate_prune`), and it is carried down the levels, for any
number of them.
-/

namespace PictureMarkup

variable {α P : Type}

open PictureMarkup.Group

/-! ## Pruning a content -/

namespace Group

theorem pruneBrush_eq (n : Nat) (brush : Option (Brush α (Group α))) :
    pruneBrush n brush = brush.bind (Brush.onVisual (shownBy n)) := by
  rcases brush with _ | (_ | _ | _ | _) <;> cases n <;> rfl

/-- Pruning a leaf is pruning what its brushes show, one level less. -/
theorem pruneLeaf_eq (n : Nat) :
    (pruneLeaf n : Leaf α (Group α) → Leaf α (Group α)) = Leaf.onVisuals (shownBy n) := by
  funext l
  obtain ⟨path, brush, pen⟩ := l
  rw [pruneLeaf, pruneBrush_eq]
  cases pen with
  | none => rfl
  | some pen =>
      rw [prunePen_some, pruneBrush_eq]
      rfl

theorem pruneOf_eq (n : Nat) (d : Drawing α (Group α)) :
    pruneOf n d = d.onParts (pruneLeaf n) (prune n) := by
  cases d <;> rfl

theorem pruneMask_eq (n : Nat) (mask : Option (Brush α (Group α))) :
    pruneMask n mask = mask.bind (Brush.onVisual fun visual => some (prune n visual)) := by
  rcases mask with _ | (_ | _ | _ | _) <;> rfl

/-- Pruning reaches masks, leaves and groups, and leaves alone what a group carries itself. -/
theorem prune_partByPart (n : Nat) :
    PartByPart (pruneLeaf n) (prune n : Group α → Group α) := by
  intro g
  obtain ⟨transform, clip, opacity, mask, children⟩ := g
  rw [prune_mk, pruneMask_eq, List.map_congr_left fun d _ => pruneOf_eq n d]

end Group

/-- A content with everything in it pruned. -/
def Content.prune (n : Nat) (c : Content α) : Content α where
  children := c.children.map (pruneOf n)
  mask := pruneMask n c.mask

namespace Content

variable (n : Nat)

theorem onParts_prune (c : Content α) :
    c.onParts (pruneLeaf n) (Group.prune n) = c.prune n := by
  rw [onParts, prune, pruneMask_eq, List.map_congr_left fun d _ => pruneOf_eq n d]

theorem prune_append (c d : Content α) : (c ++ d).prune n = c.prune n ++ d.prune n := by
  simp only [← onParts_prune, onParts_append]

theorem prune_group (c : Content α) : c.group.prune n = (c.prune n).group := prune_mk n _ _ _ _ _

theorem prune_background (options : Options) (bounds : Rect α) :
    (background options bounds).prune n = background options bounds := by
  unfold background
  split
  · cases n <;> rfl
  · rfl

end Content

variable [Scalar α]

/-- A block with pruned leaves adds what the block adds, pruned. -/
theorem Block.translate_prune (options : Options) (n : Nat) (b : Block α) (ts : List (Affine α)) :
    (b.replace (pruneLeaf n) id).translate options ts = (b.translate options ts).prune n := by
  rw [Block.translate_onParts (prune_partByPart n), Content.onParts_prune]

/-! ## A scene that shows less -/

namespace Scene

/-- The scene in which every nested picture is shown by a tree. -/
def showing (s : Scene α P) (whole : P → Group α) : Scene α P :=
  { s with visual := fun q => some (whole q) }

/-- Showing less of the nested pictures is pruning the tree that shows all of them. -/
theorem convert_prune {s : Scene α P} {whole : P → Group α} {n : Nat}
    (shown : ∀ q, s.visual q = (whole q).shownBy n) (bounds : Rect α)
    (commands : List (Command α P)) :
    s.convert bounds commands = ((s.showing whole).convert bounds commands).prune n := by
  have shows : ShowsFor (shownBy n) (s.showing whole) s := ⟨rfl, rfl, rfl, rfl, rfl, shown⟩
  rw [convert_eq_translation, convert_eq_translation, translation, translation, shows.nest,
    ← pruneLeaf_eq, Block.translate_prune, Content.prune_group, Content.prune_append,
    Content.prune_background]
  rfl

end Scene

namespace Setting

/-- The conversion that follows every picture nested in a picture. -/
def unlimited (s : Setting α) (p : Picture α) : Group α :=
  (s.scene fun q => if q.levels < p.levels then some (s.unlimited q) else none).convert
    p.cullRect p.commands
termination_by p.levels

/-- The conversion without a limit shows every nested picture by its own conversion without a
limit. -/
theorem unlimited_eq (s : Setting α) (p : Picture α) :
    s.unlimited p = (s.scene fun q => some (s.unlimited q)).convert p.cullRect p.commands := by
  rw [unlimited]
  refine (s.scene fun q => some (s.unlimited q)).convert_congr _ p.cullRect ?_
  intro c member q shown
  exact if_pos (Picture.levels_lt member shown)

/-- What a nested picture shows, with some levels left, is its unlimited tree as far as these
levels go. -/
theorem visual_eq_shownBy (s : Setting α) (levels : Nat) :
    ∀ p, s.visual levels p = (s.unlimited p).shownBy levels := by
  induction levels with
  | zero => exact fun _ => rfl
  | succ levels ih =>
      intro p
      rw [visual, Scene.convert_prune ih, unlimited_eq s p]
      rfl

/-- Levels that are not used up make no difference. -/
theorem visual_of_levels_lt (s : Setting α) (levels : Nat) :
    ∀ p, p.levels < levels → s.visual levels p = some (s.unlimited p) := by
  induction levels with
  | zero => exact fun p within => absurd within (Nat.not_lt_zero _)
  | succ levels ih =>
      intro p within
      rw [visual, unlimited_eq s p]
      refine congrArg some ((s.scene fun q => some (s.unlimited q)).convert_congr _ p.cullRect ?_)
      intro c member q shown
      exact ih q (Nat.lt_of_lt_of_le (Picture.levels_lt member shown) (Nat.le_of_lt_succ within))

/-- A picture that nests no deeper than the limit loses nothing. -/
theorem convert_of_levels_le (s : Setting α) {p : Picture α} (within : p.levels ≤ maximumNesting) :
    s.convert p = s.unlimited p := by
  rw [unlimited_eq]
  refine (s.scene fun q => some (s.unlimited q)).convert_congr _ p.cullRect ?_
  intro c member q shown
  exact s.visual_of_levels_lt _ q (Nat.lt_of_lt_of_le (Picture.levels_lt member shown) within)

theorem convert_eq_prune (s : Setting α) (p : Picture α) :
    s.convert p = (s.unlimited p).prune maximumNesting := by
  rw [unlimited_eq]
  exact Scene.convert_prune (s.visual_eq_shownBy maximumNesting) p.cullRect p.commands

/-- **The limit only prunes.** The conversion of a picture is the conversion without a limit,
with the brushes that would show a picture beyond the limit left out and nothing else changed.
So nothing is shown behind more brushes than the limit, a picture that nests no deeper loses
nothing, and wherever the unlimited tree shows a group within the limit, the converted tree
shows that group with all its leaves and their pens. -/
theorem convert_prunes (s : Setting α) (p : Picture α) :
    (∀ q, s.unlimited q =
        (s.scene fun r => some (s.unlimited r)).convert q.cullRect q.commands) ∧
      s.convert p = (s.unlimited p).prune maximumNesting ∧
      (∀ k g, (s.convert p).Shows k g → k ≤ maximumNesting) ∧
      (p.levels ≤ maximumNesting → s.convert p = s.unlimited p) ∧
      ∀ k ≤ maximumNesting, ∀ g, (s.unlimited p).Shows k g →
        (s.convert p).Shows k (g.prune (maximumNesting - k)) ∧
          ∀ l, .leaf l ∈ g.children → ∃ l', .leaf l' ∈ (g.prune (maximumNesting - k)).children ∧
            l'.path = l.path ∧ l'.pen.isSome = l.pen.isSome := by
  have pruned := s.convert_eq_prune p
  refine ⟨s.unlimited_eq, pruned, ?_, s.convert_of_levels_le, ?_⟩
  · intro k g shown
    rw [pruned] at shown
    exact (shows_prune_iff.mp shown).1
  · intro k within g shown
    rw [pruned]
    have kept := shows_prune_iff.mpr ⟨within, g, shown, rfl⟩
    refine ⟨kept, fun l member => ?_⟩
    refine ⟨_, mem_prune_of_leaf member, pruneLeaf_path _ l, ?_⟩
    rw [pruneLeaf_pen]
    cases l.pen <;> rfl

end Setting

end PictureMarkup
