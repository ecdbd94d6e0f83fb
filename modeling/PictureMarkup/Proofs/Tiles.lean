import PictureMarkup.Proofs.NestedPictures
import PictureMarkup.Proofs.Pruning
import PictureMarkup.Proofs.Replacing

/-!
# What brushes show

The brush of a leaf or of its pen may show a drawing, tile by tile (`Leaf.Tiles`). A statement
about all such brushes in a tree, behind whatever masks and brushes, needs to be shown for the
leaf that a command adds and for nothing else (`Scene.everyTile_convert`). In the tree of a
picture each of these brushes shows the conversion of a picture that is nested in it, from the
bounds of that picture (`Setting.everyTile_scene`).
-/

namespace PictureMarkup

variable {α P : Type}

/-- The leaf or its pen is painted with a brush that shows a drawing. -/
def Leaf.Tiles (l : Leaf α (Group α)) (b : VisualBrush α (Group α)) : Prop :=
  l.brush = some (.visual b) ∨ ∃ pen, l.pen = some pen ∧ pen.brush = some (.visual b)

/-- Every brush that shows a drawing for a leaf or a pen is fine, wherever in the tree. -/
def Group.EveryTile (fine : VisualBrush α (Group α) → Prop) (g : Group α) : Prop :=
  ∀ k h, g.Shows k h → ∀ l, .leaf l ∈ h.children → ∀ b, l.Tiles b → fine b

section

variable {fine : VisualBrush α (Group α) → Prop}

/-- All parts of a content show fine brushes only. -/
structure Content.EveryTile (fine : VisualBrush α (Group α) → Prop) (c : Content α) : Prop where
  groups : ∀ g, .group g ∈ c.children → g.EveryTile fine
  leaves : ∀ l, .leaf l ∈ c.children → ∀ b, l.Tiles b → fine b ∧ b.visual.EveryTile fine
  mask : ∀ b, c.mask = some (.visual b) → b.visual.EveryTile fine

namespace Content

variable {c d : Content α}

theorem everyTile_empty : (empty : Content α).EveryTile fine where
  groups _ member := absurd member List.not_mem_nil
  leaves _ member := absurd member List.not_mem_nil
  mask _ same := absurd same (by simp [empty])

theorem EveryTile.append (first : c.EveryTile fine) (later : d.EveryTile fine) :
    (c ++ d).EveryTile fine where
  groups g member := (List.mem_append.mp member).elim (first.groups g) (later.groups g)
  leaves l member := (List.mem_append.mp member).elim (first.leaves l) (later.leaves l)
  mask b same := (Option.or_eq_some_iff.mp same).elim (later.mask b) fun h => first.mask b h.2

theorem everyTile_leaf {l : Leaf α (Group α)}
    (tiles : ∀ b, l.Tiles b → fine b ∧ b.visual.EveryTile fine) :
    (one (.leaf l)).EveryTile fine where
  groups _ member := absurd (List.mem_singleton.mp member) (by simp)
  leaves _ member := by
    cases List.mem_singleton.mp member
    exact tiles
  mask _ same := absurd same (by simp [one])

theorem everyTile_group {g : Group α} (tiles : g.EveryTile fine) :
    (one (.group g)).EveryTile fine where
  groups _ member := by
    cases List.mem_singleton.mp member
    exact tiles
  leaves _ member := absurd (List.mem_singleton.mp member) (by simp)
  mask _ same := absurd same (by simp [one])

/-- Whatever a group carries besides its content. -/
theorem EveryTile.fill (tiles : c.EveryTile fine) {g : Group α} (children : g.children = c.children)
    (mask : g.mask = c.mask) : g.EveryTile fine := by
  intro k h shows l member b tiled
  rcases shows.eq_or_inside with rfl | ⟨j, part, i, holds, shown⟩
  · exact (tiles.leaves l (children ▸ member) b tiled).1
  · have inside : part.EveryTile fine := by
      cases holds with
      | child below => exact tiles.groups part (children ▸ below)
      | mask same => exact tiles.mask _ (mask ▸ same)
      | fill below brush => exact (tiles.leaves _ (children ▸ below) _ (.inl brush)).2
      | stroke below hasPen brush =>
          exact (tiles.leaves _ (children ▸ below) _ (.inr ⟨_, hasPen, brush⟩)).2
    exact inside i h shown l member b tiled

theorem EveryTile.asLayer [Scalar α] (tiles : c.EveryTile fine) (options : Options)
    (kind : LayerKind) : (c.asLayer options kind).EveryTile fine := by
  cases kind with
  | maskGroup =>
      simp only [Content.asLayer]
      split
      · exact tiles
      · exact everyTile_group (tiles.fill rfl rfl)
  | maskBrush =>
      simp only [Content.asLayer]
      split
      · exact everyTile_empty
      · -- a mask shows the content of its layer
        refine { groups := ?_, leaves := ?_, mask := ?_ }
        · exact fun _ member => absurd member List.not_mem_nil
        · exact fun _ member => absurd member List.not_mem_nil
        · intro b same
          cases same
          exact tiles.fill rfl rfl
  | opacity alpha =>
      simp only [Content.asLayer]
      split
      · exact tiles
      · exact everyTile_group (tiles.fill rfl rfl)
  | filter => exact tiles
  | unknown => exact tiles

end Content

/-- The leaf of an action shows fine brushes only. -/
def Action.EveryTile (fine : VisualBrush α (Group α) → Prop) : Action α → Prop
  | .add l => ∀ b, l.Tiles b → fine b ∧ b.visual.EveryTile fine
  | _ => True

theorem Block.everyTile_translate [Scalar α] (options : Options) {b : Block α}
    (tiles : b.Every (Action.EveryTile fine)) :
    ∀ ts, (b.translate options ts).EveryTile fine := by
  induction b with
  | done => exact fun _ => Content.everyTile_empty
  | add l rest ih => exact fun ts => (Content.everyTile_leaf tiles.1).append (ih tiles.2 ts)
  | clip c rest ih => exact fun ts => Content.everyTile_group ((ih tiles.2 ts).fill rfl rfl)
  | matrix m rest ih =>
      intro ts
      unfold translate
      split
      · exact ih tiles.2 ts
      · exact Content.everyTile_group ((ih tiles.2 _).fill rfl rfl)
  | scope layer body rest ihBody ihRest =>
      intro ts
      refine Content.EveryTile.append ?_ (ihRest tiles.2.2 ts)
      cases layer with
      | none => exact ihBody tiles.2.1 ts
      | some kind => exact (ihBody tiles.2.1 ts).asLayer options kind

end

/-- A picture that is nested in a picture, at any depth. -/
inductive Picture.Nests (p : Picture α) : Picture α → Prop
  | here : Nests p p
  | inside {q r c} : Nests p q → c ∈ q.commands → c.picture? = some r → Nests p r

variable [Scalar α]

namespace Scene

/-- A leaf shows nothing but the picture in its paint, from the bounds of that picture. -/
theorem tiles_leaf {s : Scene α P} {path : Path α} {paint : Paint α P}
    {b : VisualBrush α (Group α)} (tiled : (s.leaf path paint).Tiles b) :
    ∃ q, paint.shader.bind Shader.picture? = some q ∧ s.visual q = some b.visual ∧
      b.source = some (s.cullRect q) := by
  -- the brush of an area and that of a pen come from the same shader
  have shown : ∀ shader, s.brush (s.bounds path) shader = some (.visual b) →
      ∃ q, shader.picture? = some q ∧ s.visual q = some b.visual ∧
        b.source = some (s.cullRect q) := by
    intro shader same
    cases shader with
    | color c => exact absurd same (by simp [brush])
    | gradient kind extend stops matrix =>
        cases kind <;> exact absurd same (by simp [brush, GradientKind.brush])
    | picture picture tile extend matrix =>
        obtain ⟨visual, drawn, form⟩ := Option.map_eq_some_iff.mp same
        cases form
        exact ⟨picture, rfl, drawn, rfl⟩
  unfold leaf at tiled
  rcases tiled with same | ⟨pen, hasPen, same⟩
  · simp only at same
    split at same
    · obtain ⟨shader, present, same⟩ := Option.bind_eq_some_iff.mp same
      rw [present]
      exact shown shader same
    · exact absurd same (by simp)
  · simp only at hasPen
    split at hasPen
    · obtain ⟨shader, present, rfl⟩ := Option.map_eq_some_iff.mp hasPen
      rw [present]
      exact shown shader same
    · exact absurd hasPen (by simp)

/-- A command adds no brush but one that shows the picture in the command's paint. -/
theorem everyTile_action {s : Scene α P} {fine : VisualBrush α (Group α) → Prop}
    {c : Command α P} (nested : ∀ q, c.picture? = some q → ∀ b : VisualBrush α (Group α),
      s.visual q = some b.visual → b.source = some (s.cullRect q) →
        fine b ∧ b.visual.EveryTile fine) : (s.action c).EveryTile fine := by
  have draw : ∀ path paint, (∀ q, paint.shader.bind Shader.picture? = some q →
      ∀ b : VisualBrush α (Group α), s.visual q = some b.visual →
        b.source = some (s.cullRect q) → fine b ∧ b.visual.EveryTile fine) →
      (s.drawing path paint).EveryTile fine := by
    intro path paint nested
    unfold drawing
    split
    · exact trivial
    · intro b tiled
      obtain ⟨q, inPaint, drawn, source⟩ := tiles_leaf tiled
      exact nested q inPaint b drawn source
  have clip : ∀ e, (s.clipping e).EveryTile fine := by
    intro e
    unfold clipping
    split <;> exact trivial
  cases c with
  | clipPath path combine antialias => exact clip _
  | clipRect rect combine antialias => exact clip _
  | drawPath path paint => exact draw path paint nested
  | drawText text origin paint =>
      simp only [action]
      cases s.glyphs text origin paint with
      | none => exact trivial
      | some elements => exact draw { elements } paint nested
  | _ => exact trivial

theorem everyTile_convert {s : Scene α P} {fine : VisualBrush α (Group α) → Prop}
    {commands : List (Command α P)} (nested : ∀ c ∈ commands, ∀ q, c.picture? = some q →
      ∀ b : VisualBrush α (Group α), s.visual q = some b.visual →
        b.source = some (s.cullRect q) → fine b ∧ b.visual.EveryTile fine) (bounds : Rect α) :
    (s.convert bounds commands).EveryTile fine := by
  have actions : ∀ a ∈ commands.map s.action, a.EveryTile fine := by
    intro a member
    obtain ⟨c, inside, rfl⟩ := List.mem_map.mp member
    exact everyTile_action (nested c inside)
  have block := Block.everyTile_translate s.options (Action.every_nest_matched actions 0) []
  have background : (Content.background s.options bounds).EveryTile fine := by
    unfold Content.background
    split
    · refine Content.everyTile_leaf fun b tiled => ?_
      rcases tiled with same | ⟨pen, hasPen, -⟩
      · exact absurd same (by simp)
      · exact absurd hasPen (by simp)
    · exact Content.everyTile_empty
  rw [convert_eq_translation]
  exact (background.append block).fill rfl rfl

end Scene

namespace Setting

/-- The brush shows the conversion of a picture that is nested in another. -/
def ShowsNested (s : Setting α) (p : Picture α) (b : VisualBrush α (Group α)) : Prop :=
  ∃ q levels, p.Nests q ∧ s.visual levels q = some b.visual ∧ b.source = some q.cullRect

theorem everyTile_scene (s : Setting α) {p : Picture α} (levels : Nat) :
    ∀ q, p.Nests q →
      ((s.scene (s.visual levels)).convert q.cullRect q.commands).EveryTile (s.ShowsNested p) := by
  induction levels with
  | zero =>
      intro q _
      refine Scene.everyTile_convert (fun c _ r _ b shown => ?_) _
      exact absurd shown (by simp [scene, visual])
  | succ levels ih =>
      intro q nests
      refine Scene.everyTile_convert (fun c member r inPaint b shown source => ?_) _
      have inner := nests.inside member inPaint
      refine ⟨⟨r, levels + 1, inner, shown, source⟩, ?_⟩
      rw [← Option.some.inj shown]
      exact ih r inner

end Setting

end PictureMarkup
