import PictureMarkup.Proofs.NestedPictures
import PictureMarkup.Proofs.Pruning
import PictureMarkup.Proofs.Replacing

/-!
# What every group of a tree looks like

The tree of a picture is not an arbitrary one. Each of its groups, in whatever mask or brush
it is shown, carries at most one of a transform, a clip and an opacity, and the roots of the
tree, of its masks and of its brushes carry none. A transform is one that makes a difference,
an opacity is a fraction of 255, masks and the drawings in brushes have the form that the
conversion gives them, every leaf has something to draw, and what the options ignore is
nowhere (`Group.Sound`).

A group is sound deep down (`Group.SoundBelow`) if it is sound and so is everything in it. The
proof runs over one block: whatever a sound content is wrapped in, when its frame is left or
its layer is combined, is sound again (`Block.soundBelow_translate`). Then it runs down the
levels of nested pictures.
-/

namespace PictureMarkup

variable {α P : Type}

namespace Group

/-- The group carries neither a transform nor a clip nor an opacity. -/
structure Bare (g : Group α) : Prop where
  transform : g.transform = none
  clip : g.clip = none
  opacity : g.opacity = none

end Group

theorem Content.group_bare (c : Content α) : c.group.Bare := ⟨rfl, rfl, rfl⟩

/-- A drawing in a brush that was made from a picture: both rectangles are given, the mode is
not spelled out where nothing repeats, and the root of the drawing is bare. -/
structure VisualBrush.Tiled (b : VisualBrush α (Group α)) : Prop where
  source : b.source.isSome
  destination : b.destination.isSome
  tileMode : b.tileMode ≠ some .none
  visual : b.visual.Bare

/-- Only a colour that is not opaque fades a layer. -/
theorem LayerKind.lt_of_classify {paint : Option (Paint α P)} {alpha : UInt8}
    (h : classify paint = .opacity alpha) : alpha < 255 := by
  cases paint with
  | none => exact absurd h (by simp [classify])
  | some paint =>
      simp only [classify] at h
      grind

/-- A leaf has something to draw, and a brush of it that shows a picture says how it is tiled. -/
structure Leaf.Sound (l : Leaf α (Group α)) : Prop where
  drawable : ∃ e ∈ l.path.elements, e.isDrawable
  fill : ∀ b, l.brush = some (.visual b) → b.Tiled
  stroke : ∀ pen b, l.pen = some pen → pen.brush = some (.visual b) → b.Tiled

namespace Group

variable [Scalar α]

/-- What a group carries itself. -/
structure Styled (options : Options) (g : Group α) : Prop where
  single : (g.transform = none ∧ g.clip = none) ∨ (g.transform = none ∧ g.opacity = none) ∨
    (g.clip = none ∧ g.opacity = none)
  transform : ∀ t, g.transform = some t → t.isIdentity = false
  opacity : ∀ o, g.opacity = some o → ∃ k ≤ 254, o = Scalar.ratio k 255
  clips : options.ignoreClips = true → g.clip = none
  opacities : options.ignoreOpacity = true → g.opacity = none

/-- What a group of a converted picture looks like. -/
structure Sound (options : Options) (g : Group α) : Prop extends g.Styled options where
  /-- A mask shows a bare drawing as it stands. -/
  mask : ∀ b, g.mask = some b → ∃ content : Group α, content.Bare ∧
    b = .visual ⟨some .none, none, none, none, content⟩
  masks : options.ignoreMask = true → g.mask = none
  leaves : ∀ l, .leaf l ∈ g.children → l.Sound

/-- Everything that a group shows is sound, the group itself included. -/
def SoundBelow (options : Options) (g : Group α) : Prop := ∀ k h, g.Shows k h → h.Sound options

variable {options : Options}

theorem SoundBelow.of_holds {g : Group α} (sound : g.Sound options)
    (inside : ∀ j h, g.Holds j h → h.SoundBelow options) : g.SoundBelow options := by
  intro k h shows
  obtain rfl | ⟨j, sub, i, holds, shown⟩ := shows.eq_or_inside
  · exact sound
  · exact inside j sub holds i h shown

end Group

/-- A leaf is sound and so is everything that its brushes show. -/
structure Leaf.SoundBelow [Scalar α] (options : Options) (l : Leaf α (Group α)) : Prop
    extends l.Sound where
  filled : ∀ b, l.brush = some (.visual b) → b.visual.SoundBelow options
  stroked : ∀ pen b, l.pen = some pen → pen.brush = some (.visual b) →
    b.visual.SoundBelow options

variable [Scalar α] {options : Options}

/-! ## Sound contents -/

namespace Content

/-- A content whose parts are sound deep down. -/
structure SoundBelow (options : Options) (c : Content α) : Prop where
  groups : ∀ g, .group g ∈ c.children → g.SoundBelow options
  leaves : ∀ l, .leaf l ∈ c.children → l.SoundBelow options
  mask : ∀ b, c.mask = some b → ∃ content : Group α, content.Bare ∧
    content.SoundBelow options ∧ b = .visual ⟨some .none, none, none, none, content⟩
  masks : options.ignoreMask = true → c.mask = none

variable {c d : Content α}

theorem soundBelow_empty : (empty : Content α).SoundBelow options where
  groups _ member := absurd member List.not_mem_nil
  leaves _ member := absurd member List.not_mem_nil
  mask _ same := absurd same (by simp [empty])
  masks _ := rfl

theorem SoundBelow.append (first : c.SoundBelow options) (later : d.SoundBelow options) :
    (c ++ d).SoundBelow options where
  groups g member := (List.mem_append.mp member).elim (first.groups g) (later.groups g)
  leaves l member := (List.mem_append.mp member).elim (first.leaves l) (later.leaves l)
  mask b same := (Option.or_eq_some_iff.mp same).elim (later.mask b) fun h => first.mask b h.2
  masks ignored := Option.or_eq_none_iff.mpr ⟨later.masks ignored, first.masks ignored⟩

theorem soundBelow_leaf {l : Leaf α (Group α)} (sound : l.SoundBelow options) :
    (one (.leaf l)).SoundBelow options where
  groups _ member := absurd (List.mem_singleton.mp member) (by simp)
  leaves _ member := by
    cases List.mem_singleton.mp member
    exact sound
  mask _ same := absurd same (by simp [one])
  masks _ := rfl

theorem soundBelow_group {g : Group α} (sound : g.SoundBelow options) :
    (one (.group g)).SoundBelow options where
  groups _ member := by
    cases List.mem_singleton.mp member
    exact sound
  leaves _ member := absurd (List.mem_singleton.mp member) (by simp)
  mask _ same := absurd same (by simp [one])
  masks _ := rfl

/-- A group that holds a sound content and carries what a group may carry is sound deep down. -/
theorem SoundBelow.fill (sound : c.SoundBelow options) {g : Group α}
    (styled : g.Styled options) (children : g.children = c.children) (mask : g.mask = c.mask) :
    g.SoundBelow options := by
  refine Group.SoundBelow.of_holds { toStyled := styled, mask := ?_, masks := ?_, leaves := ?_ } ?_
  · intro b same
    obtain ⟨content, bare, -, form⟩ := sound.mask b (mask ▸ same)
    exact ⟨content, bare, form⟩
  · exact fun ignored => mask.trans (sound.masks ignored)
  · exact fun l member => (sound.leaves l (children ▸ member)).toSound
  · intro j h holds
    cases holds with
    | child member => exact sound.groups h (children ▸ member)
    | mask same =>
        obtain ⟨content, -, below, form⟩ := sound.mask _ (mask ▸ same)
        cases form
        exact below
    | fill member brush => exact (sound.leaves _ (children ▸ member)).filled _ brush
    | stroke member hasPen brush =>
        exact (sound.leaves _ (children ▸ member)).stroked _ _ hasPen brush

end Content

theorem Group.Bare.styled {g : Group α} (bare : g.Bare) : g.Styled options where
  single := .inl ⟨bare.transform, bare.clip⟩
  transform t same := absurd (bare.transform.symm.trans same) (by simp)
  opacity o same := absurd (bare.opacity.symm.trans same) (by simp)
  clips _ := bare.clip
  opacities _ := bare.opacity

theorem Content.SoundBelow.group {c : Content α} (sound : c.SoundBelow options) :
    c.group.SoundBelow options := sound.fill c.group_bare.styled rfl rfl

/-- What a layer amounts to is sound if its content is and its opacity is one. -/
theorem Content.SoundBelow.asLayer {c : Content α} (sound : c.SoundBelow options)
    {kind : LayerKind} (fades : ∀ alpha, kind = .opacity alpha → alpha < 255) :
    (c.asLayer options kind).SoundBelow options := by
  cases kind with
  | maskGroup =>
      cases h : options.ignoreMask
      · simp only [Content.asLayer, h, Bool.false_eq_true, if_false]
        -- a plain group around a content that was sound
        exact soundBelow_group sound.group
      · simp only [Content.asLayer, h, if_true]
        exact sound
  | maskBrush =>
      cases h : options.ignoreMask
      · simp only [Content.asLayer, h, Bool.false_eq_true, if_false]
        refine { groups := ?_, leaves := ?_, mask := ?_, masks := ?_ }
        · exact fun _ member => absurd member List.not_mem_nil
        · exact fun _ member => absurd member List.not_mem_nil
        · -- the content turns into the drawing of the mask
          intro b same
          cases same
          exact ⟨c.group, c.group_bare, sound.group, rfl⟩
        · exact fun ignored => absurd (h.symm.trans ignored) Bool.false_ne_true
      · simp only [Content.asLayer, h, if_true]
        exact soundBelow_empty
  | opacity alpha =>
      cases h : options.ignoreOpacity
      · simp only [Content.asLayer, h, Bool.false_eq_true, if_false]
        -- the group of a fading layer carries its opacity and nothing else
        refine soundBelow_group (sound.fill ?_ rfl rfl)
        refine { single := .inl ⟨rfl, rfl⟩, transform := ?_, opacity := ?_, clips := ?_,
                 opacities := ?_ }
        · exact fun _ same => absurd same (by simp [Content.group])
        · intro o same
          have small : alpha.toNat < 255 := fades alpha rfl
          exact ⟨alpha.toNat, Nat.le_of_lt_succ small, (Option.some.inj same).symm⟩
        · exact fun _ => rfl
        · exact fun ignored => absurd (h.symm.trans ignored) Bool.false_ne_true
      · simp only [Content.asLayer, h, if_true]
        exact sound
  | filter => exact sound
  | unknown => exact sound

/-! ## Sound blocks -/

/-- An action of a kind that a picture asks for under some options, with a sound leaf. -/
def Action.SoundIn (options : Options) : Action α → Prop
  | .add l => l.SoundBelow options
  | .clip _ => options.ignoreClips = false
  | .enter (some kind) => ∀ alpha, kind = .opacity alpha → alpha < 255
  | _ => True

theorem Affine.isIdentity_of_opening {ts : List (Affine α)} {matrix t : Affine α}
    (h : matrix.opening ts = some t) : t.isIdentity = false := by
  unfold opening at h
  split at h
  · exact absurd h (by simp)
  · rename_i visible
    cases h
    rw [Bool.or_eq_true, not_or] at visible
    exact eq_false_of_ne_true visible.2

/-- What a block of such actions adds is sound. -/
theorem Block.soundBelow_translate {b : Block α} (sound : b.Every (Action.SoundIn options)) :
    ∀ ts, (b.translate options ts).SoundBelow options := by
  induction b with
  | done => exact fun _ => Content.soundBelow_empty
  | add l rest ih => exact fun ts => (Content.soundBelow_leaf sound.1).append (ih sound.2 ts)
  | clip c rest ih =>
      intro ts
      -- a clip that opens a group is one that is not ignored
      refine Content.soundBelow_group ((ih sound.2 ts).fill ?_ rfl rfl)
      refine { single := .inr (.inl ⟨rfl, rfl⟩), transform := ?_, opacity := ?_, clips := ?_,
               opacities := ?_ }
      · exact fun _ same => absurd same (by simp [Content.group])
      · exact fun _ same => absurd same (by simp [Content.group])
      · exact fun ignored => absurd (Eq.symm sound.1 |>.trans ignored) Bool.false_ne_true
      · exact fun _ => rfl
  | matrix m rest ih =>
      intro ts
      cases opening : m.opening ts with
      | none =>
          rw [translate_matrix_of_no_opening options opening]
          exact ih sound.2 ts
      | some t =>
          rw [translate_matrix_of_opening options opening]
          refine Content.soundBelow_group ((ih sound.2 _).fill ?_ rfl rfl)
          refine { single := .inr (.inr ⟨rfl, rfl⟩), transform := ?_, opacity := ?_, clips := ?_,
                   opacities := ?_ }
          · intro t' same
            cases same
            -- a transform that is close to the identity opens no group
            exact Affine.isIdentity_of_opening opening
          · exact fun _ same => absurd same (by simp [Content.group])
          · exact fun _ => rfl
          · exact fun _ => rfl
  | scope layer body rest ihBody ihRest =>
      intro ts
      refine Content.SoundBelow.append ?_ (ihRest sound.2.2 ts)
      cases layer with
      | none => exact ihBody sound.2.1 ts
      | some kind => exact (ihBody sound.2.1 ts).asLayer sound.1

/-! ## Sound pictures -/

namespace Scene

/-- Every nested picture that is shown is shown by a bare and sound tree. -/
def ShowsSound (s : Scene α P) : Prop :=
  ∀ q g, s.visual q = some g → g.Bare ∧ g.SoundBelow s.options

variable {s : Scene α P}

theorem brush_sound (sound : s.ShowsSound) {bounds : Rect α} {shader : Shader α P}
    {b : VisualBrush α (Group α)} (h : s.brush bounds shader = some (.visual b)) :
    b.Tiled ∧ b.visual.SoundBelow s.options := by
  cases shader with
  | color c => exact absurd h (by simp [brush])
  | gradient kind extend stops matrix =>
      cases kind <;> exact absurd h (by simp [brush, GradientKind.brush])
  | picture picture tile extend matrix =>
      obtain ⟨g, shown, form⟩ := Option.map_eq_some_iff.mp h
      obtain ⟨bare, below⟩ := sound picture g shown
      cases form
      refine ⟨⟨rfl, rfl, ?_, bare⟩, below⟩
      show (if TileMode.ofExtend extend = .none then none else some (TileMode.ofExtend extend)) ≠
        some .none
      split
      · simp
      · rename_i repeats
        exact fun same => repeats (Option.some.inj same)

theorem leaf_soundBelow (sound : s.ShowsSound) {path : Path α} (drawn : path.isEmpty = false)
    (paint : Paint α P) : (s.leaf path paint).SoundBelow s.options := by
  have drawable : ∃ e ∈ path.elements, e.isDrawable := by
    obtain ⟨e, member, draws⟩ := List.all_eq_false.mp drawn
    exact ⟨e, member, by simpa using draws⟩
  have fill : ∀ b, (s.leaf path paint).brush = some (.visual b) →
      b.Tiled ∧ b.visual.SoundBelow s.options := by
    intro b h
    unfold leaf at h
    simp only at h
    split at h
    · obtain ⟨shader, -, h⟩ := Option.bind_eq_some_iff.mp h
      exact brush_sound sound h
    · exact absurd h (by simp)
  have stroke : ∀ pen b, (s.leaf path paint).pen = some pen → pen.brush = some (.visual b) →
      b.Tiled ∧ b.visual.SoundBelow s.options := by
    intro pen b hasPen h
    unfold leaf at hasPen
    simp only at hasPen
    split at hasPen
    · obtain ⟨shader, -, rfl⟩ := Option.map_eq_some_iff.mp hasPen
      exact brush_sound sound h
    · exact absurd hasPen (by simp)
  exact ⟨⟨drawable, fun b h => (fill b h).1, fun pen b hasPen h => (stroke pen b hasPen h).1⟩,
    fun b h => (fill b h).2, fun pen b hasPen h => (stroke pen b hasPen h).2⟩

theorem action_soundIn (sound : s.ShowsSound) (c : Command α P) :
    (s.action c).SoundIn s.options := by
  have clip : ∀ e, (s.clipping e).SoundIn s.options := by
    intro e
    unfold clipping
    split
    · exact trivial
    · rename_i kept
      exact eq_false_of_ne_true kept
  have draw : ∀ path paint, (s.drawing path paint).SoundIn s.options := by
    intro path paint
    unfold drawing
    split
    · exact trivial
    · rename_i drawn
      exact leaf_soundBelow sound (eq_false_of_ne_true drawn) paint
  cases c with
  | clipPath path combine antialias => exact clip _
  | clipRect rect combine antialias => exact clip _
  | saveLayer paint => exact fun alpha => LayerKind.lt_of_classify
  | drawPath path paint => exact draw path paint
  | drawText text origin paint =>
      simp only [action]
      cases s.glyphs text origin paint with
      | none => exact trivial
      | some elements => exact draw { elements } paint
  | _ => exact trivial

theorem background_soundBelow (options : Options) (bounds : Rect α) :
    (Content.background options bounds).SoundBelow options := by
  unfold Content.background
  split
  · refine Content.soundBelow_leaf ⟨⟨?_, ?_, ?_⟩, ?_, ?_⟩
    · exact ⟨_, .tail _ (.head _), rfl⟩
    all_goals simp
  · exact Content.soundBelow_empty

/-- The root of a picture is bare, and everything in its tree is sound. -/
theorem convert_bare_and_below (sound : s.ShowsSound) (bounds : Rect α)
    (commands : List (Command α P)) :
    (s.convert bounds commands).Bare ∧ (s.convert bounds commands).SoundBelow s.options := by
  have actions : ∀ a ∈ commands.map s.action, a.SoundIn s.options := by
    intro a member
    obtain ⟨c, -, rfl⟩ := List.mem_map.mp member
    exact action_soundIn sound c
  have block := Block.soundBelow_translate (Action.every_nest_matched actions 0) []
  rw [convert_eq_translation]
  exact ⟨Content.group_bare _, ((background_soundBelow s.options bounds).append block).group⟩

end Scene

namespace Setting

theorem showsSound (s : Setting α) (levels : Nat) : (s.scene (s.visual levels)).ShowsSound := by
  induction levels with
  | zero => exact fun q g shown => absurd shown (by simp [scene, visual])
  | succ levels ih =>
      intro q g shown
      cases shown
      exact Scene.convert_bare_and_below ih q.cullRect q.commands

/-- **Converted trees are sound.** The root of a converted picture carries neither a transform
nor a clip nor an opacity, and every group in the tree, behind whatever masks and brushes, is
what a group of a conversion looks like. -/
theorem convert_sound (s : Setting α) (p : Picture α) :
    (s.convert p).Bare ∧ ∀ k g, (s.convert p).Shows k g → g.Sound s.options :=
  Scene.convert_bare_and_below (s.showsSound maximumNesting) p.cullRect p.commands

end Setting

end PictureMarkup
