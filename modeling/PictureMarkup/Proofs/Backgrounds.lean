import PictureMarkup.Proofs.Tiles
import PictureMarkup.Proofs.Visuals

/-!
# The leaf behind a picture

An option puts a transparent leaf behind every picture, over the bounds of the picture. It is
the first child of the root of the picture and nothing else changes, in the picture itself and
in every picture that a brush shows: without these leaves the tree is the tree of the
conversion without the option (`Setting.convert_background`).

`Group.uncover` takes the leaves away again. It goes through the whole tree, and where a brush
of a leaf or of a pen shows a drawing, that drawing loses its first child. Groups, masks and the
root keep all their children; the root of a picture is treated apart (`Group.withoutFirst`).
-/

namespace PictureMarkup

variable {α P : Type}

namespace Group

/-! ## Taking the leaves away -/

/-- The group without its first child. -/
def withoutFirst (g : Group α) : Group α := { g with children := g.children.tail }

mutual

/-- The tree in which every drawing that is shown by the brush of a leaf or of a pen has lost
its first child, at every depth. No other group loses a child. -/
def uncover : Group α → Group α
  | ⟨transform, clip, opacity, mask, children⟩ =>
    ⟨transform, clip, opacity, uncoverMask mask, uncoverIn children⟩

/-- A mask with its drawing uncovered. It shows no picture, so no child of its own is left
out. -/
def uncoverMask : Option (Brush α (Group α)) → Option (Brush α (Group α))
  | some (.visual ⟨tileMode, source, destination, transform, visual⟩) =>
    some (.visual ⟨tileMode, source, destination, transform, uncover visual⟩)
  | brush => brush

def uncoverIn : List (Drawing α (Group α)) → List (Drawing α (Group α))
  | [] => []
  | d :: ds => uncoverOf d :: uncoverIn ds

def uncoverOf : Drawing α (Group α) → Drawing α (Group α)
  | .group g => .group (uncover g)
  | .leaf l => .leaf (uncoverLeaf l)

def uncoverLeaf : Leaf α (Group α) → Leaf α (Group α)
  | ⟨path, brush, pen⟩ => ⟨path, uncoverBrush brush, uncoverPen pen⟩

/-- A brush shows a picture: the drawing is uncovered, and its first child is left out. -/
def uncoverBrush : Option (Brush α (Group α)) → Option (Brush α (Group α))
  | some (.visual ⟨tileMode, source, destination, transform, visual⟩) =>
    some (.visual ⟨tileMode, source, destination, transform, (uncover visual).withoutFirst⟩)
  | brush => brush

def uncoverPen : Option (Pen α (Group α)) → Option (Pen α (Group α))
  | none => none
  | some ⟨brush, thickness, lineCap, lineJoin, miterLimit, dash⟩ =>
    some ⟨uncoverBrush brush, thickness, lineCap, lineJoin, miterLimit, dash⟩

end

/-- What is left of the drawing of a whole picture. -/
def uncovered (g : Group α) : Group α := g.uncover.withoutFirst

theorem uncoverMask_eq (mask : Option (Brush α (Group α))) :
    uncoverMask mask = mask.bind (Brush.onVisual fun visual => some (uncover visual)) := by
  rcases mask with _ | (_ | _ | _ | _) <;> rfl

theorem uncoverBrush_eq (brush : Option (Brush α (Group α))) :
    uncoverBrush brush = brush.bind (Brush.onVisual fun visual => some visual.uncovered) := by
  rcases brush with _ | (_ | _ | _ | _) <;> rfl

theorem uncoverLeaf_eq :
    (uncoverLeaf : Leaf α (Group α) → Leaf α (Group α)) =
      Leaf.onVisuals fun visual => some visual.uncovered := by
  funext l
  obtain ⟨path, brush, pen⟩ := l
  rw [uncoverLeaf, uncoverBrush_eq]
  cases pen with
  | none => rfl
  | some pen =>
      rw [uncoverPen, uncoverBrush_eq]
      rfl

theorem uncoverIn_eq (ds : List (Drawing α (Group α))) :
    uncoverIn ds = ds.map (Drawing.onParts uncoverLeaf uncover) := by
  induction ds with
  | nil => rfl
  | cons d ds ih =>
      rw [uncoverIn, ih]
      cases d <;> rfl

/-- Masks, leaves and groups are uncovered, and a group keeps all its children. -/
theorem uncover_partByPart : PartByPart uncoverLeaf (uncover : Group α → Group α) := by
  intro g
  obtain ⟨transform, clip, opacity, mask, children⟩ := g
  rw [uncover, uncoverMask_eq, uncoverIn_eq]

theorem length_uncover_children (g : Group α) :
    g.uncover.children.length = g.children.length := by
  rw [uncover_partByPart, List.length_map]

end Group

/-- The leaf over some bounds that shows nothing: the four corners clockwise from the top left
one, closed, in the colour without red, green, blue and alpha, and without a pen. -/
def Rect.backdrop (bounds : Rect α) : Drawing α (Group α) :=
  let corners : Path α :=
    { elements := [.moveTo ⟨bounds.x0, bounds.y0⟩, .lineTo ⟨bounds.x1, bounds.y0⟩,
        .lineTo ⟨bounds.x1, bounds.y1⟩, .lineTo ⟨bounds.x0, bounds.y1⟩, .close]
      fillRule := .nonZero }
  .leaf ⟨corners, some (.solid ⟨0, 0, 0, 0⟩), none⟩

variable [Scalar α]

theorem Block.translate_transparentBackground (options : Options) (flag : Bool) (b : Block α) :
    ∀ ts, b.translate { options with transparentBackground := flag } ts =
      b.translate options ts := by
  induction b with
  | done => exact fun _ => rfl
  | add l rest ih =>
      intro ts
      simp only [translate, ih]
  | clip c rest ih =>
      intro ts
      simp only [translate, ih]
  | matrix m rest ih =>
      intro ts
      simp only [translate, ih]
  | scope layer body rest ihBody ihRest =>
      intro ts
      simp only [translate, ihBody, ihRest]
      cases layer <;> rfl

namespace Scene

/-- With the option the picture begins with the leaf over its bounds. -/
theorem children_convert {s : Scene α P} (covers : s.options.transparentBackground = true)
    (bounds : Rect α) (commands : List (Command α P)) :
    ∃ rest, (s.convert bounds commands).children = bounds.backdrop :: rest := by
  rw [convert_eq_translation]
  unfold translation Content.background
  rw [if_pos covers]
  exact ⟨_, rfl⟩

/-- A scene without the option shows the drawings of a scene with it, uncovered. -/
theorem convert_uncovered {s t : Scene α P}
    (shows : ShowsFor (fun visual => some visual.uncovered) s t)
    (options : t.options = { s.options with transparentBackground := false })
    (covers : s.options.transparentBackground = true) (bounds : Rect α)
    (commands : List (Command α P)) :
    t.convert bounds commands = (s.convert bounds commands).uncovered := by
  rw [convert_eq_translation, convert_eq_translation, translation, translation, shows.nest,
    ← Group.uncoverLeaf_eq, Block.translate_onParts Group.uncover_partByPart, options,
    Block.translate_transparentBackground]
  unfold Group.uncovered
  rw [Content.onParts_group Group.uncover_partByPart, Content.onParts_append]
  simp only [Content.background, covers, if_true, Bool.false_eq_true, if_false,
    Content.empty_append]
  -- the leaf is what the first child was, and it was the first part
  show Content.group _ = Group.mk _ _ _ (Option.or _ none) _
  rw [Option.or_none]
  rfl

end Scene

/-! ## With and without the option -/

namespace Setting

/-- The setting with the leaf behind every picture, or without it. -/
def withBackground (flag : Bool) (s : Setting α) : Setting α :=
  { s with options := { s.options with transparentBackground := flag } }

variable (s : Setting α)

omit [Scalar α] in
theorem showsFor_scene {visual visual' : Picture α → Option (Group α)}
    (shown : ∀ q, visual' q = (visual q).map Group.uncovered) :
    Scene.ShowsFor (fun drawn => some drawn.uncovered) ((s.withBackground true).scene visual)
      ((s.withBackground false).scene visual') :=
  ⟨rfl, rfl, rfl, rfl, rfl, fun q => (shown q).trans Option.map_eq_bind⟩

theorem visual_withBackground (levels : Nat) :
    ∀ q, (s.withBackground false).visual levels q =
      ((s.withBackground true).visual levels q).map Group.uncovered := by
  induction levels with
  | zero => exact fun _ => rfl
  | succ levels ih =>
      intro q
      rw [visual, visual, Scene.convert_uncovered (s.showsFor_scene ih) rfl rfl]
      rfl

theorem children_of_visual {levels : Nat} {q : Picture α} {g : Group α}
    (shown : (s.withBackground true).visual levels q = some g) :
    ∃ rest, g.children = q.cullRect.backdrop :: rest := by
  cases levels with
  | zero => exact absurd shown (by simp [visual])
  | succ levels =>
      cases shown
      exact Scene.children_convert rfl q.cullRect q.commands

/-- **The option adds one leaf to each picture.** With the option, the tree of a picture is the
tree without it, but for one more first child of the root and one of each drawing that the
brush of a leaf or of a pen shows, at every depth and inside masks; a group that is uncovered
has as many children as before, so no other group has another child. Each of the first children
is a leaf over the bounds of the picture that is drawn there, painted with the colour that shows
nothing, without a pen. -/
theorem convert_background (p : Picture α) :
    ((s.withBackground true).convert p).uncovered = (s.withBackground false).convert p ∧
      (∀ g : Group α, g.uncover.children.length = g.children.length) ∧
      (∃ rest, ((s.withBackground true).convert p).children = p.cullRect.backdrop :: rest) ∧
      ∀ k g, ((s.withBackground true).convert p).Shows k g →
        ∀ l, .leaf l ∈ g.children → ∀ b, l.Tiles b →
          ∃ q levels, p.Nests q ∧ b.source = some q.cullRect ∧
            (s.withBackground true).visual levels q = some b.visual ∧
            (s.withBackground false).visual levels q = some b.visual.uncovered ∧
            ∃ rest, b.visual.children = q.cullRect.backdrop :: rest := by
  have shows := s.showsFor_scene (s.visual_withBackground maximumNesting)
  refine ⟨?_, Group.length_uncover_children, ?_, ?_⟩
  · exact (Scene.convert_uncovered shows rfl rfl p.cullRect p.commands).symm
  · exact Scene.children_convert rfl p.cullRect p.commands
  · intro k g shown l member b tiled
    obtain ⟨q, levels, nests, drawn, source⟩ :=
      (s.withBackground true).everyTile_scene maximumNesting p .here k g shown l member b tiled
    refine ⟨q, levels, nests, source, drawn, ?_, s.children_of_visual drawn⟩
    rw [s.visual_withBackground, drawn]
    rfl

end Setting

end PictureMarkup
