import PictureMarkup.Proofs.Pruning
import PictureMarkup.Proofs.Replacing

/-!
# Other drawings in brushes

The conversion of a picture depends on the pictures nested in it only through the drawings
that its brushes show. If a scene shows another drawing wherever a second one shows some
drawing, or nothing in its place, then its leaves are the leaves of the second with their
brushes changed in this way (`Scene.ShowsFor.leaf`).

A change of leaves reaches the whole tree when the groups that it makes are changed part by
part (`Group.PartByPart`): their masks, their leaves and the groups in them, and nothing of
what they carry themselves. Such a change of the tree is the change of the leaves in the block
that the tree comes from (`Block.translate_onParts`).
-/

namespace PictureMarkup

variable {α P : Type}

/-- Another drawing in place of the one that a brush shows, or no brush at all. -/
def Brush.onVisual (f : Group α → Option (Group α)) :
    Brush α (Group α) → Option (Brush α (Group α))
  | .visual b => (f b.visual).map fun visual => .visual { b with visual := visual }
  | brush => some brush

/-- Other drawings in the brush of a leaf and in the brush of its pen. The pen stays. -/
def Leaf.onVisuals (f : Group α → Option (Group α)) (l : Leaf α (Group α)) :
    Leaf α (Group α) where
  path := l.path
  brush := l.brush.bind (Brush.onVisual f)
  pen := l.pen.map fun pen => { pen with brush := pen.brush.bind (Brush.onVisual f) }

/-- Change what a member of a group is, as a leaf or as a group. -/
def Drawing.onParts (leaf : Leaf α (Group α) → Leaf α (Group α)) (group : Group α → Group α) :
    Drawing α (Group α) → Drawing α (Group α)
  | .group g => .group (group g)
  | .leaf l => .leaf (leaf l)

/-- A change of groups that changes the drawing in the mask and every child. -/
def Group.PartByPart (leaf : Leaf α (Group α) → Leaf α (Group α)) (group : Group α → Group α) :
    Prop :=
  ∀ g, group g =
    { g with
      mask := g.mask.bind (Brush.onVisual fun visual => some (group visual))
      children := g.children.map (Drawing.onParts leaf group) }

section

variable {leaf : Leaf α (Group α) → Leaf α (Group α)} {group : Group α → Group α}

namespace Content

/-- Change the children of a content, and the drawing that its mask shows. -/
def onParts (leaf : Leaf α (Group α) → Leaf α (Group α)) (group : Group α → Group α)
    (c : Content α) : Content α where
  children := c.children.map (Drawing.onParts leaf group)
  mask := c.mask.bind (Brush.onVisual fun visual => some (group visual))

theorem onParts_append (c d : Content α) :
    (c ++ d).onParts leaf group = c.onParts leaf group ++ d.onParts leaf group := by
  have mask : (d.mask.or c.mask).bind (Brush.onVisual fun visual => some (group visual)) =
      (d.onParts leaf group).mask.or (c.onParts leaf group).mask := by
    unfold onParts
    rcases d.mask with _ | (_ | _ | _ | _) <;> rfl
  show Content.mk _ ((d.mask.or c.mask).bind _) = Content.mk _ _
  rw [mask]
  exact congrArg (Content.mk · _) List.map_append

theorem onParts_group (parts : Group.PartByPart leaf group) (c : Content α) :
    group c.group = (c.onParts leaf group).group := parts c.group

variable [Scalar α]

theorem onParts_asLayer (parts : Group.PartByPart leaf group) (options : Options)
    (kind : LayerKind) (c : Content α) :
    (c.asLayer options kind).onParts leaf group = (c.onParts leaf group).asLayer options kind := by
  cases kind with
  | maskGroup =>
      cases h : options.ignoreMask
      · simp only [asLayer, h, Bool.false_eq_true, if_false]
        exact congrArg (fun g => one (.group g)) (onParts_group parts c)
      · simp only [asLayer, h, if_true]
  | maskBrush =>
      cases h : options.ignoreMask
      · simp only [asLayer, h, Bool.false_eq_true, if_false, ← onParts_group parts]
        rfl
      · simp only [asLayer, h, if_true]
        rfl
  | opacity alpha =>
      cases h : options.ignoreOpacity
      · simp only [asLayer, h, Bool.false_eq_true, if_false]
        exact congrArg (fun g => one (.group g)) (parts _)
      · simp only [asLayer, h, if_true]
  | filter => rfl
  | unknown => rfl

end Content

/-- A block with other leaves adds what the block adds, with its parts changed. -/
theorem Block.translate_onParts [Scalar α] (parts : Group.PartByPart leaf group)
    (options : Options) (b : Block α) :
    ∀ ts, (b.replace leaf id).translate options ts =
      (b.translate options ts).onParts leaf group := by
  induction b with
  | done => exact fun _ => rfl
  | add l rest ih =>
      intro ts
      simp only [replace, translate, ih, Content.onParts_append]
      rfl
  | clip c rest ih =>
      intro ts
      simp only [replace, translate, ih]
      -- a group that was opened is one of the parts, with its clip or its transform
      have inner := parts { (rest.translate options ts).group with clip := some c.path }
      exact congrArg (fun g => Content.one (.group g)) inner.symm
  | matrix m rest ih =>
      intro ts
      simp only [replace, translate, ih]
      cases opening : m.opening ts with
      | none => rfl
      | some t =>
          have inner := parts
            { (rest.translate options (ts ++ [t])).group with transform := some t }
          exact congrArg (fun g => Content.one (.group g)) inner.symm
  | scope layer body rest ihBody ihRest =>
      intro ts
      simp only [replace, translate, ihBody, ihRest, Content.onParts_append]
      cases layer with
      | none => rfl
      | some kind => exact congrArg (· ++ _) (Content.onParts_asLayer parts options kind _).symm

end

/-! ## Scenes that show other drawings -/

namespace Scene

/-- The second scene shows for every nested picture what becomes of the drawing that the first
one shows. Else they draw alike. -/
structure ShowsFor (f : Group α → Option (Group α)) (s t : Scene α P) : Prop where
  glyphs : t.glyphs = s.glyphs
  bounds : t.bounds = s.bounds
  cullRect : t.cullRect = s.cullRect
  brushTransform : t.options.brushTransform = s.options.brushTransform
  ignoreClips : t.options.ignoreClips = s.options.ignoreClips
  visual : ∀ q, t.visual q = (s.visual q).bind f

namespace ShowsFor

variable [Scalar α] {f : Group α → Option (Group α)} {s t : Scene α P}

theorem brush (shows : ShowsFor f s t) (bounds : Rect α) (shader : Shader α P) :
    t.brush bounds shader = (s.brush bounds shader).bind (Brush.onVisual f) := by
  cases shader with
  | color c => rfl
  | gradient kind extend stops matrix =>
      simp only [Scene.brush, shows.brushTransform]
      cases kind <;> rfl
  | picture picture tile extend matrix =>
      simp only [Scene.brush, shows.brushTransform, shows.cullRect, shows.visual]
      cases s.visual picture with
      | none => rfl
      | some visual => rfl

theorem leaf (shows : ShowsFor f s t) (path : Path α) (paint : Paint α P) :
    t.leaf path paint = (s.leaf path paint).onVisuals f := by
  have brush := shows.brush (s.bounds path)
  unfold Scene.leaf Leaf.onVisuals
  rw [shows.bounds]
  congr 1
  · split
    · cases paint.shader with
      | none => rfl
      | some shader => exact brush shader
    · rfl
  · split
    · cases paint.shader with
      | none => rfl
      | some shader => exact congrArg (fun b => some (paint.stroke.pen b)) (brush shader)
    · rfl

theorem action (shows : ShowsFor f s t) (c : Command α P) :
    t.action c = (s.action c).replace (Leaf.onVisuals f) id := by
  have clip : ∀ e, t.clipping e = (s.clipping e).replace (Leaf.onVisuals f) id := by
    intro e
    unfold clipping
    rw [shows.ignoreClips]
    split <;> rfl
  have draw : ∀ path paint,
      t.drawing path paint = (s.drawing path paint).replace (Leaf.onVisuals f) id := by
    intro path paint
    unfold drawing
    rw [shows.leaf]
    split <;> rfl
  cases c with
  | clipPath path combine antialias => exact clip _
  | clipRect rect combine antialias => exact clip _
  | save => rfl
  | saveLayer paint => rfl
  | drawPath path paint => exact draw path paint
  | drawText text origin paint =>
      simp only [Scene.action, shows.glyphs]
      cases s.glyphs text origin paint with
      | none => rfl
      | some elements => exact draw { elements } paint
  | _ => rfl

/-- The block of the second scene is the block of the first with other leaves. -/
theorem nest (shows : ShowsFor f s t) (commands : List (Command α P)) :
    (Action.nest (Action.matched 0 (commands.map t.action))).1 =
      (Action.nest (Action.matched 0 (commands.map s.action))).1.replace (Leaf.onVisuals f) id := by
  have actions : commands.map t.action =
      (commands.map s.action).map (Action.replace (Leaf.onVisuals f) id) := by
    rw [List.map_map]
    exact List.map_congr_left fun c _ => shows.action c
  rw [actions, Action.nest_matched_replace]

end ShowsFor

end Scene

end PictureMarkup
