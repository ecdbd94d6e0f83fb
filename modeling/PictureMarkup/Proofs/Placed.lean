import PictureMarkup.Proofs.Grown

/-!
# Where the leaves end up

A leaf is put into whatever group is open, and then travels: its group is closed into
another, buffered in a layer, spliced or faded. `Group.placed` lists the leaves of a tree
in paint order, each with the transforms, clips and opacities around it, outermost first.
`Machine.drawings` lists the draws of a picture in command order, each with the
transforms, clips and fading layers in effect at that moment. The two lists agree.

The proof asks of every state what the tree would hold if the picture ended there. A
content put into the innermost group shows at the end of that list, placed as the stacks
of the state say, unless a mask is being recorded (`Grown.shows`). Opening and leaving
change nothing about the list, so that each draw adds its own entry and no other.
-/

namespace PictureMarkup

variable {α P : Type}

/-- What applies to a drawing because of the groups around it, outermost first. -/
structure Surroundings (α : Type) where
  transforms : List (Affine α) := []
  clips : List (Path α) := []
  opacities : List α := []

/-- One group further inside, with what the group carries. -/
def Surroundings.within (e : Surroundings α) (transform : Option (Affine α))
    (clip : Option (Path α)) (opacity : Option α) : Surroundings α where
  transforms := e.transforms ++ transform.toList
  clips := e.clips ++ clip.toList
  opacities := e.opacities ++ opacity.toList

@[simp] theorem Surroundings.within_none (e : Surroundings α) : e.within none none none = e := by
  unfold within
  simp only [Option.toList_none, List.append_nil]

/-- A leaf with what applies to it. -/
structure Placed (α : Type) where
  leaf : Leaf α (Group α)
  around : Surroundings α

namespace Group

mutual

/-- The leaves below a group in paint order with what is around them, those of brushes and
masks left out. -/
def placedUnder (e : Surroundings α) : Group α → List (Placed α)
  | ⟨transform, clip, opacity, _, children⟩ =>
    placedIn (e.within transform clip opacity) children

/-- The same for some drawings inside a group. -/
def placedIn (e : Surroundings α) : List (Drawing α (Group α)) → List (Placed α)
  | [] => []
  | d :: ds => placedOf e d ++ placedIn e ds

/-- The same for a drawing. -/
def placedOf (e : Surroundings α) : Drawing α (Group α) → List (Placed α)
  | .group g => placedUnder e g
  | .leaf l => [⟨l, e⟩]

end

/-- The leaves of a tree in paint order, each with what is around it. -/
def placed (g : Group α) : List (Placed α) := g.placedUnder {}

mutual

/-- Placing the leaves neither adds nor loses one, nor does it change their order. -/
theorem placedUnder_leaves (e : Surroundings α) :
    ∀ g : Group α, (g.placedUnder e).map (·.leaf) = g.leaves
  | ⟨transform, clip, opacity, _, children⟩ => by
      rw [placedUnder, leaves]
      exact placedIn_leaves _ children

theorem placedIn_leaves (e : Surroundings α) :
    ∀ ds : List (Drawing α (Group α)), (placedIn e ds).map (·.leaf) = leavesIn ds
  | [] => rfl
  | d :: ds => by
      rw [placedIn, leavesIn, List.map_append, placedOf_leaves e d, placedIn_leaves e ds]

theorem placedOf_leaves (e : Surroundings α) :
    ∀ d : Drawing α (Group α), (placedOf e d).map (·.leaf) = leavesOf d
  | .group g => by
      rw [placedOf, leavesOf]
      exact placedUnder_leaves e g
  | .leaf l => rfl

end

@[simp] theorem placedIn_append (e : Surroundings α) (ds es : List (Drawing α (Group α))) :
    placedIn e (ds ++ es) = placedIn e ds ++ placedIn e es := by
  induction ds with
  | nil => rfl
  | cons d ds ih => rw [List.cons_append, placedIn, placedIn, ih, List.append_assoc]

theorem placedIn_group (e : Surroundings α) (g : Group α) :
    placedIn e [.group g] =
      placedIn (e.within g.transform g.clip g.opacity) g.children := by
  obtain ⟨transform, clip, opacity, mask, children⟩ := g
  rw [placedIn, placedIn, placedOf, placedUnder, List.append_nil]

end Group

/-- The opacity of a layer that fades. -/
def LayerKind.opacity? [Scalar α] : LayerKind → Option α
  | .opacity alpha => some (opacityOf alpha)
  | .maskGroup | .maskBrush | .filter | .unknown => none

/-- The leaf that an action adds. -/
def Action.leaf? : Action α → Option (Leaf α (Group α))
  | .add l => some l
  | .clip _ | .matrix _ | .enter _ | .leave | .nothing => none

/-- The leaf that a command draws, if it draws one. -/
def Scene.drawn? [Scalar α] (s : Scene α P) : Command α P → Option (Leaf α (Group α))
  | .drawPath path paint => if path.isEmpty then none else some (s.leaf path paint)
  | .drawText text origin paint =>
    (s.glyphs text origin paint).bind fun elements =>
      let path : Path α := { elements }
      if path.isEmpty then none else some (s.leaf path paint)
  | _ => none

/-- The leaf that a command asks for is the one it draws. -/
theorem Scene.action_leaf? [Scalar α] (s : Scene α P) (c : Command α P) :
    (s.action c).leaf? = s.drawn? c := by
  have draw : ∀ path paint, (s.drawing path paint).leaf? =
      if path.isEmpty then none else some (s.leaf path paint) := by
    intro path paint
    unfold drawing
    split <;> rfl
  have clip : ∀ e, (s.clipping e).leaf? = none := by
    intro e
    unfold clipping
    split <;> rfl
  cases c with
  | clipPath path combine antialias => exact clip _
  | clipRect rect combine antialias => exact clip _
  | drawPath path paint => exact draw path paint
  | drawText text origin paint =>
      simp only [action, drawn?]
      cases s.glyphs text origin paint with
      | none => rfl
      | some elements => exact draw { elements } paint
  | _ => rfl

namespace Machine

variable [Scalar α]

/-- What applies to a leaf drawn now: the transforms and the clips in effect, and the
opacities of the fading layers that are open. -/
def surroundings (options : Options) (m : Machine α) : Surroundings α where
  transforms := m.transforms.entries
  clips := m.clips.entries.map (·.path)
  opacities :=
    if options.ignoreOpacity then []
    else m.layers.reverse.filterMap fun layer => layer.bind LayerKind.opacity?

/-- What drawings in the innermost group show of leaves. While a mask is being recorded
they show nothing. -/
def shown (options : Options) (m : Machine α) (ds : List (Drawing α (Group α))) :
    List (Placed α) :=
  if some .maskBrush ∈ m.layers then [] else Group.placedIn (m.surroundings options) ds

/-- What a command shows of leaves: the one it draws, where the stacks say, unless a mask is
being recorded. -/
def drawn (s : Scene α P) (m : Machine α) (c : Command α P) : List (Placed α) :=
  if some .maskBrush ∈ m.layers then []
  else (s.drawn? c).toList.map fun l => ⟨l, m.surroundings s.options⟩

/-- What commands show of leaves, in order. -/
def drawings (s : Scene α P) : Machine α → List (Command α P) → List (Placed α)
  | _, [] => []
  | m, c :: cs => m.drawn s c ++ drawings s (m.step s c) cs

/-! ## The stacks say where a content shows -/

theorem surroundings_nothing (options : Options) :
    ({} : Machine α).surroundings options = {} := by
  unfold surroundings
  split <;> rfl

section

variable (options : Options) (m : Machine α)

@[simp] theorem surroundings_fill (c : Content α) :
    (m.fill c).surroundings options = m.surroundings options := by
  unfold surroundings
  rw [fill_transforms, fill_clips, fill_layers]

/-- A transform applies to what is inside its group. -/
@[simp] theorem surroundings_openTransform (t : Affine α) :
    (m.openTransform t).surroundings options =
      (m.surroundings options).within (some t) none none := by
  show Surroundings.mk (m.transforms.push t).entries _ _ = _
  rw [FrameStack.entries_push]
  simp only [Surroundings.within, Option.toList_none, List.append_nil]
  rfl

@[simp] theorem surroundings_openClip (c : Clip α) :
    (m.openClip c).surroundings options =
      (m.surroundings options).within none (some c.path) none := by
  show Surroundings.mk _ ((m.clips.push c).entries.map (·.path)) _ = _
  rw [FrameStack.entries_push, List.map_append]
  simp only [Surroundings.within, Option.toList_none, List.append_nil]
  rfl

@[simp] theorem surroundings_pushFrame :
    (m.pushFrame none).surroundings options = m.surroundings options := by
  unfold surroundings pushFrame
  rw [FrameStack.entries_pushFrame, FrameStack.entries_pushFrame, List.reverse_cons,
    List.filterMap_append]
  simp

/-- A fading layer applies its opacity, and any other layer nothing. -/
theorem surroundings_saveLayer (kind : LayerKind) :
    (m.saveLayer kind).surroundings options =
      (m.surroundings options).within none none
        (if options.ignoreOpacity then none else kind.opacity?) := by
  unfold surroundings saveLayer pushFrame Surroundings.within
  rw [FrameStack.entries_pushFrame, FrameStack.entries_pushFrame, List.reverse_cons,
    List.filterMap_append]
  cases options.ignoreOpacity <;> cases h : kind.opacity? (α := α) <;> simp [openGroup, h]

end

section

variable (options : Options) (m : Machine α)

@[simp] theorem shown_nil : m.shown options [] = [] := by
  unfold shown
  split <;> rfl

@[simp] theorem shown_append (ds es : List (Drawing α (Group α))) :
    m.shown options (ds ++ es) = m.shown options ds ++ m.shown options es := by
  unfold shown
  split
  · rfl
  · exact Group.placedIn_append _ ds es

theorem shown_fill (c : Content α) (ds : List (Drawing α (Group α))) :
    (m.fill c).shown options ds = m.shown options ds := by
  unfold shown
  rw [fill_layers, surroundings_fill]

/-- A group with a transform shows outside what is inside it under one transform more. -/
theorem shown_openTransform (t : Affine α) (c : Content α) :
    m.shown options [.group (Group.fill { transform := some t } c)] =
      (m.openTransform t).shown options c.children := by
  unfold shown
  rw [Group.placedIn_group, surroundings_openTransform]
  rfl

theorem shown_openClip (e : Clip α) (c : Content α) :
    m.shown options [.group (Group.fill { clip := some e.path } c)] =
      (m.openClip e).shown options c.children := by
  unfold shown
  rw [Group.placedIn_group, surroundings_openClip]
  rfl

theorem shown_pushFrame (ds : List (Drawing α (Group α))) :
    (m.pushFrame none).shown options ds = m.shown options ds := by
  unfold shown
  rw [surroundings_pushFrame]
  simp [pushFrame]

/-- What a layer's content amounts to shows outside as it showed inside, under one opacity
more if the layer fades it, and not at all if it is a mask. -/
theorem shown_saveLayer (kind : LayerKind) (c : Content α) :
    m.shown options (c.asLayer options kind).children =
      (m.saveLayer kind).shown options c.children := by
  have layers : (m.saveLayer kind).layers = some kind :: m.layers := rfl
  have empty : Group.placedIn (m.surroundings options) [] = [] := rfl
  unfold shown
  rw [surroundings_saveLayer, layers]
  cases kind with
  | maskGroup =>
      cases h : options.ignoreMask <;>
        simp [Content.asLayer, Content.one, Content.group, h, Group.placedIn_group,
          LayerKind.opacity?]
  | maskBrush =>
      cases h : options.ignoreMask <;> simp [Content.asLayer, Content.empty, h, empty]
  | opacity alpha =>
      cases h : options.ignoreOpacity <;>
        simp [Content.asLayer, Content.one, Content.group, h, Group.placedIn_group,
          LayerKind.opacity?]
  | filter => simp [Content.asLayer, LayerKind.opacity?]
  | unknown => simp [Content.asLayer, LayerKind.opacity?]

end

/-! ## What the tree would hold -/

/-- The leaves of the tree if the picture ended now. -/
def result (options : Options) (m : Machine α) : List (Placed α) :=
  (m.finish options).root.placed

/-- A content put into the innermost group shows at the end of the list, where the stacks
say. -/
def Shows (options : Options) (m : Machine α) : Prop :=
  ∀ c : Content α, (m.fill c).result options = m.result options ++ m.shown options c.children

section

variable {options : Options} {m m' : Machine α}

/-- If a content of the opened state shows as a content of the state before, opening has
changed nothing. -/
theorem Shows.of_opened
    (opened : ∀ c : Content α,
      (m'.fill c).result options = m.result options ++ m'.shown options c.children) :
    m'.result options = m.result options ∧ Shows options m' := by
  -- nothing at all is a content too
  have same : m'.result options = m.result options := by
    have nothing := opened .empty
    rwa [fill_empty, show (Content.empty : Content α).children = [] from rfl, shown_nil,
      List.append_nil] at nothing
  refine ⟨same, fun c => ?_⟩
  rw [same]
  exact opened c

theorem Shows.openTransform (h : Shows options m) (lockstep : m.Lockstep) (t : Affine α) :
    (m.openTransform t).result options = m.result options ∧
      Shows options (m.openTransform t) := by
  refine Shows.of_opened fun c => ?_
  unfold result
  rw [(opens_openTransform lockstep t c).finish options, ← shown_openTransform]
  exact h _

theorem Shows.openClip (h : Shows options m) (lockstep : m.Lockstep) (e : Clip α) :
    (m.openClip e).result options = m.result options ∧ Shows options (m.openClip e) := by
  refine Shows.of_opened fun c => ?_
  unfold result
  rw [(opens_openClip lockstep e c).finish options, ← shown_openClip]
  exact h _

theorem Shows.pushFrame (h : Shows options m) :
    (m.pushFrame none).result options = m.result options ∧
      Shows options (m.pushFrame none) := by
  refine Shows.of_opened fun c => ?_
  unfold result
  rw [finish_of_layers options ((m.pushFrame none).fill c)
    (by rw [fill_layers]; exact List.cons_ne_nil _ _), restore_pushFrame, shown_pushFrame]
  exact h c

theorem Shows.saveLayer (h : Shows options m) (kind : LayerKind) :
    (m.saveLayer kind).result options = m.result options ∧
      Shows options (m.saveLayer kind) := by
  refine Shows.of_opened fun c => ?_
  unfold result
  rw [finish_of_layers options ((m.saveLayer kind).fill c)
    (by rw [fill_layers]; exact List.cons_ne_nil _ _), restore_saveLayer, ← shown_saveLayer]
  exact h _

end

/-- In every state a content of the innermost group shows at the end: by induction on how the
state has grown. -/
theorem Grown.shows {m : Machine α} (options : Options) (h : Grown {} m) :
    Shows options m := by
  induction h with
  | base =>
      intro c
      show (Group.empty.fill c).placed = Group.empty.placed ++ Group.placedIn _ _
      rw [Group.fill_empty_group, surroundings_nothing]
      show Group.placedIn (Surroundings.within {} none none none) c.children = _
      rw [Surroundings.within_none]
      rfl
  | fill d _ ih =>
      intro c
      rw [fill_fill, ih, ih, shown_fill, List.append_assoc, ← shown_append]
      rfl
  | transform t h ih => exact (ih.openTransform (h.lockstep lockstep_nothing) t).2
  | clip c h ih => exact (ih.openClip (h.lockstep lockstep_nothing) c).2
  | frame _ ih => exact ih.pushFrame.2
  | layer kind _ ih => exact (ih.saveLayer kind).2

/-- A restore changes nothing about the tree that the picture would have. -/
theorem result_restore (options : Options) (m : Machine α) :
    (m.restore options).result options = m.result options := by
  by_cases root : m.layers = []
  · rw [restore_of_root options m root]
  · unfold result
    rw [finish_of_layers options m root]

/-! ## Draws and leaves -/

/-- An action changes what the tree would hold by the leaf it adds. -/
theorem Grown.result_act {m : Machine α} (h : Grown {} m) (options : Options) (a : Action α) :
    (m.act options a).result options =
      m.result options ++ m.shown options (a.leaf?.toList.map .leaf) := by
  have shows := h.shows options
  have lockstep := h.lockstep lockstep_nothing
  -- what adds no leaf has to leave the list as it is
  have silent : ∀ m' : Machine α, m'.result options = m.result options →
      m'.result options = m.result options ++ m.shown options [] := by
    intro m' same
    rw [shown_nil, List.append_nil, same]
  cases a with
  | add l => exact shows _
  | clip c => exact silent _ (shows.openClip lockstep c).1
  | matrix matrix =>
      refine silent _ ?_
      show (m.setMatrix matrix).result options = m.result options
      cases opening : matrix.opening m.transforms.entries with
      | none => rw [setMatrix_of_no_opening opening]
      | some t =>
          rw [setMatrix_of_opening opening]
          exact (shows.openTransform lockstep t).1
  | enter layer =>
      cases layer with
      | none => exact silent _ shows.pushFrame.1
      | some kind => exact silent _ (shows.saveLayer kind).1
  | leave => exact silent _ (result_restore options m)
  | nothing => exact silent _ rfl

/-- A draw puts its leaf into the innermost open group. -/
theorem step_of_drawn {s : Scene α P} {m : Machine α} {c : Command α P}
    {l : Leaf α (Group α)} (drawn : s.drawn? c = some l) :
    m.step s c = m.fill (.one (.leaf l)) := by
  rw [← Scene.action_leaf?] at drawn
  rw [step_eq_act]
  cases action : s.action c with
  | add added =>
      rw [action] at drawn
      cases drawn
      rfl
  | _ =>
      rw [action] at drawn
      exact absurd drawn (Option.some_ne_none l).symm

theorem drawn_eq_shown (s : Scene α P) (m : Machine α) (c : Command α P) :
    m.drawn s c = m.shown s.options ((s.drawn? c).toList.map .leaf) := by
  unfold drawn shown
  cases s.drawn? c <;> rfl

/-- A command changes what the tree would hold by what it shows. -/
theorem Grown.result_step {m : Machine α} (h : Grown {} m) (s : Scene α P)
    (c : Command α P) :
    (m.step s c).result s.options = m.result s.options ++ m.drawn s c := by
  rw [step_eq_act, h.result_act, Scene.action_leaf?, drawn_eq_shown]

/-- A run changes what the tree would hold by what its commands show, in order. -/
theorem Grown.result_run (s : Scene α P) (cs : List (Command α P)) :
    ∀ {m : Machine α}, Grown {} m →
      (m.run s cs).result s.options = m.result s.options ++ m.drawings s cs := by
  induction cs with
  | nil => exact fun _ => (List.append_nil _).symm
  | cons c cs ih =>
      intro m grown
      have next : Grown {} (m.step s c) := by
        rw [step_eq_act]
        exact grown.act s.options lockstep_nothing _ (Nat.zero_le _)
      rw [run, ih next, grown.result_step, drawings, List.append_assoc]

end Machine

/-- The leaf behind a picture, with nothing around it, if there is one. -/
def Placed.background (options : Options) (bounds : Rect α) : List (Placed α) :=
  if options.transparentBackground then
    [⟨{ path := .ofRect bounds, brush := some (.solid .transparent) }, {}⟩]
  else []

/-- The leaves of the tree are the background and what the commands show. -/
theorem Scene.placed_eq_drawings [Scalar α] (s : Scene α P) (bounds : Rect α)
    (commands : List (Command α P)) :
    (s.convert bounds commands).placed =
      Placed.background s.options bounds ++
        (Machine.start s.options bounds).drawings s commands := by
  have before : (Machine.start s.options bounds).result s.options =
      Placed.background s.options bounds := by
    rw [Machine.start_eq_fill, (Machine.Grown.shows s.options .base) _]
    show [] ++ Group.placedIn _ _ = _
    rw [Machine.surroundings_nothing]
    unfold Content.background Placed.background
    split <;> rfl
  show ((Machine.start s.options bounds).run s commands).result s.options = _
  rw [(Machine.grown_start s.options bounds).result_run, before]

/-- **Every draw arrives where it was made.** The leaves of the tree in paint order, each
with the transforms, clips and opacities of the groups around it, are the background and
then, in command order, one leaf for each draw of something that is not part of a mask,
with the transforms, clips and fading layers in effect when it was drawn. -/
theorem Scene.placed_convert [Scalar α] (s : Scene α P) (bounds : Rect α)
    (commands : List (Command α P)) :
    (s.convert bounds commands).placed =
        Placed.background s.options bounds ++
          (Machine.start s.options bounds).drawings s commands ∧
      (s.convert bounds commands).placed.map (·.leaf) = (s.convert bounds commands).leaves := by
  constructor
  · exact s.placed_eq_drawings bounds commands
  · exact Group.placedUnder_leaves {} _

end PictureMarkup
