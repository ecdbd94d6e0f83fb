import PictureMarkup.Machine

/-!
# What a stretch of commands adds to a group

Between two moments at which the same group is innermost, that group gains children at
its end and perhaps a new mask; its transform, clip and opacity stay. `Content` is such a
gain. Gains compose: children are joined in order and the later mask wins. Three facts
tie it to the groups of the machine:

* filling a group twice is filling it once with the joined content (`Group.fill_fill`);
* a buffer that started empty is the group of its content (`Group.fill_empty_group`);
* combining a finished buffer with what encloses it is a filling as well, with a content
  that depends on the buffer, the kind of the layer and the options only
  (`Group.composite_group`).
-/

namespace PictureMarkup

/-- Children to add after the ones already there, and a mask to put in place of the one
that may be there. -/
structure Content (α : Type) where
  children : List (Drawing α (Group α)) := []
  mask : Option (Brush α (Group α)) := none

namespace Content

variable {α : Type}

/-- Nothing to add. -/
def empty : Content α := {}

/-- A single child. -/
def one (d : Drawing α (Group α)) : Content α := { children := [d] }

/-- What two stretches add one after the other. The later mask wins. -/
def append (first later : Content α) : Content α where
  children := first.children ++ later.children
  mask := later.mask.or first.mask

instance : Append (Content α) := ⟨append⟩

@[simp] theorem append_empty (c : Content α) : c ++ empty = c := by
  show Content.mk (c.children ++ []) (none.or c.mask) = c
  rw [List.append_nil, Option.none_or]

@[simp] theorem empty_append (c : Content α) : empty ++ c = c := by
  show Content.mk ([] ++ c.children) (c.mask.or none) = c
  rw [List.nil_append, Option.or_none]

theorem append_assoc (c d e : Content α) : c ++ d ++ e = c ++ (d ++ e) := by
  show Content.mk (c.children ++ d.children ++ e.children) (e.mask.or (d.mask.or c.mask)) =
    Content.mk (c.children ++ (d.children ++ e.children)) ((e.mask.or d.mask).or c.mask)
  rw [List.append_assoc, Option.or_assoc]

/-- The group that has this content and nothing else. -/
def group (c : Content α) : Group α := { mask := c.mask, children := c.children }

/-- What comes before the first command of a picture: the leaf behind it, if there is one. -/
def background (options : Options) (bounds : Rect α) : Content α :=
  if options.transparentBackground then one (Machine.background bounds) else empty

/-- What the content of a finished layer amounts to in the group around the layer: a plain
group, a faded group, the mask of that group, or the content as it stands. -/
def asLayer [Scalar α] (options : Options) (kind : LayerKind) (c : Content α) : Content α :=
  match kind with
  | .maskGroup => if options.ignoreMask then c else one (.group c.group)
  | .maskBrush =>
    if options.ignoreMask then empty
    else { mask := some (.visual { tileMode := some .none, visual := c.group }) }
  | .opacity alpha =>
    if options.ignoreOpacity then c
    else one (.group { c.group with opacity := some (opacityOf alpha) })
  | .filter | .unknown => c

/-- What the content of a frame amounts to once the frame is left: all of it as it stands
for a save, and what its kind makes of it for a layer. -/
def outside [Scalar α] (options : Options) (c : Content α) : Option LayerKind → Content α
  | none => c
  | some kind => c.asLayer options kind

end Content

namespace Group

variable {α : Type}

/-- Add a content to a group. -/
def fill (g : Group α) (c : Content α) : Group α :=
  { g with mask := c.mask.or g.mask, children := g.children ++ c.children }

/-- A group without what commands can still change about it. -/
def shell (g : Group α) : Group α := { g with mask := none, children := [] }

@[simp] theorem fill_fill (g : Group α) (c d : Content α) :
    (g.fill c).fill d = g.fill (c ++ d) := by
  show Group.mk _ _ _ (d.mask.or (c.mask.or g.mask)) (g.children ++ c.children ++ d.children) =
    Group.mk _ _ _ ((d.mask.or c.mask).or g.mask) (g.children ++ (c.children ++ d.children))
  rw [Option.or_assoc, List.append_assoc]
  rfl

@[simp] theorem fill_empty (g : Group α) : g.fill .empty = g := by
  obtain ⟨transform, clip, opacity, mask, children⟩ := g
  show Group.mk _ _ _ (none.or mask) (children ++ []) = _
  rw [Option.none_or, List.append_nil]

/-- A buffer that started empty holds its content and nothing else. -/
@[simp] theorem fill_empty_group (c : Content α) : Group.empty.fill c = c.group := by
  show Group.mk _ _ _ (c.mask.or none) ([] ++ c.children) = c.group
  rw [Option.or_none]
  rfl

theorem fill_transform (t : Affine α) (c : Content α) :
    Group.fill { transform := some t } c = { c.group with transform := some t } := by
  show Group.mk _ _ _ (c.mask.or none) ([] ++ c.children) = _
  rw [Option.or_none]
  rfl

theorem fill_clip (path : Path α) (c : Content α) :
    Group.fill { clip := some path } c = { c.group with clip := some path } := by
  show Group.mk _ _ _ (c.mask.or none) ([] ++ c.children) = _
  rw [Option.or_none]
  rfl

@[simp] theorem shell_fill (g : Group α) (c : Content α) : (g.fill c).shell = g.shell := rfl

theorem append_one (g : Group α) (d : Drawing α (Group α)) :
    g.append [d] = g.fill (.one d) := rfl

/-- Taking over a buffer is filling with its content. -/
theorem absorb_group (parent : Group α) (c : Content α) :
    parent.absorb c.group = parent.fill c := by
  obtain ⟨children, mask⟩ := c
  cases mask with
  | none => rfl
  | some mask => rfl

/-- A finished layer fills what its content amounts to into the group around it. -/
theorem composite_group [Scalar α] (options : Options) (kind : LayerKind) (parent : Group α)
    (c : Content α) :
    parent.composite options kind c.group = parent.fill (c.asLayer options kind) := by
  cases kind with
  | maskGroup =>
      cases h : options.ignoreMask
      · simp [composite, Content.asLayer, h, append_one]
      · simp [composite, Content.asLayer, h, absorb_group]
  | maskBrush =>
      cases h : options.ignoreMask
      · simp [composite, Content.asLayer, h, fill, setMask, maskBrush]
      · simp [composite, Content.asLayer, h]
  | opacity alpha =>
      cases h : options.ignoreOpacity
      · simp [composite, Content.asLayer, h, append_one]
      · simp [composite, Content.asLayer, h, absorb_group]
  | filter => exact absorb_group parent c
  | unknown => exact absorb_group parent c

end Group

namespace Machine

variable {α : Type}

/-- Add a content to the innermost open group. -/
def fill (m : Machine α) (c : Content α) : Machine α := m.modifyTop (·.fill c)

@[simp] theorem fill_fill (m : Machine α) (c d : Content α) :
    (m.fill c).fill d = m.fill (c ++ d) := by
  obtain ⟨transforms, clips, layers, opened, root⟩ := m
  cases opened <;> simp [fill, modifyTop]

@[simp] theorem fill_empty (m : Machine α) : m.fill .empty = m := by
  obtain ⟨transforms, clips, layers, opened, root⟩ := m
  cases opened <;> simp [fill, modifyTop]

@[simp] theorem fill_transforms (m : Machine α) (c : Content α) :
    (m.fill c).transforms = m.transforms := by
  unfold fill modifyTop
  split <;> rfl

@[simp] theorem fill_clips (m : Machine α) (c : Content α) : (m.fill c).clips = m.clips := by
  unfold fill modifyTop
  split <;> rfl

@[simp] theorem fill_layers (m : Machine α) (c : Content α) : (m.fill c).layers = m.layers := by
  unfold fill modifyTop
  split <;> rfl

/-- The machine before the first command holds the background and nothing else. -/
theorem start_eq_fill (options : Options) (bounds : Rect α) :
    start options bounds = ({} : Machine α).fill (.background options bounds) := by
  unfold start Content.background
  split <;> rfl

/-- No frame is open before the first command. -/
theorem start_depth (options : Options) (bounds : Rect α) : (start options bounds).depth = 0 := by
  unfold start
  split <;> rfl

/-- No transform is open before the first command. -/
theorem start_transforms (options : Options) (bounds : Rect α) :
    (start options bounds).transforms = ⟨[], []⟩ := by
  rw [start_eq_fill, fill_transforms]
  rfl

/-- Filling changes no group's shell, so that the open groups keep their properties. -/
@[simp] theorem fill_shells (m : Machine α) (c : Content α) :
    (m.fill c).opened.map Group.shell = m.opened.map Group.shell := by
  obtain ⟨transforms, clips, layers, opened, root⟩ := m
  cases opened <;> simp [fill, modifyTop]

end Machine

end PictureMarkup
