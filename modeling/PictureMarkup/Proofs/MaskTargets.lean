import PictureMarkup.Proofs.Arrivals

/-!
# Masks reach their targets

The groups of a tree are found from the root through children and masks, and each carries
the number under which it is delivered (`Group.Numbered`). Its mask is the last one that the
ledger delivers to that number.
-/

namespace PictureMarkup

variable {α P : Type}

/-- The groups of a tree, those in masks included and those in leaves left out. -/
inductive Group.Within (root : Group α) : Group α → Prop
  | root : Within root root
  | child {g h} : Within root g → .group h ∈ g.children → Within root h
  | mask {g} {b : VisualBrush α (Group α)} : Within root g → g.mask = some (.visual b) →
      Within root b.visual

/-- A group under its number: the root is number zero, any other is what its delivery makes
of its content. -/
inductive Group.Numbered (root : Group α) (log : List (Delivery α))
    (contents : Nat → Content α) : Nat → Group α → Prop
  | root : Numbered root log contents 0 root
  | child {d shell} : d ∈ log → d.parcel = .group shell →
      Numbered root log contents d.number
        { shell with
          mask := (contents d.number).mask, children := (contents d.number).children }
  | mask {d} : d ∈ log → d.parcel = .mask →
      Numbered root log contents d.number (contents d.number).group

/-- Contents that agree with what is delivered: every delivery is a child or the mask of
its target, in order, where the last mask stays. -/
structure Holds (log : List (Delivery α)) (contents : Nat → Content α) : Prop where
  children : ∀ n, (contents n).children =
    (deliveredTo n log).flatMap fun d => (d.content contents).children
  mask : ∀ n, (contents n).mask =
    (masksFor n log).getLast?.map fun k => (contents k).group.maskBrush

/-- The masks among what is delivered to a target. -/
theorem filterMap_mask (contents : Nat → Content α) (n : Nat) (log : List (Delivery α)) :
    ((deliveredTo n log).map (·.content contents)).filterMap (·.mask) =
      (masksFor n log).map fun k => (contents k).group.maskBrush := by
  unfold masksFor
  induction deliveredTo n log with
  | nil => rfl
  | cons d log ih =>
      obtain ⟨number, target, parcel⟩ := d
      -- a leaf or a group brings no mask along
      cases parcel with
      | leaf l => exact ih
      | group shell => exact ih
      | mask => exact congrArg ((contents number).group.maskBrush :: ·) ih

/-- What is gathered agrees with the deliveries, in either order. -/
theorem Holds.of_gather {opened log : List (Delivery α)} (order : InOrder opened)
    (routed : ∀ n, deliveredTo n opened = deliveredTo n log) :
    Holds log (gather opened fun _ => .empty) := by
  have joined : ∀ n, gather opened (fun _ => .empty) n =
      .join ((deliveredTo n log).map (·.content (gather opened fun _ => .empty))) := by
    intro n
    rw [← routed n, ← Content.append_empty (Content.join _)]
    exact gather_eq_join order _ n
  constructor
  · intro n
    rw [joined n, Content.join_children, List.flatMap_map]
  · intro n
    rw [joined n, Content.join_mask, filterMap_mask, List.getLast?_map]

namespace Group.Numbered

variable {root g : Group α} {log : List (Delivery α)} {contents : Nat → Content α} {n : Nat}

theorem mask_eq (numbered : root.Numbered log contents n g)
    (whole : root.mask = (contents 0).mask) : g.mask = (contents n).mask := by
  cases numbered with
  | root => exact whole
  | child member parcel => rfl
  | mask member parcel => rfl

/-- A child that is a group was delivered to the number of its parent. -/
theorem mem_contents (numbered : root.Numbered log contents n g)
    (whole : ∀ h, .group h ∈ root.children → .group h ∈ (contents 0).children)
    {h : Group α} (child : .group h ∈ g.children) : .group h ∈ (contents n).children := by
  cases numbered with
  | root => exact whole h child
  | child member parcel => exact child
  | mask member parcel => exact child

end Group.Numbered

/-- Where contents agree with the deliveries and the root holds those of number zero, each
group of the tree has a number. -/
theorem Holds.numbered {log : List (Delivery α)} {contents : Nat → Content α}
    (holds : Holds log contents) {root : Group α} (whole : root.mask = (contents 0).mask)
    (groups : ∀ h, .group h ∈ root.children → .group h ∈ (contents 0).children) {g : Group α}
    (within : root.Within g) : ∃ n, root.Numbered log contents n g := by
  induction within with
  | root => exact ⟨0, .root⟩
  | child within child ih =>
      obtain ⟨n, numbered⟩ := ih
      have delivered := numbered.mem_contents groups child
      rw [holds.children, List.mem_flatMap] at delivered
      obtain ⟨⟨number, target, parcel⟩, member, content⟩ := delivered
      -- only the delivery of a group adds a group to the children
      cases parcel with
      | leaf l => exact absurd (List.mem_singleton.mp content) (by simp)
      | group shell =>
          cases List.mem_singleton.mp content
          exact ⟨number, .child (List.mem_filter.mp member).1 rfl⟩
      | mask => exact absurd content List.not_mem_nil
  | @mask g b within mask ih =>
      obtain ⟨n, numbered⟩ := ih
      rw [numbered.mask_eq whole, holds.mask, Option.map_eq_some_iff] at mask
      obtain ⟨k, last, same⟩ := mask
      obtain ⟨d, member, rfl⟩ := List.mem_map.mp (List.mem_of_getLast? last)
      obtain ⟨member, masks⟩ := List.mem_filter.mp member
      have parcel : d.parcel = .mask := by
        cases parcel : d.parcel with
        | mask => rfl
        | leaf l => rw [parcel] at masks; exact absurd masks Bool.false_ne_true
        | group shell => rw [parcel] at masks; exact absurd masks Bool.false_ne_true
      have visual : b.visual = (contents d.number).group := by
        cases same
        rfl
      rw [visual]
      exact ⟨d.number, .mask (List.mem_filter.mp member).1 parcel⟩

/-- What is behind a picture is at most a leaf. -/
theorem Content.background_bare (options : Options) (bounds : Rect α) :
    (background options bounds).mask = none ∧
      ∀ g, .group g ∉ (background options bounds).children := by
  unfold background
  split
  · refine ⟨rfl, fun g member => ?_⟩
    exact absurd (List.mem_singleton.mp member) (by simp [Machine.background])
  · exact ⟨rfl, fun g => List.not_mem_nil⟩

variable [Scalar α]

/-- The masks that are delivered are those of the mask layers of a picture, under the
numbers of their commands. -/
theorem Scene.openings_mask (s : Scene α P) (commands : List (Command α P)) (i : Nat) :
    (∃ d ∈ s.openings commands, d.number = i + 1 ∧ d.parcel = .mask) ↔
      s.options.ignoreMask = false ∧
        ∃ paint, commands[i]? = some (.saveLayer paint) ∧
          LayerKind.classify paint = .maskBrush := by
  rw [openings, Nat.add_comm i 1, Ledger.openings_mask, List.getElem?_map, and_comm,
    Option.map_eq_some_iff]
  refine and_congr_right fun _ => ⟨?_, ?_⟩
  · rintro ⟨c, found, opens⟩
    obtain ⟨paint, rfl, mask⟩ := action_eq_layer.mp opens
    exact ⟨paint, found, mask⟩
  · rintro ⟨paint, found, mask⟩
    exact ⟨_, found, action_eq_layer.mpr ⟨paint, rfl, mask⟩⟩

/-- **Masks reach their targets.** What a picture delivers to each number, in the order of
closing, is what the group of that number holds in the tree: its children in order, and as
its mask the last one that was delivered to it. Each group of the tree has a number, the
groups in masks too. Nothing is delivered twice, and the masks that are delivered are
exactly the mask layers of the picture, if masks are not ignored. -/
theorem Scene.masks_reach_their_targets (s : Scene α P) (bounds : Rect α)
    (commands : List (Command α P)) :
    let log := s.deliveries commands
    let root := s.convert bounds commands
    ∃ contents : Nat → Content α,
      Holds log contents ∧
      root = (.background s.options bounds ++ contents 0 : Content α).group ∧
      (∀ g, root.Within g → ∃ n, root.Numbered log contents n g ∧
        g.mask = (masksFor n log).getLast?.map fun k => (contents k).group.maskBrush) ∧
      (log.map (·.number)).Nodup ∧
      ∀ i, (∃ d ∈ log, d.number = i + 1 ∧ d.parcel = .mask) ↔
        s.options.ignoreMask = false ∧
          ∃ paint, commands[i]? = some (.saveLayer paint) ∧
            LayerKind.classify paint = .maskBrush := by
  intro log root
  have tidy := ((Follows.start s.options bounds).perform (commands.map s.action)).tidy
  rw [List.nil_append] at tidy
  obtain ⟨perm, routed⟩ := tidy.finish
  have holds : Holds log (gather (s.openings commands) fun _ => .empty) :=
    .of_gather tidy.order routed
  have whole := s.convert_eq_gather bounds commands
  -- the leaf behind a picture has no group below it and no mask to give
  obtain ⟨bare, leaves⟩ := Content.background_bare s.options bounds
  have mask : root.mask = (gather (s.openings commands) (fun _ => .empty) 0).mask := by
    have joined := congrArg Group.mask whole
    change root.mask = (Content.mask _).or (Content.mask _) at joined
    rw [joined, bare, Option.or_none]
  have groups : ∀ h, .group h ∈ root.children →
      .group h ∈ (gather (s.openings commands) (fun _ => .empty) 0).children := by
    intro h child
    have joined := congrArg Group.children whole
    change root.children = Content.children _ ++ Content.children _ at joined
    rw [joined] at child
    exact (List.mem_append.mp child).resolve_left (leaves h)
  refine ⟨_, holds, whole, fun g within => ?_, ?_, fun i => ?_⟩
  · obtain ⟨n, numbered⟩ := holds.numbered mask groups within
    exact ⟨n, numbered, (numbered.mask_eq mask).trans (holds.mask n)⟩
  · exact (perm.map _).nodup_iff.mp tidy.distinct
  · -- the log is what was opened, in the order of closing
    rw [← Scene.openings_mask s commands i]
    exact exists_congr fun d => and_congr_left fun _ => perm.mem_iff.symm

end PictureMarkup
