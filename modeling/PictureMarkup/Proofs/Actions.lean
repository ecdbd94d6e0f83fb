import PictureMarkup.Proofs.Leaving

/-!
# What commands ask of the machine

The eleven commands come down to six actions: put a clip into effect, set the matrix, add
a leaf, open a frame, leave one, or do nothing. Which leaf is added and whether a clip
counts depends on the scene alone; the machine decides only whether a matrix opens a
group. Statements about runs are proved for actions and read back through
`run_eq_perform`.
-/

namespace PictureMarkup

/-- What a command asks of the machine. -/
inductive Action (α : Type) where
  | clip (c : Clip α)
  | matrix (m : Affine α)
  | add (l : Leaf α (Group α))
  /-- Open a frame, with a kind if it is a layer. -/
  | enter (layer : Option LayerKind)
  | leave
  | nothing

/-- The transform of the group that a matrix opens inside a list of transforms, outermost
first; nothing where it opens none. -/
def Affine.opening {α : Type} [Scalar α] (ts : List (Affine α)) (matrix : Affine α) :
    Option (Affine α) :=
  if matrix.isIdentity || (matrix.relativeTo ts).isIdentity then none
  else some (matrix.relativeTo ts)

theorem Affine.eq_relativeTo_of_opening {α : Type} [Scalar α] {ts : List (Affine α)}
    {matrix t : Affine α} (h : matrix.opening ts = some t) : t = matrix.relativeTo ts := by
  unfold opening at h
  split at h
  · exact absurd h (by simp)
  · exact (Option.some.inj h).symm

namespace Scene

variable {α P : Type} [Scalar α]

/-- A draw adds a leaf, unless there is nothing in the path to draw. -/
def drawing (s : Scene α P) (path : Path α) (paint : Paint α P) : Action α :=
  if path.isEmpty then .nothing else .add (s.leaf path paint)

/-- A clip is put into effect, unless clips are ignored. -/
def clipping (s : Scene α P) (c : Clip α) : Action α :=
  if s.options.ignoreClips then .nothing else .clip c

/-- What a command asks of the machine. -/
def action (s : Scene α P) : Command α P → Action α
  | .clipPath path combine antialias => s.clipping { path, combine, antialias }
  | .clipRect rect combine antialias => s.clipping { path := .ofRect rect, combine, antialias }
  | .setMatrix matrix => .matrix matrix
  | .save => .enter none
  | .restore => .leave
  | .saveLayer paint => .enter (some (.classify paint))
  | .drawPath path paint => s.drawing path paint
  | .drawText text origin paint =>
    match s.glyphs text origin paint with
    | none => .nothing
    | some elements => s.drawing { elements } paint
  | .drawTextOnPath .. | .drawTextBlob .. | .drawImage .. => .nothing

/-- Only commands that are about frames or the matrix ask for more than a clip or a leaf. -/
theorem action_cases (s : Scene α P) (c : Command α P) :
    (∃ matrix, c = .setMatrix matrix) ∨ (∃ paint, c = .saveLayer paint) ∨ c = .save ∨
      c = .restore ∨ (∃ clip, s.action c = .clip clip) ∨ (∃ l, s.action c = .add l) ∨
        s.action c = .nothing := by
  have clipping : ∀ clip, s.clipping clip = .clip clip ∨ s.clipping clip = .nothing := by
    intro clip
    unfold clipping
    split <;> simp
  have drawing : ∀ path paint,
      (∃ l, s.drawing path paint = .add l) ∨ s.drawing path paint = .nothing := by
    intro path paint
    unfold drawing
    split <;> simp
  cases c with
  | clipPath path combine antialias =>
      rcases clipping { path, combine, antialias } with h | h <;> simp [action, h]
  | clipRect rect combine antialias =>
      rcases clipping { path := .ofRect rect, combine, antialias } with h | h <;> simp [action, h]
  | drawPath path paint => simpa [action] using .inr (drawing path paint)
  | drawText text origin paint =>
      cases glyphs : s.glyphs text origin paint with
      | none => simp [action, glyphs]
      | some elements => simpa [action, glyphs] using .inr (drawing { elements } paint)
  | _ => simp [action]

/-- Only the command for it sets the matrix. -/
theorem action_eq_matrix {s : Scene α P} {c : Command α P} {matrix : Affine α} :
    s.action c = .matrix matrix ↔ c = .setMatrix matrix := by
  refine ⟨fun asked => ?_, fun same => same ▸ rfl⟩
  rcases s.action_cases c with ⟨_, rfl⟩ | ⟨_, rfl⟩ | rfl | rfl | ⟨_, h⟩ | ⟨_, h⟩ | h <;>
    simp_all [action]

/-- Only the command for it opens a layer, of the kind that its paint tells. -/
theorem action_eq_layer {s : Scene α P} {c : Command α P} {kind : LayerKind} :
    s.action c = .enter (some kind) ↔
      ∃ paint, c = .saveLayer paint ∧ LayerKind.classify paint = kind := by
  refine ⟨fun asked => ?_, fun ⟨_, same, classified⟩ => by rw [same, ← classified]; rfl⟩
  rcases s.action_cases c with ⟨_, rfl⟩ | ⟨_, rfl⟩ | rfl | rfl | ⟨_, h⟩ | ⟨_, h⟩ | h <;>
    simp_all [action]

end Scene

namespace Machine

variable {α P : Type} [Scalar α]

/-- Do what a command asks for. -/
def act (options : Options) (m : Machine α) : Action α → Machine α
  | .clip c => m.openClip c
  | .matrix matrix => m.setMatrix matrix
  | .add l => m.fill (.one (.leaf l))
  | .enter none => m.pushFrame none
  | .enter (some kind) => m.saveLayer kind
  | .leave => m.restore options
  | .nothing => m

/-- Follow actions in order. -/
def perform (options : Options) (m : Machine α) (as : List (Action α)) : Machine α :=
  as.foldl (act options) m

@[simp] theorem perform_nil (options : Options) (m : Machine α) : m.perform options [] = m := rfl

@[simp] theorem perform_cons (options : Options) (m : Machine α) (a : Action α)
    (as : List (Action α)) :
    m.perform options (a :: as) = (m.act options a).perform options as := rfl

/-- Setting the matrix opens the group that the matrix asks for, if there is one. -/
theorem setMatrix_of_opening {matrix t : Affine α} {m : Machine α}
    (h : matrix.opening m.transforms.entries = some t) :
    m.setMatrix matrix = m.openTransform t := by
  unfold Affine.opening at h
  unfold setMatrix relative
  split at h
  · exact absurd h (by simp)
  · rename_i visible
    rw [if_neg visible]
    exact congrArg (m.openTransform ·) (Option.some.inj h)

/-- Where the matrix asks for no group, setting it does nothing. -/
theorem setMatrix_of_no_opening {matrix : Affine α} {m : Machine α}
    (h : matrix.opening m.transforms.entries = none) : m.setMatrix matrix = m := by
  unfold Affine.opening at h
  unfold setMatrix relative
  split at h
  · rename_i covered
    rw [if_pos covered]
  · exact absurd h (by simp)

theorem draw_eq_act (s : Scene α P) (path : Path α) (paint : Paint α P) (m : Machine α) :
    m.draw s path paint = m.act s.options (s.drawing path paint) := by
  unfold draw Scene.drawing
  split <;> rfl

theorem clip_eq_act (s : Scene α P) (c : Clip α) (m : Machine α) :
    m.clip s.options c = m.act s.options (s.clipping c) := by
  unfold clip Scene.clipping
  split <;> rfl

/-- A command does what it asks for. -/
theorem step_eq_act (s : Scene α P) (m : Machine α) (c : Command α P) :
    m.step s c = m.act s.options (s.action c) := by
  cases c with
  | clipPath path combine antialias => exact clip_eq_act s _ m
  | clipRect rect combine antialias => exact clip_eq_act s _ m
  | drawPath path paint => exact draw_eq_act s path paint m
  | drawText text origin paint =>
      simp only [step, Scene.action, Scene.outline]
      cases s.glyphs text origin paint with
      | none => rfl
      | some elements => exact draw_eq_act s { elements } paint m
  | _ => rfl

theorem run_eq_perform (s : Scene α P) (m : Machine α) (cs : List (Command α P)) :
    m.run s cs = m.perform s.options (cs.map s.action) := by
  induction cs generalizing m with
  | nil => rfl
  | cons c cs ih =>
      rw [run, step_eq_act, ih]
      rfl

theorem restoreFrames_eq_perform (options : Options) (n : Nat) (m : Machine α) :
    restoreFrames options n m = m.perform options (List.replicate n .leave) := by
  induction n generalizing m with
  | zero => rfl
  | succ n ih =>
      rw [restoreFrames, ih]
      rfl

end Machine

end PictureMarkup
