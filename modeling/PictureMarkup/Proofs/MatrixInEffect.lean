import Mathlib.Data.List.Infix
import PictureMarkup.Proofs.Exact
import PictureMarkup.Proofs.InStep
import PictureMarkup.Proofs.Placed

/-!
# The matrix in effect

A matrix of a picture is absolute, a transform of a group is relative to the groups around
it, and relative transforms that are close to the identity open no group at all. `Canvas`
keeps the matrix in effect the plain way, by replacing, saving and restoring it. The
product of the open transforms follows it within the tolerance of a single dropped
transform, however many are dropped: a relative transform is always taken from the product
that is really open, so that what was dropped before comes back with the next group.

`Tracks` relates the two, frame by frame, so that a restore takes both back to a state in
which they agree. It holds as long as no open group has a singular transform.
-/

namespace PictureMarkup

/-- The matrix in effect and the ones to come back to, the latest first. -/
structure Canvas where
  matrix : Affine ℚ := .identity
  saved : List (Affine ℚ) := []

namespace Canvas

/-- Remember the matrix. -/
def save (c : Canvas) : Canvas := { c with saved := c.matrix :: c.saved }

/-- Come back to the matrix of the latest save, if there is one. -/
def restore (c : Canvas) : Canvas :=
  match c.saved with
  | [] => c
  | matrix :: rest => ⟨matrix, rest⟩

/-- Replace the matrix, unless the new one is close to the identity. -/
def set (matrix : Affine ℚ) (c : Canvas) : Canvas :=
  if matrix.NearIdentity then c else { c with matrix := matrix }

/-- Follow a command. Draws and clips leave the matrix alone. -/
def step {P : Type} (c : Canvas) : Command ℚ P → Canvas
  | .save | .saveLayer _ => c.save
  | .restore => c.restore
  | .setMatrix matrix => c.set matrix
  | _ => c

/-- Follow commands in order. -/
def run {P : Type} (c : Canvas) (commands : List (Command ℚ P)) : Canvas :=
  commands.foldl step c

/-- What an action does to the matrix. -/
def act (c : Canvas) : Action ℚ → Canvas
  | .enter _ => c.save
  | .leave => c.restore
  | .matrix matrix => c.set matrix
  | .clip _ | .add _ | .nothing => c

/-- The matrix depends on what a command asks for only. -/
theorem step_eq_act {P : Type} (s : Scene ℚ P) (c : Canvas) (command : Command ℚ P) :
    c.step command = c.act (s.action command) := by
  have draw : ∀ path paint, c = c.act (s.drawing path paint) := by
    intro path paint
    unfold Scene.drawing
    split <;> rfl
  have clip : ∀ e, c = c.act (s.clipping e) := by
    intro e
    unfold Scene.clipping
    split <;> rfl
  cases command with
  | clipPath path combine antialias => exact clip _
  | clipRect rect combine antialias => exact clip _
  | drawPath path paint => exact draw path paint
  | drawText text origin paint =>
      simp only [step, Scene.action]
      cases s.glyphs text origin paint with
      | none => rfl
      | some elements => exact draw { elements } paint
  | _ => rfl

/-- The matrix in effect at each draw that shows, in command order. -/
def drawings {P : Type} (s : Scene ℚ P) :
    Machine ℚ → Canvas → List (Command ℚ P) → List (Affine ℚ)
  | _, _, [] => []
  | m, c, command :: rest =>
    (m.drawn s command).map (fun _ => c.matrix) ++
      drawings s (m.step s command) (c.step command) rest

end Canvas

/-- A matrix opens no group just if it is close to the identity, as it stands or seen from
inside the open transforms. -/
theorem Affine.opening_eq_none_iff (ts : List (Affine ℚ)) (matrix : Affine ℚ) :
    matrix.opening ts = none ↔ matrix.NearIdentity ∨ (matrix.relativeTo ts).NearIdentity := by
  rw [← isIdentity_iff, ← isIdentity_iff, ← Bool.or_eq_true]
  unfold opening
  split
  · rename_i covered
    exact ⟨fun _ => covered, fun _ => rfl⟩
  · rename_i visible
    exact ⟨fun none => absurd none (Option.some_ne_none _), fun covered => absurd covered visible⟩

/-- Transforms give a matrix: their product can be undone, and undoing it leaves the
matrix close to the identity. -/
structure Gives (ts : List (Affine ℚ)) (matrix : Affine ℚ) : Prop where
  mul_inverse : Affine.product ts * (Affine.product ts).inverse = .identity
  inverse_mul : (Affine.product ts).inverse * Affine.product ts = .identity
  near : ((Affine.product ts).inverse * matrix).NearIdentity

namespace Gives

variable {ts : List (Affine ℚ)} {matrix : Affine ℚ}

/-- A product that is not singular can be undone from both sides. -/
theorem of_ne_zero (h : (Affine.product ts).determinant ≠ 0)
    (near : ((Affine.product ts).inverse * matrix).NearIdentity) : Gives ts matrix :=
  ⟨Affine.mul_inverse h, Affine.inverse_mul h, near⟩

theorem nil : Gives [] .identity := by
  have one : (Affine.product ([] : List (Affine ℚ))).determinant = 1 := Affine.determinant_one
  have invertible : (Affine.product ([] : List (Affine ℚ))).determinant ≠ 0 := by
    rw [one]
    exact one_ne_zero
  refine of_ne_zero invertible ?_
  have undone : (Affine.product []).inverse * (.identity : Affine ℚ) = 1 :=
    Affine.inverse_mul invertible
  rw [undone]
  exact Affine.nearIdentity_one

/-- A matrix that is dropped leaves transforms that give it. -/
theorem of_near_relative (regular : ∀ t ∈ ts, 1 / 10 ^ 12 ≤ |t.determinant|)
    (dropped : (matrix.relativeTo ts).NearIdentity) : Gives ts matrix := by
  refine of_ne_zero (Affine.determinant_product_ne_zero regular) ?_
  rw [Affine.inverse_product_mul regular]
  exact dropped

/-- With the relative matrix behind them, transforms give a matrix exactly. -/
theorem append_relative
    (regular : ∀ t ∈ ts ++ [matrix.relativeTo ts], 1 / 10 ^ 12 ≤ |t.determinant|) :
    Gives (ts ++ [matrix.relativeTo ts]) matrix := by
  have before : ∀ t ∈ ts, 1 / 10 ^ 12 ≤ |t.determinant| :=
    fun t member => regular t (List.mem_append_left _ member)
  have invertible := Affine.determinant_product_ne_zero regular
  have whole := Affine.product_append_relativeTo before matrix
  refine of_ne_zero invertible ?_
  rw [whole] at invertible ⊢
  rw [Affine.inverse_mul invertible]
  exact Affine.nearIdentity_one

end Gives

/-- In every frame the transforms up to it give the matrix that is in effect there. -/
inductive Tracks : FrameStack (Affine ℚ) → Canvas → Prop
  | root {ts matrix} : Gives (FrameStack.entries ⟨ts, []⟩) matrix →
      Tracks ⟨ts, []⟩ ⟨matrix, []⟩
  | frame {ts frame outer matrix around saved} :
      Gives (FrameStack.entries ⟨ts, frame :: outer⟩) matrix →
      Tracks ⟨frame, outer⟩ ⟨around, saved⟩ →
      Tracks ⟨ts, frame :: outer⟩ ⟨matrix, around :: saved⟩

namespace Tracks

variable {ts ts' : FrameStack (Affine ℚ)} {c : Canvas}

theorem gives (h : Tracks ts c) : Gives ts.entries c.matrix := by
  cases h with
  | root given => exact given
  | frame given _ => exact given

/-- A new matrix and new transforms in the innermost frame stay on track if they agree there. -/
theorem replace (h : Tracks ts c) {matrix : Affine ℚ} (given : Gives ts'.entries matrix)
    (outer : ts'.outer = ts.outer) : Tracks ts' { c with matrix := matrix } := by
  obtain ⟨current, frames⟩ := ts'
  cases h with
  | root _ =>
      cases outer
      exact .root given
  | frame _ around =>
      cases outer
      exact .frame given around

theorem save (h : Tracks ts c) : Tracks ts.pushFrame c.save := by
  have given := h.gives
  rw [← FrameStack.entries_pushFrame] at given
  exact .frame given h

theorem restore (h : Tracks ts c) : Tracks ts.popFrame c.restore := by
  -- where nothing is saved there is no frame to leave either
  cases h with
  | root given => exact .root given
  | frame _ around => exact around

end Tracks

namespace Machine

variable {P : Type}

/-- No transform of an open group is singular. -/
def Regular (m : Machine ℚ) : Prop :=
  ∀ t ∈ m.opened.filterMap (·.transform), 1 / 10 ^ 12 ≤ |t.determinant|

instance (m : Machine ℚ) : Decidable m.Regular := List.decidableBAll _ _

/-- The transforms in effect are those of the open groups. -/
theorem Regular.entries {m : Machine ℚ} (h : m.Regular) (inStep : m.InStep) :
    ∀ t ∈ m.transforms.entries, 1 / 10 ^ 12 ≤ |t.determinant| := by
  rw [← inStep.entries]
  intro t member
  exact h t (List.mem_reverse.mp member)

/-- What a value has to do with the transforms in effect, it has to do with those around each
leaf that a command shows. -/
theorem forall₂_drawn {τ : Type} {R : List (Affine ℚ) → τ → Prop} {x : τ} {m : Machine ℚ}
    (related : R m.transforms.entries x) (s : Scene ℚ P) (command : Command ℚ P) :
    List.Forall₂ (fun p y => R p.around.transforms y) (m.drawn s command)
      ((m.drawn s command).map fun _ => x) := by
  rw [List.forall₂_map_right_iff, List.forall₂_same]
  intro p member
  unfold drawn at member
  split at member
  · -- nothing shows while a mask is being recorded
    exact absurd member List.not_mem_nil
  · obtain ⟨l, -, rfl⟩ := List.mem_map.mp member
    exact related

/-- A matrix that is set keeps the transforms on its track. -/
theorem tracks_setMatrix {m : Machine ℚ} {c : Canvas} (inStep : m.InStep) (regular : m.Regular)
    (matrix : Affine ℚ) (inStep' : (m.setMatrix matrix).InStep)
    (regular' : (m.setMatrix matrix).Regular) (h : Tracks m.transforms c) :
    Tracks (m.setMatrix matrix).transforms (c.set matrix) := by
  have before := regular.entries inStep
  have after := regular'.entries inStep'
  unfold Canvas.set
  by_cases near : matrix.NearIdentity
  · -- both machines leave everything alone
    have ignored : matrix.opening m.transforms.entries = none :=
      (Affine.opening_eq_none_iff _ matrix).mpr (.inl near)
    rw [setMatrix_of_no_opening ignored, if_pos near]
    exact h
  · rw [if_neg near]
    cases opening : matrix.opening m.transforms.entries with
    | none =>
        -- the open transforms stay and give the new matrix as well
        have dropped : (matrix.relativeTo m.transforms.entries).NearIdentity :=
          ((Affine.opening_eq_none_iff _ matrix).mp opening).resolve_left near
        rw [setMatrix_of_no_opening opening]
        exact h.replace (.of_near_relative before dropped) rfl
    | some t =>
        -- the new group makes up for everything that was dropped before it
        have relative := Affine.eq_relativeTo_of_opening opening
        rw [setMatrix_of_opening opening] at after ⊢
        have given : Gives (m.transforms.push t).entries matrix := by
          change ∀ u ∈ (m.transforms.push t).entries, _ at after
          rw [FrameStack.entries_push, relative] at after ⊢
          exact .append_relative after
        exact h.replace given rfl

/-- The state of a conversion and the matrix in effect, which its transforms track. -/
structure OnTrack (m : Machine ℚ) (c : Canvas) : Prop where
  grown : Grown {} m
  regular : m.Regular
  tracks : Tracks m.transforms c

namespace OnTrack

variable {m : Machine ℚ} {c : Canvas}

/-- Every action keeps the state on track, one case for each kind. -/
theorem act (h : OnTrack m c) (options : Options) (a : Action ℚ)
    (regular : (m.act options a).Regular) : OnTrack (m.act options a) (c.act a) := by
  have grown := h.grown.act options lockstep_nothing a (Nat.zero_le _)
  refine ⟨grown, regular, ?_⟩
  cases a with
  | clip e => exact h.tracks
  | matrix matrix =>
      exact tracks_setMatrix h.grown.inStep h.regular matrix grown.inStep regular h.tracks
  | add l =>
      show Tracks (m.fill _).transforms c
      rw [fill_transforms]
      exact h.tracks
  | enter layer =>
      cases layer with
      | none => exact h.tracks.save
      | some kind => exact h.tracks.save
  | leave =>
      show Tracks (m.restore options).transforms c.restore
      rw [restore_transforms (h.grown.lockstep lockstep_nothing)]
      exact h.tracks.restore
  | nothing => exact h.tracks

theorem step (h : OnTrack m c) (s : Scene ℚ P) (command : Command ℚ P)
    (regular : (m.step s command).Regular) : OnTrack (m.step s command) (c.step command) := by
  rw [Canvas.step_eq_act s]
  rw [step_eq_act] at regular ⊢
  exact h.act s.options _ regular

/-- A run stays on track as long as every transform that it opens can be undone. -/
theorem run (s : Scene ℚ P) (commands : List (Command ℚ P)) (h : OnTrack m c)
    (regular : ∀ done, done <+: commands → (m.run s done).Regular) :
    OnTrack (m.run s commands) (c.run commands) := by
  induction commands generalizing m c with
  | nil => exact h
  | cons command rest ih =>
      have first := regular [command] (List.prefix_append [command] rest)
      refine ih (h.step s command first) fun done initial => ?_
      exact regular (command :: done) (List.cons_prefix_cons.mpr ⟨rfl, initial⟩)

theorem start (s : Scene ℚ P) (bounds : Rect ℚ)
    (regular : (Machine.start s.options bounds).Regular) :
    OnTrack (Machine.start s.options bounds) {} := by
  refine ⟨grown_start s.options bounds, regular, ?_⟩
  rw [start_transforms]
  exact .root .nil

/-- What commands show of leaves stands under transforms that give the matrix in effect at
the time. -/
theorem drawings (s : Scene ℚ P) (commands : List (Command ℚ P)) (h : OnTrack m c)
    (regular : ∀ done, done <+: commands → (m.run s done).Regular) :
    List.Forall₂ (fun p matrix => Gives p.around.transforms matrix)
      (m.drawings s commands) (Canvas.drawings s m c commands) := by
  induction commands generalizing m c with
  | nil => exact .nil
  | cons command rest ih =>
      have first := regular [command] (List.prefix_append [command] rest)
      have others := ih (h.step s command first) fun done initial =>
        regular (command :: done) (List.cons_prefix_cons.mpr ⟨rfl, initial⟩)
      exact List.rel_append (forall₂_drawn h.tracks.gives s command) others

end OnTrack

end Machine

/-- **Dropped matrices do not add up.** Over the rationals, as long as no group is opened
with a singular transform: after every command the open groups carry the transforms in
effect, and their product can be undone and gives the matrix in effect within the tolerance
of one dropped matrix. So does the product of the transforms above each leaf of the tree
for the matrix in effect when the leaf was drawn. -/
theorem Scene.matrix_in_effect {P : Type} (s : Scene ℚ P) (bounds : Rect ℚ)
    (commands : List (Command ℚ P))
    (regular : ∀ done, done <+: commands →
      ((Machine.start s.options bounds).run s done).Regular) :
    (∀ done, done <+: commands →
      let m := (Machine.start s.options bounds).run s done
      (m.opened.filterMap (·.transform)).reverse = m.transforms.entries ∧
        Gives m.transforms.entries (Canvas.run {} done).matrix) ∧
      ∃ leaves, (s.convert bounds commands).placed =
          Placed.background s.options bounds ++ leaves ∧
        List.Forall₂ (fun p matrix => Gives p.around.transforms matrix) leaves
          (Canvas.drawings s (Machine.start s.options bounds) {} commands) := by
  have start := Machine.OnTrack.start s bounds (regular [] List.nil_prefix)
  constructor
  · intro done initial m
    have reached : Machine.OnTrack m (Canvas.run {} done) :=
      start.run s done fun part earlier => regular part (earlier.trans initial)
    exact ⟨reached.grown.inStep.entries, reached.tracks.gives⟩
  · exact ⟨_, s.placed_eq_drawings bounds commands, start.drawings s commands regular⟩

/-- A scene without options, outlines and nested pictures, for unit squares only. -/
def Scene.unitSquares : Scene ℚ Empty where
  options := {}
  glyphs _ _ _ := none
  bounds _ := ⟨0, 0, 1, 1⟩
  cullRect := Empty.elim
  visual := Empty.elim

/-- A matrix that is dropped, another one inside a layer, and a restore too many. -/
def Canvas.wandering : List (Command ℚ Empty) :=
  let square := .drawPath (.ofRect ⟨0, 0, 1, 1⟩) .standard
  [.setMatrix ⟨2, 0, 0, 2, 0, 0⟩, .save, .setMatrix ⟨2 + 1 / 10 ^ 6, 0, 0, 2, 0, 0⟩, square,
    .saveLayer none, .setMatrix ⟨2, 0, 0, 2, 30, 0⟩, square, .restore, .restore, .restore,
    square]

/-- A matrix is dropped, another one is set inside a layer, and the last restore has no frame to
leave: each leaf stands under the matrix in effect. -/
theorem Scene.matrix_in_effect_wandering :
    (∀ done, done <+: Canvas.wandering →
        ((Machine.start {} ⟨0, 0, 1, 1⟩).run unitSquares done).Regular) ∧
      ∃ leaves, (unitSquares.convert ⟨0, 0, 1, 1⟩ Canvas.wandering).placed = leaves ∧
        List.Forall₂ (fun p matrix => Gives p.around.transforms matrix) leaves
          [⟨2 + 1 / 10 ^ 6, 0, 0, 2, 0, 0⟩, ⟨2, 0, 0, 2, 30, 0⟩, ⟨2, 0, 0, 2, 0, 0⟩] := by
  have regular : ∀ done ∈ Canvas.wandering.inits,
      ((Machine.start {} ⟨0, 0, 1, 1⟩).run unitSquares done).Regular := by decide +kernel
  have every : ∀ done, done <+: Canvas.wandering →
      ((Machine.start {} ⟨0, 0, 1, 1⟩).run unitSquares done).Regular :=
    fun done initial => regular done ((List.mem_inits _ _).mpr initial)
  have matrices : Canvas.drawings unitSquares (Machine.start {} ⟨0, 0, 1, 1⟩) {}
      Canvas.wandering =
        [⟨2 + 1 / 10 ^ 6, 0, 0, 2, 0, 0⟩, ⟨2, 0, 0, 2, 30, 0⟩, ⟨2, 0, 0, 2, 0, 0⟩] := by
    decide +kernel
  obtain ⟨-, leaves, placed, gives⟩ :=
    matrix_in_effect unitSquares ⟨0, 0, 1, 1⟩ Canvas.wandering every
  refine ⟨every, leaves, placed, ?_⟩
  rw [← matrices]
  exact gives

end PictureMarkup
