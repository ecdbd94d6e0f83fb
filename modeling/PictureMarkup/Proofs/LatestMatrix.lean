import PictureMarkup.Proofs.MatrixInEffect

/-!
# The latest matrix in scope

A matrix of a picture is absolute. It replaces the matrix before it, until the frame in
which it was set is left. A stack of frames keeps what was set (`Issued`), and the latest
entry of all its frames is the matrix in scope.

The transforms above a leaf give that matrix if it could be taken up when it was set
(`Issued.Sound`). Two things may prevent this: an open transform that is singular is left
out of the relative matrix, and a matrix close to the identity opens no group even where
other transforms are open. Neither lasts. A relative matrix is taken from the transforms
that are really open, so that the next matrix that is taken up puts everything right, and
so does leaving the frame.

An action of the machine keeps this frame by frame (`Machine.Upholds.act`), and so do a
command and a run. It holds of the groups that are open behind any first part of a picture,
whether or not a mask is being recorded there, and so of every draw.
-/

namespace PictureMarkup

namespace FrameStack

variable {σ τ : Type}

/-- The entry that came last. -/
def latest (s : FrameStack τ) : Option τ := s.entries.getLast?

@[simp] theorem latest_push (s : FrameStack τ) (x : τ) : (s.push x).latest = some x := by
  rw [latest, entries_push, List.getLast?_append_of_ne_nil _ (List.cons_ne_nil x [])]
  rfl

@[simp] theorem latest_pushFrame (s : FrameStack τ) : s.pushFrame.latest = s.latest := by
  rw [latest, entries_pushFrame, latest]

/-- Two stacks have the same frames, and up to each of them they are related. -/
inductive Framewise (R : FrameStack σ → FrameStack τ → Prop) :
    FrameStack σ → FrameStack τ → Prop
  | root {x y} : R ⟨x, []⟩ ⟨y, []⟩ → Framewise R ⟨x, []⟩ ⟨y, []⟩
  | frame {x y f g fs gs} : R ⟨x, f :: fs⟩ ⟨y, g :: gs⟩ → Framewise R ⟨f, fs⟩ ⟨g, gs⟩ →
      Framewise R ⟨x, f :: fs⟩ ⟨y, g :: gs⟩

namespace Framewise

variable {R : FrameStack σ → FrameStack τ → Prop} {a a' : FrameStack σ} {b b' : FrameStack τ}

theorem whole (h : Framewise R a b) : R a b := by
  cases h with
  | root related => exact related
  | frame related _ => exact related

theorem replace (h : Framewise R a b) (related : R a' b') (left : a'.outer = a.outer)
    (right : b'.outer = b.outer) : Framewise R a' b' := by
  obtain ⟨x', fs'⟩ := a'
  obtain ⟨y', gs'⟩ := b'
  cases h with
  | root _ =>
      cases left
      cases right
      exact .root related
  | frame _ around =>
      cases left
      cases right
      exact .frame related around

theorem pushFrame (h : Framewise R a b) (related : R a.pushFrame b.pushFrame) :
    Framewise R a.pushFrame b.pushFrame := .frame related h

/-- What holds up to each frame holds up to the one around it. -/
theorem popFrame (h : Framewise R a b) : Framewise R a.popFrame b.popFrame := by
  cases h with
  | root related => exact .root related
  | frame _ around => exact around

end Framewise

end FrameStack

open FrameStack

/-- A matrix that was set, and the transforms that were open at that time. -/
structure Issued where
  matrix : Affine ℚ
  inside : List (Affine ℚ)
  deriving DecidableEq

namespace Issued

/-- The matrix could be taken up: the open transforms could all be undone, and if the matrix
is close to the identity, it looks so from inside them as well. -/
structure Sound (i : Issued) : Prop where
  regular : ∀ t ∈ i.inside, 1 / 10 ^ 12 ≤ |t.determinant|
  settled : i.matrix.NearIdentity → (i.matrix.relativeTo i.inside).NearIdentity

instance : DecidablePred Sound := fun i =>
  decidable_of_iff ((∀ t ∈ i.inside, 1 / 10 ^ 12 ≤ |t.determinant|) ∧
      (i.matrix.NearIdentity → (i.matrix.relativeTo i.inside).NearIdentity))
    ⟨fun h => ⟨h.1, h.2⟩, fun h => ⟨h.1, h.2⟩⟩

/-- What an action does to what was set, where some transforms are open. -/
def act (inside : List (Affine ℚ)) (set : FrameStack Issued) : Action ℚ → FrameStack Issued
  | .enter _ => set.pushFrame
  | .leave => set.popFrame
  | .matrix matrix => set.push ⟨matrix, inside⟩
  | .clip _ | .add _ | .nothing => set

section

variable {P : Type} (s : Scene ℚ P)

/-- What a command does to what was set, in a state of the machine. -/
def step (m : Machine ℚ) (set : FrameStack Issued) (command : Command ℚ P) : FrameStack Issued :=
  act m.transforms.entries set (s.action command)

/-- What was set and is still in scope behind some commands. -/
def run : Machine ℚ → FrameStack Issued → List (Command ℚ P) → FrameStack Issued
  | _, set, [] => set
  | m, set, command :: rest => run (m.step s command) (step s m set command) rest

/-- What is in scope at each draw that shows, in command order. -/
def drawings : Machine ℚ → FrameStack Issued → List (Command ℚ P) → List (Option Issued)
  | _, _, [] => []
  | m, set, command :: rest =>
    (m.drawn s command).map (fun _ => set.latest) ++
      drawings (m.step s command) (step s m set command) rest

end

end Issued

/-- The matrix in scope, the identity if none was set. -/
def Issued.inScope : Option Issued → Affine ℚ
  | none => .identity
  | some i => i.matrix

/-- Transforms give the matrix in scope, provided that it could be taken up. -/
def Upheld (ts : List (Affine ℚ)) (latest : Option Issued) : Prop :=
  (∀ i, latest = some i → i.Sound) → Gives ts (Issued.inScope latest)

/-- Where every matrix could be taken up, the transforms give the matrices in scope. -/
theorem Upheld.gives {leaves : List (Placed ℚ)} {scopes : List (Option Issued)}
    (upheld : List.Forall₂ (fun p latest => Upheld p.around.transforms latest) leaves scopes)
    (sound : ∀ latest ∈ scopes, ∀ i ∈ latest, i.Sound) :
    List.Forall₂ (fun p matrix => Gives p.around.transforms matrix) leaves
      (scopes.map Issued.inScope) := by
  rw [List.forall₂_map_right_iff]
  induction upheld with
  | nil => exact .nil
  | cons first _ ih =>
      refine .cons (first fun i latest => sound _ List.mem_cons_self i latest) (ih ?_)
      exact fun latest member => sound latest (List.mem_cons_of_mem _ member)

/-- A relative matrix behind transforms that are not singular gives the matrix, whether or
not it is singular itself. -/
theorem Gives.behind {ts : List (Affine ℚ)} {matrix : Affine ℚ}
    (regular : ∀ t ∈ ts, 1 / 10 ^ 12 ≤ |t.determinant|) (invertible : matrix.determinant ≠ 0) :
    Gives (ts ++ [matrix.relativeTo ts]) matrix := by
  have whole := Affine.product_append_relativeTo regular matrix
  refine of_ne_zero (by rwa [whole]) ?_
  rw [whole, Affine.inverse_mul invertible]
  exact Affine.nearIdentity_one

namespace Machine

/-- A matrix that is set is upheld by the transforms that are open afterwards. -/
theorem upheld_setMatrix (m : Machine ℚ) {matrix : Affine ℚ}
    (invertible : matrix.determinant ≠ 0) :
    Upheld (m.setMatrix matrix).transforms.entries (some ⟨matrix, m.transforms.entries⟩) := by
  intro sound
  obtain ⟨regular, settled⟩ := sound _ rfl
  cases opening : matrix.opening m.transforms.entries with
  | none =>
      -- nothing is opened: the matrix is in effect already, if it could be taken up
      have near : (matrix.relativeTo m.transforms.entries).NearIdentity :=
        ((Affine.opening_eq_none_iff _ matrix).mp opening).elim settled id
      rw [setMatrix_of_no_opening opening]
      exact .of_near_relative regular near
  | some t =>
      -- the new group makes up for all that the open transforms are off by
      rw [setMatrix_of_opening opening, Affine.eq_relativeTo_of_opening opening]
      show Gives (m.transforms.push _).entries matrix
      rw [entries_push]
      exact .behind regular invertible

/-- A matrix does not reach the frames around the current one. -/
theorem setMatrix_outer (m : Machine ℚ) (matrix : Affine ℚ) :
    (m.setMatrix matrix).transforms.outer = m.transforms.outer := by
  cases opening : matrix.opening m.transforms.entries with
  | none => rw [setMatrix_of_no_opening opening]
  | some t =>
      rw [setMatrix_of_opening opening]
      rfl

/-- In every frame the open transforms give the matrix in scope there. -/
structure Upholds (m : Machine ℚ) (set : FrameStack Issued) : Prop where
  grown : Grown {} m
  frames : Framewise (fun ts set => Upheld ts.entries set.latest) m.transforms set

namespace Upholds

variable {P : Type} {m : Machine ℚ} {set : FrameStack Issued}

/-- Every action upholds what was set, one case for each kind. -/
theorem act (h : Upholds m set) (options : Options) (a : Action ℚ)
    (invertible : ∀ matrix, a = .matrix matrix → matrix.determinant ≠ 0) :
    Upholds (m.act options a) (Issued.act m.transforms.entries set a) := by
  refine ⟨h.grown.act options lockstep_nothing a (Nat.zero_le _), ?_⟩
  have pushed : Upheld m.transforms.pushFrame.entries set.pushFrame.latest := by
    rw [entries_pushFrame, latest_pushFrame]
    exact h.frames.whole
  cases a with
  | clip e => exact h.frames
  | matrix matrix =>
      -- the frames outside keep what they had
      refine h.frames.replace ?_ (m.setMatrix_outer matrix) rfl
      show Upheld _ (set.push _).latest
      rw [latest_push]
      exact m.upheld_setMatrix (invertible matrix rfl)
  | add l =>
      show Framewise _ (m.fill _).transforms set
      rw [fill_transforms]
      exact h.frames
  | enter layer =>
      cases layer with
      | none => exact h.frames.pushFrame pushed
      | some kind => exact h.frames.pushFrame pushed
  | leave =>
      show Framewise _ (m.restore options).transforms set.popFrame
      rw [restore_transforms (h.grown.lockstep lockstep_nothing)]
      exact h.frames.popFrame
  | nothing => exact h.frames

theorem start (s : Scene ℚ P) (bounds : Rect ℚ) :
    Upholds (Machine.start s.options bounds) .empty := by
  refine ⟨grown_start s.options bounds, ?_⟩
  rw [start_transforms]
  exact .root fun _ => .nil

/-- A command upholds what was set, if its matrix is invertible. -/
theorem step (h : Upholds m set) (s : Scene ℚ P) (command : Command ℚ P)
    (invertible : ∀ matrix, command = .setMatrix matrix → matrix.determinant ≠ 0) :
    Upholds (m.step s command) (Issued.step s m set command) := by
  rw [step_eq_act]
  exact h.act s.options _ fun matrix asked => invertible matrix (Scene.action_eq_matrix.mp asked)

/-- The open transforms give the matrix in scope behind any commands. -/
theorem run (s : Scene ℚ P) (commands : List (Command ℚ P)) (h : Upholds m set)
    (invertible : ∀ matrix, .setMatrix matrix ∈ commands → matrix.determinant ≠ 0) :
    Upholds (m.run s commands) (Issued.run s m set commands) := by
  induction commands generalizing m set with
  | nil => exact h
  | cons command rest ih =>
      have stepped := h.step s command fun matrix same =>
        invertible matrix (same ▸ List.mem_cons_self)
      exact ih stepped fun matrix member => invertible matrix (List.mem_cons_of_mem _ member)

/-- What commands show of leaves stands under transforms that give the matrix in scope at
the time. -/
theorem drawings (s : Scene ℚ P) (commands : List (Command ℚ P)) (h : Upholds m set)
    (invertible : ∀ matrix, .setMatrix matrix ∈ commands → matrix.determinant ≠ 0) :
    List.Forall₂ (fun p latest => Upheld p.around.transforms latest)
      (m.drawings s commands) (Issued.drawings s m set commands) := by
  induction commands generalizing m set with
  | nil => exact .nil
  | cons command rest ih =>
      have stepped := h.step s command fun matrix same =>
        invertible matrix (same ▸ List.mem_cons_self)
      have others := ih stepped fun matrix member =>
        invertible matrix (List.mem_cons_of_mem _ member)
      exact List.rel_append (forall₂_drawn h.frames.whole s command) others

end Upholds

end Machine

/-- **Matrices are absolute.** Over the rationals, in a picture that sets matrices with a
determinant of at least a trillionth only: after every command the open groups carry the
transforms in effect, and their product can be undone and gives, within the tolerance of one
dropped matrix, the latest matrix in scope, if that one could be taken up when it was set. A
draw puts its leaf into the innermost of these groups, in a mask or not. The product of the
transforms above each leaf of the tree, those of masks left out, gives the matrix in scope
when the leaf was drawn in the same way. -/
theorem Scene.latest_matrix_in_scope {P : Type} (s : Scene ℚ P) (bounds : Rect ℚ)
    (commands : List (Command ℚ P))
    (invertible : ∀ matrix, .setMatrix matrix ∈ commands → 1 / 10 ^ 12 ≤ |matrix.determinant|) :
    (∀ done, done <+: commands →
      let m := (Machine.start s.options bounds).run s done
      (m.opened.filterMap (·.transform)).reverse = m.transforms.entries ∧
        Upheld m.transforms.entries
          (Issued.run s (Machine.start s.options bounds) .empty done).latest ∧
        ∀ command l, s.drawn? command = some l → m.step s command = m.fill (.one (.leaf l))) ∧
      ∃ leaves, (s.convert bounds commands).placed =
          Placed.background s.options bounds ++ leaves ∧
        List.Forall₂ (fun p latest => Upheld p.around.transforms latest) leaves
          (Issued.drawings s (Machine.start s.options bounds) .empty commands) := by
  have start := Machine.Upholds.start s bounds
  have nonzero : ∀ matrix, .setMatrix matrix ∈ commands → matrix.determinant ≠ 0 :=
    fun matrix member => Affine.determinant_ne_zero (invertible matrix member)
  constructor
  · intro done initial m
    -- what holds behind a run holds behind each first part of it
    have reached := start.run s done fun matrix member => nonzero matrix (initial.subset member)
    exact ⟨reached.grown.inStep.entries, reached.frames.whole, fun _ _ => m.step_of_drawn⟩
  · exact ⟨_, s.placed_eq_drawings bounds commands, start.drawings s commands nonzero⟩

/-- The matrix that scales by a number. -/
def Affine.scale (x : ℚ) : Affine ℚ := ⟨x, 0, 0, x, 0, 0⟩

namespace Issued

/-- A draw of the unit square. -/
def square : Command ℚ Empty := .drawPath (.ofRect ⟨0, 0, 1, 1⟩) .standard

/-- A matrix is not taken up inside a transform that shrinks too much, and set again after
that frame is left. -/
def recovering : List (Command ℚ Empty) :=
  [.setMatrix (.scale 1), square, .setMatrix (.scale 4096), .save,
    .setMatrix (.scale (1 / 4096)), square, .setMatrix (.scale 2), .restore, square,
    .setMatrix (.scale 2), square]

/-- The same, and then a matrix inside a mask. -/
def masking : List (Command ℚ Empty) :=
  recovering ++ [.saveLayer (some { Paint.layer .maskSentinel with
    colorFilter := some .luminanceToAlpha }), .setMatrix (.scale 3)]

/-- Back to the identity after another matrix. -/
def back : List (Command ℚ Empty) := [.setMatrix (.scale 2), .setMatrix (.scale 1), square]

/-- One more matrix after two with a small ratio. -/
def shrinking : List (Command ℚ Empty) :=
  [.setMatrix (.scale 4096), .setMatrix (.scale (1 / 4096)), .setMatrix (.scale 2), square]

/-- What is in scope at each draw of some commands. -/
def scopes (commands : List (Command ℚ Empty)) : List (Option Issued) :=
  drawings .unitSquares (Machine.start {} ⟨0, 0, 1, 1⟩) .empty commands

/-- The matrix that a command sets, if it sets one, is not singular. -/
def invertible : Command ℚ Empty → Bool
  | .setMatrix matrix => decide (1 / 10 ^ 12 ≤ |matrix.determinant|)
  | _ => true

theorem invertible_of_all {commands : List (Command ℚ Empty)} (h : commands.all invertible) :
    ∀ matrix, .setMatrix matrix ∈ commands → 1 / 10 ^ 12 ≤ |matrix.determinant| :=
  fun _ member => of_decide_eq_true (List.all_eq_true.mp h _ member)

end Issued

/-- The groups that are open at a draw inside a mask give the matrix that was set in the mask,
and those above the other leaves the matrices that were in scope there. -/
theorem Scene.latest_matrix_in_scope_recovering :
    let m := (Machine.start {} ⟨0, 0, 1, 1⟩).run unitSquares Issued.masking
    (∀ matrix, .setMatrix matrix ∈ Issued.masking ++ [Issued.square] →
        1 / 10 ^ 12 ≤ |matrix.determinant|) ∧
      some .maskBrush ∈ m.layers ∧
      (∃ l, m.step unitSquares Issued.square = m.fill (.one (.leaf l))) ∧
      Gives (m.opened.filterMap (·.transform)).reverse (.scale 3) ∧
      ∃ leaves, (unitSquares.convert ⟨0, 0, 1, 1⟩ (Issued.masking ++ [Issued.square])).placed =
          leaves ∧
        List.Forall₂ (fun p matrix => Gives p.around.transforms matrix) leaves
          [.scale 1, .scale (1 / 4096), .scale 4096, .scale 2] := by
  intro m
  have all : (Issued.masking ++ [Issued.square]).all Issued.invertible := by decide +kernel
  have invertible := Issued.invertible_of_all all
  have sound : ∀ latest ∈ Issued.scopes (Issued.masking ++ [Issued.square]),
      ∀ i ∈ latest, i.Sound := by
    decide +kernel
  have matrices : (Issued.scopes (Issued.masking ++ [Issued.square])).map Issued.inScope =
      [.scale 1, .scale (1 / 4096), .scale 4096, .scale 2] := by decide +kernel
  have latest : (Issued.run unitSquares (Machine.start {} ⟨0, 0, 1, 1⟩) .empty
      Issued.masking).latest = some ⟨.scale 3, [.scale 4096, .scale (1 / 2048)]⟩ := by
    decide +kernel
  obtain ⟨machine, leaves, placed, upheld⟩ :=
    latest_matrix_in_scope unitSquares ⟨0, 0, 1, 1⟩ (Issued.masking ++ [Issued.square]) invertible
  obtain ⟨carried, masked, draws⟩ := machine Issued.masking (List.prefix_append _ _)
  rw [← carried, show unitSquares.options = {} from rfl, latest] at masked
  refine ⟨invertible, by decide +kernel, ⟨_, draws Issued.square _ rfl⟩, masked fun i same => ?_,
    leaves, placed, ?_⟩
  · cases same
    decide +kernel
  · rw [← matrices]
    exact Upheld.gives upheld sound

/-- If the matrices of a picture all have a determinant of at least a trillionth, the
transforms above each leaf give the matrix in scope. -/
def Issued.AlwaysGiven (commands : List (Command ℚ Empty)) : Prop :=
  (∀ matrix, .setMatrix matrix ∈ commands → 1 / 10 ^ 12 ≤ |matrix.determinant|) →
    List.Forall₂ (fun p matrix => Gives p.around.transforms matrix)
      (Scene.unitSquares.convert ⟨0, 0, 1, 1⟩ commands).placed ((scopes commands).map inScope)

theorem Issued.AlwaysGiven.near {commands : List (Command ℚ Empty)} (given : AlwaysGiven commands)
    (all : commands.all invertible) {ts : List (Affine ℚ)} {matrix : Affine ℚ}
    (above : (Scene.unitSquares.convert ⟨0, 0, 1, 1⟩ commands).placed.map (·.around.transforms) =
      [ts])
    (scope : (scopes commands).map inScope = [matrix]) :
    ((Affine.product ts).inverse * matrix).NearIdentity := by
  have single := given (invertible_of_all all)
  rw [scope, ← List.forall₂_map_left_iff (R := Gives), above] at single
  exact (List.forall₂_cons.mp single).1.near

/-- The transforms above a leaf do not always give the matrix in scope: after the identity,
and after a small ratio, they may give another. -/
theorem Issued.not_always_given : ¬ AlwaysGiven back ∧ ¬ AlwaysGiven shrinking := by
  constructor
  · intro given
    have above : (Scene.unitSquares.convert ⟨0, 0, 1, 1⟩ back).placed.map
        (·.around.transforms) = [[.scale 2]] := by decide +kernel
    have scope : (scopes back).map inScope = [.scale 1] := by decide +kernel
    have near := given.near (by decide +kernel) above scope
    exact absurd near (by decide +kernel)
  · intro given
    have above : (Scene.unitSquares.convert ⟨0, 0, 1, 1⟩ shrinking).placed.map
        (·.around.transforms) = [[.scale 4096, .scale (1 / 2 ^ 24), .scale (1 / 2048)]] := by
      decide +kernel
    have scope : (scopes shrinking).map inScope = [.scale 2] := by decide +kernel
    have near := given.near (by decide +kernel) above scope
    exact absurd near (by decide +kernel)

end PictureMarkup
