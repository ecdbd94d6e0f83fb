import PictureMarkup.Geometry

/-!
# Stacks of frames

Saving opens a frame and restoring leaves it. Whatever is pushed goes into the
innermost frame and disappears with it. The outermost frame is always there.
-/

namespace PictureMarkup

/-- Entries in frames; both lists begin with what came last. -/
structure FrameStack (τ : Type) where
  /-- The entries of the innermost frame, the latest first. -/
  current : List τ
  /-- The frames around it, the innermost first. -/
  outer : List (List τ)

namespace FrameStack

variable {τ : Type}

/-- The outermost frame, without entries. -/
def empty : FrameStack τ := ⟨[], []⟩

/-- Open a frame; what is in effect stays in effect. -/
def pushFrame (s : FrameStack τ) : FrameStack τ := ⟨[], s.current :: s.outer⟩

/-- Leave the innermost frame; the outermost one stays. -/
def popFrame (s : FrameStack τ) : FrameStack τ :=
  match s.outer with
  | [] => s
  | frame :: rest => ⟨frame, rest⟩

/-- Add an entry to the current frame. -/
def push (s : FrameStack τ) (x : τ) : FrameStack τ := ⟨x :: s.current, s.outer⟩

/-- The number of frames around the current one. -/
def depth (s : FrameStack τ) : Nat := s.outer.length

/-- All entries, the outermost first. -/
def entries (s : FrameStack τ) : List τ := (s.current ++ s.outer.flatten).reverse

/-- Opening a frame puts nothing out of effect. -/
@[simp] theorem entries_pushFrame (s : FrameStack τ) : s.pushFrame.entries = s.entries := by
  simp [entries, pushFrame]

/-- A new entry is the innermost one. -/
@[simp] theorem entries_push (s : FrameStack τ) (x : τ) :
    (s.push x).entries = s.entries ++ [x] := by
  simp [entries, push]

end FrameStack

namespace Affine

variable {α : Type} [Scalar α]

/-- Take a transform off the front of a matrix, unless it is singular; then it stays. -/
def undo (m ancestor : Affine α) : Affine α :=
  if ancestor.isSingular then m else ancestor.inverse * m

/-- An absolute matrix seen from inside a list of transforms, outermost first. -/
def relativeTo (m : Affine α) (ancestors : List (Affine α)) : Affine α := ancestors.foldl undo m

end Affine

end PictureMarkup
