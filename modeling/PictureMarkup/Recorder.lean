import PictureMarkup.Picture

/-!
# Recording pictures

A recorder collects commands as a canvas would receive them. It does not check that
saves and restores balance; scopes that are opened through it are closed again.
-/

namespace PictureMarkup

/-- A picture that is being recorded. -/
structure Recorder (α : Type) where
  cullRect : Rect α
  commands : List (Command α (Picture α)) := []

namespace Recorder

variable {α : Type}

/-- Record a command as it is. -/
def push (r : Recorder α) (c : Command α (Picture α)) : Recorder α :=
  { r with commands := r.commands ++ [c] }

/-- Open a scope. -/
def save (r : Recorder α) : Recorder α := r.push .save

/-- Leave a scope. -/
def restore (r : Recorder α) : Recorder α := r.push .restore

/-- Open a layer. -/
def saveLayer (r : Recorder α) (paint : Option (Paint α (Picture α))) : Recorder α :=
  r.push (.saveLayer paint)

/-- Replace the matrix. -/
def setMatrix (r : Recorder α) (matrix : Affine α) : Recorder α := r.push (.setMatrix matrix)

/-- Narrow the area that is drawn on to the inside of a path, with smooth edges. -/
def clipPath (r : Recorder α) (path : Path α) : Recorder α :=
  r.push (.clipPath path .intersect true)

/-- Narrow the area that is drawn on to a rectangle, with smooth edges. -/
def clipRect (r : Recorder α) (rect : Rect α) : Recorder α :=
  r.push (.clipRect rect .intersect true)

/-- Draw a path. -/
def drawPath (r : Recorder α) (path : Path α) (paint : Paint α (Picture α)) : Recorder α :=
  r.push (.drawPath path paint)

/-- Draw a text. -/
def drawText (r : Recorder α) (text : String) (origin : Point α)
    (paint : Paint α (Picture α)) : Recorder α :=
  r.push (.drawText text origin paint)

/-- Record something in a scope of its own. -/
def withSave (r : Recorder α) (inside : Recorder α → Recorder α) : Recorder α :=
  (inside r.save).restore

/-- Record something in a layer of its own. -/
def withLayer (r : Recorder α) (paint : Option (Paint α (Picture α)))
    (inside : Recorder α → Recorder α) : Recorder α :=
  (inside (r.saveLayer paint)).restore

/-- The number of commands recorded. -/
def length (r : Recorder α) : Nat := r.commands.length

/-- Nothing has been recorded. -/
def isEmpty (r : Recorder α) : Bool := r.commands.isEmpty

/-- The finished picture. -/
def finish (r : Recorder α) : Picture α := { cullRect := r.cullRect, commands := r.commands }

end Recorder

end PictureMarkup
