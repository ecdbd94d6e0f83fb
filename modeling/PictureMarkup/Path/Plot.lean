import PictureMarkup.Decimal.Nearest
import PictureMarkup.Path.Arc
import PictureMarkup.Path.Data

/-!
# Path data, drawn

A plotter follows the steps of path data and leaves absolute elements behind. It
remembers the current point, where the subpath began, the control point that a
smooth curve reflects, and whether a closed subpath still has to be left by a move.

The control point survives closing a subpath, and smooth curves of either degree
reflect whatever was remembered last; after a move, a line or an arc that is the
current point, so that nothing is reflected.
-/

namespace PictureMarkup

open PathData

/-- The float nearest to a spelled number. -/
def PathData.Numeral.value (n : Numeral) : Float :=
  let size := Decimal.nearest n.digits n.exponent
  if n.negative then -size else size

/-- The position or distance that a pair spells. -/
def PathData.Pair.value (p : Pair) : Point Float := ⟨p.x.value, p.y.value⟩

/-- What is remembered between two steps. -/
structure Plotter where
  current : Point Float := ⟨0, 0⟩
  start : Point Float := ⟨0, 0⟩
  control : Option (Point Float) := none
  closed : Bool := false

namespace Plotter

/-- A point as a step gives it: from the origin, or from the current point. -/
def place (m : Plotter) (relative : Bool) (p : Pair) : Point Float :=
  let v := p.value
  if relative then ⟨m.current.x + v.x, m.current.y + v.y⟩ else v

/-- The remembered control point on the other side of the current point. -/
def reflected (m : Plotter) : Point Float :=
  match m.control with
  | none => m.current
  | some c => ⟨2 * m.current.x - c.x, 2 * m.current.y - c.y⟩

/-- Land on a point, remembering a control point. -/
def land (m : Plotter) (control p : Point Float) : Plotter :=
  { m with current := p, control := some control, closed := false }

/-- The elements that a step draws, and what is remembered after it. -/
def follow (m : Plotter) (s : Step) : List (PathElement Float) × Plotter :=
  let place := m.place s.relative
  match s.command with
  | .move p =>
    let p := place p
    ([.moveTo p], { m.land p p with start := p })
  | .line p =>
    let p := place p
    ([.lineTo p], m.land p p)
  | .horizontal x =>
    let x := if s.relative then x.value + m.current.x else x.value
    let p : Point Float := ⟨x, m.current.y⟩
    ([.lineTo p], m.land p p)
  | .vertical y =>
    let y := if s.relative then y.value + m.current.y else y.value
    let p : Point Float := ⟨m.current.x, y⟩
    ([.lineTo p], m.land p p)
  | .quad c p => ([.quadTo (place c) (place p)], m.land (place c) (place p))
  | .smoothQuad p => ([.quadTo m.reflected (place p)], m.land m.reflected (place p))
  | .cubic c₁ c₂ p => ([.curveTo (place c₁) (place c₂) (place p)], m.land (place c₂) (place p))
  | .smoothCubic c₂ p =>
    ([.curveTo m.reflected (place c₂) (place p)], m.land (place c₂) (place p))
  | .arc radii rotation large sweep p =>
    let p := place p
    let arc : Arc.Ends :=
      { start := m.current, finish := p, radii := radii.value
        rotation := rotation.value * (Arc.halfTurn / 180), large, sweep }
    (arc.elements, m.land p p)
  | .close => ([.close], { m with current := m.start, closed := true })

/-- A step after a closed subpath first moves to where that subpath began, unless it
is a move itself. -/
def reopen (m : Plotter) (s : Step) : List (PathElement Float) :=
  match s.command with
  | .move _ => []
  | _ => if m.closed then [.moveTo m.start] else []

/-- Follow all steps. -/
def draw (m : Plotter) : List Step → List (PathElement Float)
  | [] => []
  | s :: rest =>
    let (elements, next) := m.follow s
    m.reopen s ++ elements ++ next.draw rest

end Plotter

/-- The path that path data describes. -/
def Path.ofData (data : String) (fillRule : FillRule) : Except Fault (Path Float) := do
  let steps ← PathData.read data
  return { elements := ({} : Plotter).draw steps, fillRule }

end PictureMarkup
