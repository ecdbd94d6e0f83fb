import PictureMarkup.Decimal.Binary
import PictureMarkup.Path.Bounds

/-!
# Elliptical arcs

An arc is given by its two end points, two radii, the rotation of the ellipse and
two flags that choose one of four candidates. It is drawn as cubic curves. First
the centre and the angles are found; radii too small to reach both ends are scaled
up until they do. Then the angle is divided into equal parts, enough of them to
stay within a tenth of a unit, and each part becomes one curve.

Where there is no ellipse, because a radius vanishes or the ends coincide, the arc
is a line.
-/

namespace PictureMarkup.Arc

open Decimal Extent

/-- Half a turn in radians. -/
def halfTurn : Float := 3.141592653589793

/-- A full turn in radians. -/
def fullTurn : Float := 2 * halfTurn

/-- A quarter of a turn in radians. -/
def quarterTurn : Float := 1.5707963267948966

/-- Radii up to this length make no ellipse. -/
def flatRadius : Float := 1e-5

/-- How far the curves may stray from the arc. -/
def tolerance : Float := 0.1

/-- What is left of `x` after whole multiples of `y` are taken away, with the sign of
`x`. The result is exact. -/
def remainder (x y : Float) : Float :=
  match Binary.ofFloat x, Binary.ofFloat y with
  | .finite negative m q _, .finite _ n r _ =>
    if n = 0 then 0 / 0
    else
      let unit := min q r
      let left := m * Nat.pow 2 (q - unit).toNat % (n * Nat.pow 2 (r - unit).toNat)
      let size := Float.scaleB (Float.ofNat left) unit
      if negative then -size else size
  | .finite .., .infinite _ => x
  | _, _ => 0 / 0

/-- An arc by its end points. -/
structure Ends where
  start : Point Float
  finish : Point Float
  radii : Point Float
  /-- In radians. -/
  rotation : Float
  large : Bool
  sweep : Bool

/-- An arc by its centre; the angles are those of the ellipse before it is turned. -/
structure Centered where
  center : Point Float
  radii : Point Float
  startAngle : Float
  sweepAngle : Float
  rotation : Float

namespace Ends

/-- The arc has no ellipse. -/
def isFlat (a : Ends) : Bool :=
  a.radii.x.abs ≤ flatRadius || a.radii.y.abs ≤ flatRadius || Path.samePoint a.start a.finish

/-- Find the centre and the angles. -/
def centered (a : Ends) : Centered :=
  let turn := remainder a.rotation fullTurn
  let sin := turn.sin
  let cos := turn.cos
  let dx := (a.start.x - a.finish.x) * 0.5
  let dy := (a.start.y - a.finish.y) * 0.5
  let sx := (a.start.x + a.finish.x) * 0.5
  let sy := (a.start.y + a.finish.y) * 0.5
  let px := cos * dx + sin * dy
  let py := -sin * dx + cos * dy
  let rx := a.radii.x.abs
  let ry := a.radii.y.abs
  let excess := px * px / (rx * rx) + py * py / (ry * ry)
  let scale := if excess > 1 then excess.sqrt else 1
  let rx := rx * scale
  let ry := ry * scale
  let area := rx * ry
  let u := rx * py
  let v := ry * px
  let squares := u * u + v * v
  let side : Float := if a.large == a.sweep then -1 else 1
  let k := side * ((area * area - squares) / squares).abs.sqrt
  let cx := k * u / ry
  let cy := -k * v / rx
  let startAngle := Float.atan2 ((py - cy) / ry) ((px - cx) / rx)
  let endAngle := Float.atan2 ((-py - cy) / ry) ((-px - cx) / rx)
  let angle := remainder (endAngle - startAngle) fullTurn
  { center := ⟨cos * cx - sin * cy + sx, sin * cx + cos * cy + sy⟩
    radii := ⟨rx, ry⟩
    startAngle := startAngle
    sweepAngle :=
      if a.sweep && angle < 0 then angle + fullTurn
      else if !a.sweep && angle > 0 then angle - fullTurn
      else angle
    rotation := a.rotation }

end Ends

namespace Centered

/-- The point of the turned ellipse at an angle, seen from the centre. -/
def point (a : Centered) (angle : Float) : Point Float :=
  let u := a.radii.x * angle.cos
  let v := a.radii.y * angle.sin
  let sin := a.rotation.sin
  let cos := a.rotation.cos
  ⟨u * cos - v * sin, u * sin + v * cos⟩

/-- The number of curves. -/
def pieces (a : Centered) : Float :=
  let size := upper a.radii.x a.radii.y / tolerance
  let perTurn := upper ((1.1163 * size).pow (1 / 6)) 3.999999
  (perTurn * a.sweepAngle.abs * (1 / fullTurn)).ceil

/-- A number of equal curves from an angle on. -/
def curves (a : Centered) (step arm : Float) : Nat → Float → List (PathElement Float)
  | 0, _ => []
  | n + 1, angle =>
    let next := angle + step
    let p₀ := a.point angle
    let p₃ := a.point next
    let t₀ := a.point (angle + quarterTurn)
    let t₃ := a.point (next + quarterTurn)
    let place (x y : Float) : Point Float := ⟨a.center.x + x, a.center.y + y⟩
    .curveTo (place (p₀.x + arm * t₀.x) (p₀.y + arm * t₀.y))
      (place (p₃.x - arm * t₃.x) (p₃.y - arm * t₃.y)) (place p₃.x p₃.y) ::
      curves a step arm n next

/-- The whole arc. -/
def elements (a : Centered) : List (PathElement Float) :=
  let n := a.pieces
  let step := a.sweepAngle / n
  let arm := withSignOf (4 / 3 * (0.25 * step).abs.tan) a.sweepAngle
  curves a step arm n.toUInt64.toNat a.startAngle

end Centered

/-- What an arc draws from its start. -/
def Ends.elements (a : Ends) : List (PathElement Float) :=
  if a.isFlat then [.lineTo a.finish] else a.centered.elements

end PictureMarkup.Arc
