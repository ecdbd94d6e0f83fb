import PictureMarkup.Path

/-!
# Bounding boxes

The smallest box around everything a path draws: the boxes of its segments taken
together. A segment's box spans its end points and the points where the curve
turns back along an axis. Moving the pen draws nothing, and closing a subpath
draws its closing line only where the pen is not yet back at the start.
-/

namespace PictureMarkup

namespace Extent

/-- The smaller of two numbers, or the defined one. -/
def lower (x y : Float) : Float :=
  if x.isNaN then y else if y.isNaN then x else if y < x then y else x

/-- The larger of two numbers, or the defined one. -/
def upper (x y : Float) : Float :=
  if x.isNaN then y else if y.isNaN then x else if x < y then y else x

/-- The sign of one number on the magnitude of another. -/
def withSignOf (size sign : Float) : Float :=
  if sign.toBits.toNat / Nat.pow 2 63 = 1 then -size.abs else size.abs

/-- The solutions of `c₀ + c₁·t + c₂·t² = 0`, computed without cancellation. An
equation with a vanishing or tiny leading coefficient is solved as a linear one. -/
def quadraticRoots (c₀ c₁ c₂ : Float) : List Float :=
  let s₀ := c₀ * (1 / c₂)
  let s₁ := c₁ * (1 / c₂)
  if !s₀.isFinite || !s₁.isFinite then
    let root := -c₀ / c₁
    if root.isFinite then [root]
    else if c₀ == 0 && c₁ == 0 then [0] else []
  else
    let discriminant := s₁ * s₁ - 4 * s₀
    let roots (first : Float) : List Float :=
      let second := s₀ / first
      if second.isFinite then [first, second] else [first]
    if !discriminant.isFinite then roots (-s₁)
    else if discriminant < 0 then []
    else if discriminant == 0 then [-0.5 * s₁]
    else roots (-0.5 * (s₁ + withSignOf discriminant.sqrt s₁))

/-- Parameters strictly inside a segment. -/
def inner (ts : List Float) : List Float := ts.filter fun t => 0 < t && t < 1

/-- Where a quadratic curve turns back along one axis. -/
def quadTurns (p₀ p₁ p₂ : Float) : List Float :=
  let d₀ := p₁ - p₀
  let d₁ := p₂ - p₁
  let dd := d₁ - d₀
  if dd == 0 then [] else inner [-d₀ / dd]

/-- Where a cubic curve turns back along one axis. -/
def cubicTurns (p₀ p₁ p₂ p₃ : Float) : List Float :=
  let d₀ := p₁ - p₀
  let d₁ := p₂ - p₁
  let d₂ := p₃ - p₂
  inner (quadraticRoots d₀ (2 * (d₁ - d₀)) (d₀ - 2 * d₁ + d₂))

/-- One coordinate of a quadratic curve. -/
def quadAt (p₀ p₁ p₂ t : Float) : Float :=
  let m := 1 - t
  p₀ * (m * m) + (p₁ * (m * 2) + p₂ * t) * t

/-- One coordinate of a cubic curve. -/
def cubicAt (p₀ p₁ p₂ p₃ t : Float) : Float :=
  let m := 1 - t
  p₀ * (m * m * m) + (p₁ * (m * m * 3) + (p₂ * (m * 3) + p₃ * t) * t) * t

end Extent

namespace Rect

open Extent

/-- The box spanned by two corners. -/
def spanning (p q : Point Float) : Rect Float :=
  ⟨lower p.x q.x, lower p.y q.y, upper p.x q.x, upper p.y q.y⟩

/-- The smallest box around two boxes. -/
def union (r s : Rect Float) : Rect Float :=
  ⟨lower r.x0 s.x0, lower r.y0 s.y0, upper r.x1 s.x1, upper r.y1 s.y1⟩

/-- The smallest box around a box and a point. -/
def reaching (r : Rect Float) (p : Point Float) : Rect Float := r.union ⟨p.x, p.y, p.x, p.y⟩

/-- The box of a quadratic curve. -/
def ofQuad (p₀ p₁ p₂ : Point Float) : Rect Float :=
  let value (t : Float) : Point Float := ⟨quadAt p₀.x p₁.x p₂.x t, quadAt p₀.y p₁.y p₂.y t⟩
  let turns := quadTurns p₀.x p₁.x p₂.x ++ quadTurns p₀.y p₁.y p₂.y
  turns.foldl (fun r t => r.reaching (value t)) (spanning p₀ p₂)

/-- The box of a cubic curve. -/
def ofCubic (p₀ p₁ p₂ p₃ : Point Float) : Rect Float :=
  let value (t : Float) : Point Float :=
    ⟨cubicAt p₀.x p₁.x p₂.x p₃.x t, cubicAt p₀.y p₁.y p₂.y p₃.y t⟩
  let turns := cubicTurns p₀.x p₁.x p₂.x p₃.x ++ cubicTurns p₀.y p₁.y p₂.y p₃.y
  turns.foldl (fun r t => r.reaching (value t)) (spanning p₀ p₃)

end Rect

namespace Path

/-- Where the pen is and where the current subpath began. -/
structure Cursor where
  start : Point Float
  last : Point Float

/-- The point at which an element leaves the pen. -/
def landing? : PathElement Float → Option (Point Float)
  | .moveTo p | .lineTo p | .quadTo _ p | .curveTo _ _ p => some p
  | .close => none

/-- Two positions with equal coordinates. -/
def samePoint (p q : Point Float) : Bool := p.x == q.x && p.y == q.y

/-- The box of what an element draws, and the cursor after it. -/
def segmentBox (c : Cursor) : PathElement Float → Option (Rect Float) × Cursor
  | .moveTo p => (none, ⟨p, p⟩)
  | .lineTo p => (some (.spanning c.last p), { c with last := p })
  | .quadTo q p => (some (.ofQuad c.last q p), { c with last := p })
  | .curveTo q₁ q₂ p => (some (.ofCubic c.last q₁ q₂ p), { c with last := p })
  | .close =>
    if samePoint c.last c.start then (none, c)
    else (some (.spanning c.last c.start), { c with last := c.start })

/-- The box of everything drawn from a cursor on. -/
def boxFrom (c : Cursor) : List (PathElement Float) → Option (Rect Float)
  | [] => none
  | e :: es =>
    let (box, next) := segmentBox c e
    match box, boxFrom next es with
    | some r, some s => some (r.union s)
    | some r, none => some r
    | none, rest => rest

/-- The bounding box of a path, the empty box at the origin for a path that draws
nothing. A path that does not begin with a move starts where its first element
ends. -/
def bounds (p : Path Float) : Rect Float :=
  if p.isEmpty then .empty
  else
    match p.elements.head?.bind landing? with
    | none => .empty
    | some start => (boxFrom ⟨start, start⟩ p.elements).getD .empty

end Path

end PictureMarkup
