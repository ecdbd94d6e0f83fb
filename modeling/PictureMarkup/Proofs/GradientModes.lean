import Mathlib.Data.Real.Basic
import PictureMarkup.Proofs.MatrixInEffect

/-!
# Gradients with a matrix

A gradient with a matrix of its own can be written in two ways: the brush keeps the points and
carries the matrix along, or it has the matrix folded into its points and its radius. The two
ways agree on everything but the radius, as long as the matrix does not move the gradient to the
left of the shape's box or above it (`Scene.gradient_modes_agree`).

A radius is folded in by the first coefficient of the matrix alone, which is what a horizontal
line of length one becomes in the horizontal direction. So a circle keeps its shape only under a
matrix that leaves the horizontal direction as it is (`Scene.circle_kept_iff`). A circle that is
turned shrinks, down to nothing in a quarter turn, and one that is mirrored from left to right
has a negative radius (`Scene.circle_lost`).
-/

namespace PictureMarkup

/-! ## Widths and radii -/

theorem Scalar.clamp_eq_self_iff (x : ℚ) : clamp x = x ↔ 0 ≤ x := by
  have zero : (Scalar.zero : ℚ) = 0 := Nat.cast_zero
  unfold clamp
  rw [zero]
  by_cases positive : 0 < x
  · rw [if_pos positive]
    exact ⟨fun _ => positive.le, fun _ => rfl⟩
  · rw [if_neg positive]
    exact ⟨fun same => same.le, fun nonneg => le_antisymm nonneg (not_lt.mp positive)⟩

theorem relativeRadius_eq {w : ℚ} (wide : isDegenerateWidth w = false) (r : ℚ) :
    relativeRadius r w = r / w := by
  rw [relativeRadius, wide]
  exact if_neg Bool.false_ne_true

theorem Scalar.epsilon_pos : (0 : ℚ) < epsilon := by
  show (0 : ℚ) < ((1 : ℕ) : ℚ) / ((2 ^ 52 : ℕ) : ℚ)
  positivity

theorem isDegenerateWidth_eq_false {w : ℚ} (wide : Scalar.epsilon ≤ w) :
    isDegenerateWidth w = false := by
  have far : ¬|w| < Scalar.epsilon := not_lt.mpr (wide.trans (le_abs_self w))
  rw [isDegenerateWidth, Bool.or_eq_false_iff]
  exact ⟨decide_eq_false far, rfl⟩

/-! ## The two modes -/

namespace Placement

/-- A point lands in the same place with and without the clamp just if the matrix does not lead
to the left of the corner or above it. -/
theorem apply_fromCorner_eq_iff (m : Affine ℚ) (bounds : Rect ℚ) (p : Point ℚ) :
    (fromCorner m bounds).apply p = (fromCornerClamped m bounds).apply p ↔
      bounds.x0 ≤ m.e ∧ bounds.y0 ≤ m.f := by
  simp only [Affine.apply, fromCorner, fromCornerClamped, Point.mk.injEq, add_right_inj]
  rw [eq_comm, Scalar.clamp_eq_self_iff, sub_nonneg, eq_comm, Scalar.clamp_eq_self_iff,
    sub_nonneg]

end Placement

/-- A sweep around a point. -/
def GradientKind.isSweep {α : Type} : GradientKind α → Bool
  | .sweep .. => true
  | .linear .. | .radial .. => false

/-- The brush that carries the matrix `m` of a gradient along, and the brush that has it folded
in, on a shape with a box. -/
inductive Brush.Folds {V : Type} (m : Affine ℚ) (bounds : Rect ℚ) :
    Brush ℚ V → Brush ℚ V → Prop
  | linear {kept folded : LinearGradient ℚ} {t : Affine ℚ}
      (carried : kept.transform = some t) (taken : folded.transform = none)
      (points : t.apply kept.start = folded.start ∧ t.apply kept.finish = folded.finish ↔
        bounds.x0 ≤ m.e ∧ bounds.y0 ≤ m.f)
      (spread : kept.spread = folded.spread) (stops : kept.stops = folded.stops) :
      Folds m bounds (.linear kept) (.linear folded)
  | radial {kept folded : RadialGradient ℚ} {t : Affine ℚ}
      (carried : kept.transform = some t) (taken : folded.transform = none)
      (points : t.apply kept.center = folded.center ∧ t.apply kept.origin = folded.origin ↔
        bounds.x0 ≤ m.e ∧ bounds.y0 ≤ m.f)
      (radius : isDegenerateWidth bounds.width = false → folded.radius = m.a * kept.radius)
      (spread : kept.spread = folded.spread) (stops : kept.stops = folded.stops) :
      Folds m bounds (.radial kept) (.radial folded)

namespace Scene

variable {P : Type}

/-- The scene with brush transforms or without them, and otherwise as it was. -/
def withBrushTransforms (on : Bool) (s : Scene ℚ P) : Scene ℚ P :=
  { s with options := { s.options with brushTransform := on } }

theorem brush_folds (s : Scene ℚ P) (bounds : Rect ℚ) {kind : GradientKind ℚ}
    (drawn : kind.isSweep = false) (extend : Extend) (stops : List (GradientStop ℚ))
    (m : Affine ℚ) :
    ∃ kept folded,
      (s.withBrushTransforms true).brush bounds (.gradient kind extend stops (some m)) =
          some kept ∧
        (s.withBrushTransforms false).brush bounds (.gradient kind extend stops (some m)) =
          some folded ∧
        kept.Folds m bounds folded := by
  have same := Placement.apply_fromCorner_eq_iff m bounds
  cases kind with
  | linear start finish =>
      -- the two modes differ in the corner only, for each point by itself
      have points := and_congr (same start) (same finish)
      rw [and_self_iff] at points
      exact ⟨_, _, rfl, rfl, .linear rfl rfl points rfl rfl⟩
  | radial startCenter startRadius endCenter endRadius =>
      have points := and_congr (same startCenter) (same endCenter)
      rw [and_self_iff] at points
      -- without a width to divide by, either radius is one half
      refine ⟨_, _, rfl, rfl, .radial rfl rfl points (fun wide => ?_) rfl rfl⟩
      show relativeRadius (m.a * endRadius) bounds.width =
        m.a * relativeRadius endRadius bounds.width
      rw [relativeRadius_eq wide, relativeRadius_eq wide, mul_div_assoc]
  | sweep center startAngle endAngle => exact absurd drawn Bool.noConfusion

/-- **Both modes describe the same gradient.** Over the rationals, a sweep has no brush in either
mode. Any other gradient has a brush in both. Without a matrix it is the same brush. With a
matrix, the brush with brush transforms carries one and the brush without them does not, and
spread and stops are the same. The points that the transform makes of the first brush's points
are those of the second brush just if the translation of the matrix is not to the left of the
corner of the shape's box or above it, and unless the shape has no width, the second radius is
the first one times the first coefficient of the matrix. -/
theorem gradient_modes_agree (s : Scene ℚ P) (bounds : Rect ℚ) (kind : GradientKind ℚ)
    (extend : Extend) (stops : List (GradientStop ℚ)) :
    let carrying (matrix : Option (Affine ℚ)) :=
      (s.withBrushTransforms true).brush bounds (.gradient kind extend stops matrix)
    let folding (matrix : Option (Affine ℚ)) :=
      (s.withBrushTransforms false).brush bounds (.gradient kind extend stops matrix)
    (kind.isSweep = true → ∀ matrix, carrying matrix = none ∧ folding matrix = none) ∧
      (kind.isSweep = false →
        (∃ brush, carrying none = some brush ∧ folding none = some brush) ∧
          ∀ m, ∃ kept folded, carrying (some m) = some kept ∧ folding (some m) = some folded ∧
            kept.Folds m bounds folded) := by
  intro carrying folding
  constructor
  · intro sweep matrix
    cases kind with
    | sweep center startAngle endAngle => exact ⟨rfl, rfl⟩
    | _ => exact absurd sweep Bool.noConfusion
  · intro drawn
    -- without a matrix the option is never looked at
    refine ⟨?_, fun m => s.brush_folds bounds drawn extend stops m⟩
    cases kind with
    | linear start finish => exact ⟨_, rfl, rfl⟩
    | radial startCenter startRadius endCenter endRadius => exact ⟨_, rfl, rfl⟩
    | sweep center startAngle endAngle => exact absurd drawn Bool.noConfusion

/-- A circle that is stretched, with a translation to the very corner of the box. -/
theorem gradient_modes_agree_stretched :
    let m : Affine ℚ := ⟨2, 1, -1, 3, 2, 3⟩
    let circle : Shader ℚ Empty := .gradient (.radial ⟨4, 4⟩ 0 ⟨5, 4⟩ 4) .repeat [] (some m)
    isDegenerateWidth (8 : ℚ) = false ∧
      ∃ (kept folded : RadialGradient ℚ) (t : Affine ℚ),
        (unitSquares.withBrushTransforms true).brush ⟨2, 3, 10, 11⟩ circle =
            some (.radial kept) ∧
          (unitSquares.withBrushTransforms false).brush ⟨2, 3, 10, 11⟩ circle =
            some (.radial folded) ∧
          kept.transform = some t ∧
          t.apply kept.center = folded.center ∧ t.apply kept.origin = folded.origin ∧
          folded.radius = 2 * kept.radius := by
  intro m circle
  have wide : isDegenerateWidth (8 : ℚ) = false := by decide +kernel
  have corner : (2 : ℚ) ≤ m.e ∧ (3 : ℚ) ≤ m.f := ⟨le_refl 2, le_refl 3⟩
  have width : (⟨2, 3, 10, 11⟩ : Rect ℚ).width = 8 := by decide +kernel
  obtain ⟨-, drawn⟩ := gradient_modes_agree unitSquares ⟨2, 3, 10, 11⟩
    (.radial ⟨4, 4⟩ 0 ⟨5, 4⟩ 4) .repeat []
  obtain ⟨kept, folded, carrying, folding, both⟩ := (drawn rfl).2 m
  refine ⟨wide, ?_⟩
  cases both with
  | linear => cases carrying
  | @radial kept folded t carried _ points radius _ _ =>
      obtain ⟨center, origin⟩ := points.mpr corner
      exact ⟨kept, folded, t, carrying, folding, carried, center, origin, radius (width ▸ wide)⟩

end Scene

/-! ## Circles -/

/-- The linear part is a rotation or a reflection, and makes every line `scale` times as long. -/
structure Affine.Enlarges (m : Affine ℚ) (scale : ℝ) : Prop where
  positive : 0 < scale
  length : ∀ x y : ℝ, (m.a * x + m.c * y) ^ 2 + (m.b * x + m.d * y) ^ 2 =
    scale ^ 2 * (x ^ 2 + y ^ 2)

namespace Affine.Enlarges

variable {m n : Affine ℚ} {scale factor : ℝ}

theorem mul (h : m.Enlarges scale) (h' : n.Enlarges factor) :
    (m * n).Enlarges (scale * factor) where
  positive := mul_pos h.positive h'.positive
  length x y := by
    have outer := h.length (n.a * x + n.c * y) (n.b * x + n.d * y)
    have inner := h'.length x y
    simp only [mul_a, mul_b, mul_c, mul_d]
    push_cast
    linear_combination outer + scale ^ 2 * inner

end Affine.Enlarges

namespace Scene

variable {P : Type}

/-- A circle that has its matrix folded in. -/
theorem exists_folded_circle (s : Scene ℚ P) {bounds : Rect ℚ}
    (wide : Scalar.epsilon ≤ bounds.width) (startCenter endCenter : Point ℚ)
    (startRadius r : ℚ) (extend : Extend) (stops : List (GradientStop ℚ)) (m : Affine ℚ) :
    ∃ folded, (s.withBrushTransforms false).brush bounds
        (.gradient (.radial startCenter startRadius endCenter r) extend stops (some m)) =
          some (.radial folded) ∧
      folded.radius = m.a * r / bounds.width :=
  ⟨_, rfl, relativeRadius_eq (isDegenerateWidth_eq_false wide) (m.a * r)⟩

/-- Two multiples of a radius are the same part of a width just if the factors are the same or
there is no radius. -/
theorem part_eq_iff {w : ℚ} (wide : Scalar.epsilon ≤ w) (r : ℚ) (a a' : ℝ) :
    a * r / w = a' * r / w ↔ r = 0 ∨ a = a' := by
  have positive : 0 < w := Scalar.epsilon_pos.trans_le wide
  have width : (w : ℝ) ≠ 0 := Rat.cast_ne_zero.mpr positive.ne'
  rw [div_left_inj' width, mul_eq_mul_right_iff, Rat.cast_eq_zero, or_comm]

theorem part_nonneg_iff {w r : ℚ} (wide : Scalar.epsilon ≤ w) (nonneg : 0 ≤ r) (a : ℚ) :
    0 ≤ a * r / w ↔ r = 0 ∨ 0 ≤ a := by
  have positive : 0 < w := Scalar.epsilon_pos.trans_le wide
  rw [le_div_iff₀ positive, zero_mul]
  constructor
  · intro product
    rcases nonneg.eq_or_lt with none | some
    · exact .inl none.symm
    · exact .inr (nonneg_of_mul_nonneg_left product some)
  · rintro (rfl | first)
    · rw [mul_zero]
    · exact mul_nonneg first nonneg

/-- **A circle keeps its shape just if it is neither turned nor mirrored from left to right.**
Over the rationals, for a circle with a matrix that makes every line longer by a factor, on a
shape that is wide enough to divide by: the folded radius is the first coefficient of the matrix
times the radius, as a part of the width. So it has grown by the factor just if the first
coefficient is the factor or there is no radius; it is not negative just if the first coefficient
is not or there is no radius; and a rotation or a reflection behind the matrix leaves it alone
just if it leaves the first coefficient alone or there is no radius. With brush transforms the
radius stays the same part of the width under every such matrix, and the brush carries a
transform that makes every line longer by the factor. -/
theorem circle_kept_iff (s : Scene ℚ P) {bounds : Rect ℚ} (wide : Scalar.epsilon ≤ bounds.width)
    {m : Affine ℚ} {scale : ℝ} (similar : m.Enlarges scale) {r : ℚ} (nonneg : 0 ≤ r)
    (startCenter endCenter : Point ℚ) (startRadius : ℚ) (extend : Extend)
    (stops : List (GradientStop ℚ)) :
    let circle (matrix : Affine ℚ) : Shader ℚ P :=
      .gradient (.radial startCenter startRadius endCenter r) extend stops (some matrix)
    (∃ folded, (s.withBrushTransforms false).brush bounds (circle m) = some (.radial folded) ∧
        folded.radius = m.a * r / bounds.width ∧
        ((folded.radius : ℝ) = scale * r / bounds.width ↔ r = 0 ∨ (m.a : ℝ) = scale) ∧
        (0 ≤ folded.radius ↔ r = 0 ∨ 0 ≤ m.a) ∧
        ∀ q, q.Enlarges 1 → (q * m).Enlarges scale ∧
          ∃ moved, (s.withBrushTransforms false).brush bounds (circle (q * m)) =
              some (.radial moved) ∧
            (moved.radius = folded.radius ↔ r = 0 ∨ (q * m).a = m.a)) ∧
      ∃ kept t, (s.withBrushTransforms true).brush bounds (circle m) = some (.radial kept) ∧
        kept.radius = r / bounds.width ∧ kept.transform = some t ∧ t.Enlarges scale := by
  intro circle
  have folds := s.exists_folded_circle wide startCenter endCenter startRadius r extend stops
  constructor
  · obtain ⟨folded, brush, radius⟩ := folds m
    refine ⟨folded, brush, radius, ?_, ?_, fun q turn => ?_⟩
    · rw [radius, Rat.cast_div, Rat.cast_mul, part_eq_iff wide]
    · rw [radius, part_nonneg_iff wide nonneg]
    · obtain ⟨moved, brush', radius'⟩ := folds (q * m)
      have turned := turn.mul similar
      rw [one_mul] at turned
      refine ⟨turned, moved, brush', ?_⟩
      -- both radii are the same part of the width, so only the coefficients differ
      have compare := part_eq_iff wide r (q * m).a m.a
      rw [radius, radius']
      exact_mod_cast compare
  · have degenerate := isDegenerateWidth_eq_false wide
    exact ⟨_, _, rfl, relativeRadius_eq degenerate r, rfl, similar.positive, similar.length⟩

/-- A circle upside down keeps its shape, and loses it when it is turned as well. -/
theorem circle_kept_iff_upside_down :
    let m : Affine ℚ := ⟨5, 0, 0, -5, 0, 40⟩
    let turn : Affine ℚ := ⟨3 / 5, 4 / 5, -4 / 5, 3 / 5, 0, 0⟩
    let brush (matrix : Affine ℚ) := (unitSquares.withBrushTransforms false).brush ⟨0, 0, 8, 8⟩
      (.gradient (.radial ⟨4, 4⟩ 0 ⟨4, 4⟩ 4) .pad [] (some matrix))
    Scalar.epsilon ≤ (8 : ℚ) ∧ m.Enlarges 5 ∧ turn.Enlarges 1 ∧
      ∃ folded moved, brush m = some (.radial folded) ∧ folded.radius = 5 * 4 / 8 ∧
        brush (turn * m) = some (.radial moved) ∧ moved.radius ≠ folded.radius := by
  intro m turn brush
  have wide : Scalar.epsilon ≤ (⟨0, 0, 8, 8⟩ : Rect ℚ).width := by decide +kernel
  have width : (⟨0, 0, 8, 8⟩ : Rect ℚ).width = 8 := by decide +kernel
  have similar : m.Enlarges 5 := ⟨by norm_num, fun x y => by norm_num [m]; ring⟩
  have turning : turn.Enlarges 1 := ⟨by norm_num, fun x y => by norm_num [turn]; ring⟩
  obtain ⟨⟨folded, brush, -, kept, -, each⟩, -⟩ :=
    circle_kept_iff unitSquares wide similar (by norm_num : (0 : ℚ) ≤ 4) ⟨4, 4⟩ ⟨4, 4⟩ 0 .pad []
  obtain ⟨-, moved, brush', same⟩ := each turn turning
  refine ⟨width ▸ wide, similar, turning, folded, moved, brush, ?_, brush', fun equal => ?_⟩
  · have enlarged := kept.mpr (.inr (by norm_num [m]))
    rw [width] at enlarged
    exact_mod_cast enlarged
  · rcases same.mp equal with none | first
    · norm_num at none
    · exact absurd first (by decide +kernel)

/-- A circle on a shape with a box keeps its shape under a matrix: if the matrix makes every line
longer by a factor, it does so with the radius. -/
def KeepsCircle (s : Scene ℚ P) (bounds : Rect ℚ) (r : ℚ) (m : Affine ℚ) : Prop :=
  Scalar.epsilon ≤ bounds.width → 0 ≤ r → ∀ scale, m.Enlarges scale →
    ∀ startCenter startRadius endCenter extend stops, ∃ folded,
      (s.withBrushTransforms false).brush bounds
          (.gradient (.radial startCenter startRadius endCenter r) extend stops (some m)) =
            some (.radial folded) ∧
        (folded.radius : ℝ) = scale * r / bounds.width

theorem not_keepsCircle (s : Scene ℚ P) {bounds : Rect ℚ} (wide : Scalar.epsilon ≤ bounds.width)
    {r : ℚ} (positive : 0 < r) {m : Affine ℚ} {scale : ℝ} (similar : m.Enlarges scale)
    (other : (m.a : ℝ) ≠ scale) : ¬s.KeepsCircle bounds r m := by
  intro keeps
  obtain ⟨folded, brush, radius⟩ :=
    keeps wide positive.le scale similar ⟨0, 0⟩ 0 ⟨0, 0⟩ .pad []
  obtain ⟨folded', brush', radius'⟩ :=
    s.exists_folded_circle wide ⟨0, 0⟩ ⟨0, 0⟩ 0 r .pad [] m
  rw [brush] at brush'
  cases brush'
  rw [radius', Rat.cast_div, Rat.cast_mul, part_eq_iff wide] at radius
  rcases radius with none | same
  · exact positive.ne' none
  · exact other same

/-- Circles do not always keep their shape: not in a quarter turn, and not mirrored from left to
right. -/
theorem circle_lost :
    ¬unitSquares.KeepsCircle ⟨0, 0, 8, 8⟩ 4 ⟨0, 1, -1, 0, 8, 0⟩ ∧
      ¬unitSquares.KeepsCircle ⟨0, 0, 8, 8⟩ 4 ⟨-1, 0, 0, 1, 8, 0⟩ := by
  have wide : Scalar.epsilon ≤ (⟨0, 0, 8, 8⟩ : Rect ℚ).width := by decide +kernel
  have positive : (0 : ℚ) < 4 := by norm_num
  have turned : Affine.Enlarges ⟨0, 1, -1, 0, 8, 0⟩ 1 := ⟨one_pos, fun x y => by norm_num; ring⟩
  have mirrored : Affine.Enlarges ⟨-1, 0, 0, 1, 8, 0⟩ 1 := ⟨one_pos, fun x y => by norm_num⟩
  exact ⟨not_keepsCircle unitSquares wide positive turned (by norm_num),
    not_keepsCircle unitSquares wide positive mirrored (by norm_num)⟩

end Scene

end PictureMarkup
