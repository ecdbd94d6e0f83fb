import Mathlib.Algebra.BigOperators.Group.List.Basic
import Mathlib.Algebra.Order.Field.Rat
import Mathlib.Tactic.LinearCombination
import Mathlib.Tactic.NormNum
import Mathlib.Tactic.Ring
import PictureMarkup.Frames

/-!
# Exact arithmetic

Over the rationals nothing is rounded, and the maps of the plane obey the laws that the
conversion counts on: composition is associative, a map with a determinant is undone by
its inverse, and a matrix seen from inside some transforms, none of them singular, gives
the matrix back when the transforms are put in front of it again
(`Affine.product_mul_relativeTo`).
-/

namespace PictureMarkup

instance : Scalar ℚ where
  ofNat n := n
  magnitude x := |x|
  isFinite _ := true
  decideLt _ _ := inferInstance

attribute [ext] Affine

namespace Affine

section

variable (m n : Affine ℚ)

@[simp] theorem mul_a : (m * n).a = m.a * n.a + m.c * n.b := rfl

@[simp] theorem mul_b : (m * n).b = m.b * n.a + m.d * n.b := rfl

@[simp] theorem mul_c : (m * n).c = m.a * n.c + m.c * n.d := rfl

@[simp] theorem mul_d : (m * n).d = m.b * n.c + m.d * n.d := rfl

@[simp] theorem mul_e : (m * n).e = m.a * n.e + m.c * n.f + m.e := rfl

@[simp] theorem mul_f : (m * n).f = m.b * n.e + m.d * n.f + m.f := rfl

theorem determinant_eq : m.determinant = m.a * m.d - m.b * m.c := rfl

end

theorem identity_eq : (identity : Affine ℚ) = ⟨1, 0, 0, 1, 0, 0⟩ := by
  show (⟨((1 : ℕ) : ℚ), ((0 : ℕ) : ℚ), ((0 : ℕ) : ℚ), ((1 : ℕ) : ℚ), ((0 : ℕ) : ℚ),
    ((0 : ℕ) : ℚ)⟩ : Affine ℚ) = _
  rw [Nat.cast_one, Nat.cast_zero]

/-- The maps of the plane under composition. -/
instance : Monoid (Affine ℚ) where
  one := identity
  mul_assoc l m n := by
    ext <;> simp only [mul_a, mul_b, mul_c, mul_d, mul_e, mul_f] <;> ring
  one_mul m := by
    show identity * m = m
    rw [identity_eq]
    ext <;> simp only [mul_a, mul_b, mul_c, mul_d, mul_e, mul_f] <;> ring
  mul_one m := by
    show m * identity = m
    rw [identity_eq]
    ext <;> simp only [mul_a, mul_b, mul_c, mul_d, mul_e, mul_f] <;> ring

theorem product_eq_prod (ms : List (Affine ℚ)) : product ms = ms.prod :=
  List.prod_eq_foldl.symm

theorem determinant_mul (m n : Affine ℚ) :
    (m * n).determinant = m.determinant * n.determinant := by
  simp only [determinant_eq, mul_a, mul_b, mul_c, mul_d]
  ring

@[simp] theorem determinant_one : (1 : Affine ℚ).determinant = 1 := by
  show (identity : Affine ℚ).determinant = 1
  rw [identity_eq, determinant_eq]
  ring

theorem inverse_eq (m : Affine ℚ) :
    m.inverse =
      ⟨m.determinant⁻¹ * m.d, -m.determinant⁻¹ * m.b, -m.determinant⁻¹ * m.c,
        m.determinant⁻¹ * m.a, m.determinant⁻¹ * (m.c * m.f - m.d * m.e),
        m.determinant⁻¹ * (m.b * m.e - m.a * m.f)⟩ := by
  have unit : (Scalar.one : ℚ) / m.determinant = m.determinant⁻¹ := by
    show ((1 : ℕ) : ℚ) / m.determinant = _
    rw [Nat.cast_one, one_div]
  unfold inverse
  rw [unit]

/-- A map without a vanishing determinant is undone by its inverse. -/
theorem inverse_mul {m : Affine ℚ} (h : m.determinant ≠ 0) : m.inverse * m = 1 := by
  have scale : m.determinant⁻¹ * (m.a * m.d - m.b * m.c) = 1 := inv_mul_cancel₀ h
  show m.inverse * m = identity
  rw [inverse_eq, identity_eq]
  ext <;> simp only [mul_a, mul_b, mul_c, mul_d, mul_e, mul_f]
  · linear_combination scale
  · ring
  · ring
  · linear_combination scale
  · ring
  · ring

theorem mul_inverse {m : Affine ℚ} (h : m.determinant ≠ 0) : m * m.inverse = 1 := by
  have scale : m.determinant⁻¹ * (m.a * m.d - m.b * m.c) = 1 := inv_mul_cancel₀ h
  show m * m.inverse = identity
  rw [inverse_eq, identity_eq]
  ext <;> simp only [mul_a, mul_b, mul_c, mul_d, mul_e, mul_f]
  · linear_combination scale
  · ring
  · ring
  · linear_combination scale
  · linear_combination -m.e * scale
  · linear_combination -m.f * scale

/-! ## Tolerances -/

/-- Every coefficient lies within a millionth of the identity's. -/
structure NearIdentity (m : Affine ℚ) : Prop where
  a : |m.a - 1| < 1 / 10 ^ 6
  b : |m.b| < 1 / 10 ^ 6
  c : |m.c| < 1 / 10 ^ 6
  d : |m.d - 1| < 1 / 10 ^ 6
  e : |m.e| < 1 / 10 ^ 6
  f : |m.f| < 1 / 10 ^ 6

theorem near_iff (x y : ℚ) : near x y = true ↔ |x - y| < 1 / 10 ^ 6 := by
  have tolerance : (Scalar.identityTolerance : ℚ) = 1 / 10 ^ 6 := by
    show ((1 : ℕ) : ℚ) / ((10 ^ 6 : ℕ) : ℚ) = _
    norm_num
  rw [near, decide_eq_true_iff, tolerance]
  rfl

/-- The test of the program is closeness to the identity. -/
theorem isIdentity_iff (m : Affine ℚ) : m.isIdentity = true ↔ m.NearIdentity := by
  have one : (Scalar.one : ℚ) = 1 := Nat.cast_one
  have zero : (Scalar.zero : ℚ) = 0 := Nat.cast_zero
  unfold isIdentity
  rw [one, zero]
  simp only [Bool.and_eq_true, near_iff, sub_zero]
  constructor
  · rintro ⟨⟨⟨⟨⟨a, b⟩, c⟩, d⟩, e⟩, f⟩
    exact ⟨a, b, c, d, e, f⟩
  · rintro ⟨a, b, c, d, e, f⟩
    exact ⟨⟨⟨⟨⟨a, b⟩, c⟩, d⟩, e⟩, f⟩

instance : DecidablePred NearIdentity := fun m => decidable_of_iff _ m.isIdentity_iff

theorem nearIdentity_one : NearIdentity 1 := by
  show NearIdentity identity
  rw [identity_eq]
  constructor <;> norm_num

/-- The test of the program is a determinant below a trillionth. -/
theorem isSingular_iff (m : Affine ℚ) :
    m.isSingular = true ↔ |m.determinant| < 1 / 10 ^ 12 := by
  have threshold : (Scalar.singularDeterminant : ℚ) = 1 / 10 ^ 12 := by
    show ((1 : ℕ) : ℚ) / ((10 ^ 12 : ℕ) : ℚ) = _
    norm_num
  rw [isSingular, decide_eq_true_iff, threshold]
  rfl

theorem determinant_ne_zero {m : Affine ℚ} (regular : 1 / 10 ^ 12 ≤ |m.determinant|) :
    m.determinant ≠ 0 := by
  intro zero
  rw [zero, abs_zero] at regular
  norm_num at regular

/-! ## Relative matrices -/

/-- A singular transform is left out. -/
theorem undo_of_singular {t : Affine ℚ} (small : |t.determinant| < 1 / 10 ^ 12) (m : Affine ℚ) :
    m.undo t = m :=
  if_pos ((isSingular_iff t).mpr small)

/-- Any other transform is undone by its inverse. -/
theorem undo_of_regular {t : Affine ℚ} (regular : 1 / 10 ^ 12 ≤ |t.determinant|)
    (m : Affine ℚ) : m.undo t = t.inverse * m :=
  if_neg fun singular => absurd ((isSingular_iff t).mp singular) (not_lt.mpr regular)

/-- Transforms that are not singular have a product that can be undone. -/
theorem determinant_product_ne_zero {ts : List (Affine ℚ)}
    (regular : ∀ t ∈ ts, 1 / 10 ^ 12 ≤ |t.determinant|) : (product ts).determinant ≠ 0 := by
  rw [product_eq_prod]
  induction ts with
  | nil =>
      rw [List.prod_nil, determinant_one]
      exact one_ne_zero
  | cons t ts ih =>
      rw [List.prod_cons, determinant_mul]
      have first := determinant_ne_zero (regular t List.mem_cons_self)
      exact mul_ne_zero first (ih fun u member => regular u (List.mem_cons_of_mem t member))

/-- A matrix seen from inside transforms that are not singular gives the matrix back when
they are put in front of it. -/
theorem product_mul_relativeTo {ts : List (Affine ℚ)}
    (regular : ∀ t ∈ ts, 1 / 10 ^ 12 ≤ |t.determinant|) (m : Affine ℚ) :
    product ts * m.relativeTo ts = m := by
  -- the outermost transform is the first to be undone and the last to be put back
  rw [product_eq_prod]
  induction ts generalizing m with
  | nil => exact one_mul m
  | cons t ts ih =>
      have first := regular t List.mem_cons_self
      have rest := ih (fun u member => regular u (List.mem_cons_of_mem t member)) (m.undo t)
      calc (t :: ts).prod * m.relativeTo (t :: ts)
          = t * (ts.prod * (m.undo t).relativeTo ts) := by
            rw [List.prod_cons, mul_assoc]
            rfl
        _ = t * (t.inverse * m) := by rw [rest, undo_of_regular first]
        _ = m := by rw [← mul_assoc, mul_inverse (determinant_ne_zero first), one_mul]

/-- With the relative matrix behind them, regular transforms make the matrix. -/
theorem product_append_relativeTo {ts : List (Affine ℚ)}
    (regular : ∀ t ∈ ts, 1 / 10 ^ 12 ≤ |t.determinant|) (m : Affine ℚ) :
    product (ts ++ [m.relativeTo ts]) = m := by
  rw [product_eq_prod, List.prod_append, List.prod_singleton, ← product_eq_prod,
    product_mul_relativeTo regular]

/-- The relative matrix is what is left of a matrix once the product is undone. -/
theorem inverse_product_mul {ts : List (Affine ℚ)}
    (regular : ∀ t ∈ ts, 1 / 10 ^ 12 ≤ |t.determinant|) (m : Affine ℚ) :
    (product ts).inverse * m = m.relativeTo ts := by
  calc (product ts).inverse * m
      = (product ts).inverse * (product ts * m.relativeTo ts) := by
        rw [product_mul_relativeTo regular]
    _ = m.relativeTo ts := by
        rw [← mul_assoc, inverse_mul (determinant_product_ne_zero regular), one_mul]

end Affine

end PictureMarkup
