import PictureMarkup.Proofs.Exact
import PictureMarkup.Proofs.Leaving

/-!
# Relative matrices

A matrix seen from inside the open transforms is the one answer to a question: what has to be
put behind the product of the transforms to give the matrix? The transforms are undone one after
the other, the outermost first, each in front of what is left of the matrix, and those that
cannot be undone count as if they were not there (`Affine.mul_eq_iff_eq_relativeTo`).

So a group that is opened with a relative matrix completes the product, and nothing is left to
do for the same matrix inside it (`Machine.relative_completes`).
-/

namespace PictureMarkup

namespace Affine

/-- The transforms among some that can be undone. -/
def regular (ts : List (Affine ℚ)) : List (Affine ℚ) :=
  ts.filter fun t => 1 / 10 ^ 12 ≤ |t.determinant|

theorem mem_regular {ts : List (Affine ℚ)} {t : Affine ℚ} :
    t ∈ regular ts ↔ t ∈ ts ∧ 1 / 10 ^ 12 ≤ |t.determinant| := by
  rw [regular, List.mem_filter, decide_eq_true_iff]

/-- Transforms that cannot be undone make no difference. -/
theorem relativeTo_regular (ts : List (Affine ℚ)) (m : Affine ℚ) :
    m.relativeTo (regular ts) = m.relativeTo ts := by
  induction ts generalizing m with
  | nil => rfl
  | cons t ts ih =>
      by_cases large : 1 / 10 ^ 12 ≤ |t.determinant|
      · have kept : regular (t :: ts) = t :: regular ts :=
          List.filter_cons_of_pos (decide_eq_true large)
        rw [kept]
        exact ih (m.undo t)
      · have left : regular (t :: ts) = regular ts :=
          List.filter_cons_of_neg (by simpa using large)
        rw [left, ih m, relativeTo, relativeTo, List.foldl_cons,
          undo_of_singular (not_le.mp large)]

/-- The relative matrix is the only one that gives the matrix behind the transforms. -/
theorem mul_eq_iff_eq_relativeTo (ts : List (Affine ℚ)) (m r : Affine ℚ) :
    product (regular ts) * r = m ↔ r = m.relativeTo ts := by
  have all : ∀ t ∈ regular ts, 1 / 10 ^ 12 ≤ |t.determinant| :=
    fun t member => (mem_regular.mp member).2
  rw [← relativeTo_regular]
  constructor
  · rintro rfl
    calc r = (product (regular ts)).inverse * product (regular ts) * r := by
            rw [inverse_mul (determinant_product_ne_zero all), one_mul]
      _ = (product (regular ts) * r).relativeTo (regular ts) := by
            rw [mul_assoc, inverse_product_mul all]
  · rintro rfl
    exact product_mul_relativeTo all m

/-- Behind the relative matrix there is nothing left to do. -/
theorem relativeTo_append_relativeTo (ts : List (Affine ℚ)) (m : Affine ℚ)
    (large : 1 / 10 ^ 12 ≤ |(m.relativeTo ts).determinant|) :
    m.relativeTo (ts ++ [m.relativeTo ts]) = identity := by
  calc m.relativeTo (ts ++ [m.relativeTo ts])
      = (m.relativeTo ts).undo (m.relativeTo ts) := by
        rw [relativeTo, List.foldl_append]
        rfl
    _ = (m.relativeTo ts).inverse * m.relativeTo ts := undo_of_regular large _
    _ = identity := inverse_mul (determinant_ne_zero large)

end Affine

namespace Machine

/-- **The relative matrix is the one that is missing.** Over the rationals, whatever frames are
open and whatever transforms they hold: the relative matrix is the only one that gives a matrix
behind the product of the open transforms, those with a determinant below a trillionth left out.
If none is left out, then in a group that is opened with the relative matrix the product of the
open transforms is the matrix itself. If the relative matrix can be undone as well, what is left
of the same matrix in that group is the identity. -/
theorem relative_completes (machine : Machine ℚ) (matrix : Affine ℚ) :
    let transforms := machine.transforms.entries
    let inner := machine.openTransform (machine.relative matrix)
    (∀ r, Affine.product (Affine.regular transforms) * r = matrix ↔ r = machine.relative matrix) ∧
      ((∀ t ∈ transforms, 1 / 10 ^ 12 ≤ |t.determinant|) →
        Affine.product inner.transforms.entries = matrix) ∧
      (1 / 10 ^ 12 ≤ |(machine.relative matrix).determinant| →
        inner.relative matrix = .identity) := by
  intro transforms inner
  have entries : inner.transforms.entries = transforms ++ [machine.relative matrix] :=
    FrameStack.entries_push _ _
  refine ⟨Affine.mul_eq_iff_eq_relativeTo transforms matrix, fun all => ?_, fun large => ?_⟩
  · rw [entries]
    exact Affine.product_append_relativeTo all matrix
  · rw [relative, entries]
    exact Affine.relativeTo_append_relativeTo transforms matrix large

/-- A turn, a frame inside it with a scale and a shear, and nothing in the frame inside that. -/
def nested : Machine ℚ where
  transforms := ⟨[], [[⟨1, 0, 3, 1, 0, 0⟩, ⟨2, 0, 0, 2, 5, 3⟩], [⟨0, 1, -1, 0, 7, 0⟩]]⟩

theorem relative_completes_nested :
    let matrix : Affine ℚ := ⟨1, 2, 0, 1, 4, 9⟩
    let inner := nested.openTransform (nested.relative matrix)
    (∀ t ∈ nested.transforms.entries, 1 / 10 ^ 12 ≤ |t.determinant|) ∧
      1 / 10 ^ 12 ≤ |(nested.relative matrix).determinant| ∧
      Affine.product inner.transforms.entries = matrix ∧
      inner.relative matrix = .identity := by
  intro matrix inner
  obtain ⟨-, completed, again⟩ := relative_completes nested matrix
  have all : ∀ t ∈ nested.transforms.entries, 1 / 10 ^ 12 ≤ |t.determinant| := by decide +kernel
  have large : 1 / 10 ^ 12 ≤ |(nested.relative matrix).determinant| := by decide +kernel
  exact ⟨all, large, completed all, again large⟩

end Machine

end PictureMarkup
