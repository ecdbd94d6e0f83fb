import Mathlib.Data.List.Infix
import PictureMarkup.Proofs.Resources

/-!
# Dashes in comments

The text of a comment is rewritten, pass after pass, until it holds no two dashes in a row. A
pass takes the pairs from the left and does not look at the pair that two of them form, so
that a row of dashes is not done with after one pass. What a pass leaves alone is the text that
is wanted in the end (`spaced`), with one space between every two dashes in a row
(`spaced_splitPairs`), and the last pass leaves just that text. A second pass finds every pair
that is left (`splitPairs_splitPairs`), so there is never a third one.
-/

namespace PictureMarkup.CommentText

/-- A text with one space put between every two dashes in a row, and nothing else changed. -/
def spaced : List Char → List Char
  | [] => []
  | c :: r => if c = '-' ∧ r.head? = some '-' then c :: ' ' :: spaced r else c :: spaced r

/-! ## Pairs of dashes -/

theorem pair_prefix_iff (c : Char) (r : List Char) :
    ['-', '-'] <+: c :: r ↔ c = '-' ∧ r.head? = some '-' := by
  cases r with
  | nil => simp
  | cons d r => simp [List.cons_prefix_cons, eq_comm]

theorem adjacentDashes_eq_zero_iff (s : List Char) :
    adjacentDashes s = 0 ↔ ¬['-', '-'] <:+: s := by
  induction s with
  | nil => simp [adjacentDashes]
  | cons c r ih =>
      rw [adjacentDashes_cons, Nat.add_eq_zero_iff, ih, List.infix_cons_iff, pair_prefix_iff]
      simp

/-! ## The wanted text -/

theorem spaced_eq_self {s : List Char} (apart : adjacentDashes s = 0) : spaced s = s := by
  induction s with
  | nil => rfl
  | cons c r ih =>
      rw [adjacentDashes_cons, Nat.add_eq_zero_iff] at apart
      obtain ⟨first, rest⟩ := apart
      have none : ¬(c = '-' ∧ r.head? = some '-') := by simpa using first
      rw [spaced, if_neg none, ih rest]

theorem sublist_spaced (s : List Char) : s.Sublist (spaced s) := by
  induction s with
  | nil => exact .slnil
  | cons c r ih =>
      unfold spaced
      split
      · exact (ih.cons ' ').cons_cons c
      · exact ih.cons_cons c

/-- Each pair of dashes costs a character. -/
theorem length_spaced (s : List Char) : (spaced s).length = s.length + adjacentDashes s := by
  induction s with
  | nil => rfl
  | cons c r ih =>
      rw [spaced, adjacentDashes_cons]
      split <;> simp [ih] <;> omega

/-! ## One pass -/

/-- A pass leaves the wanted text as it was. -/
theorem spaced_splitPairs (s : List Char) : spaced (splitPairs s) = spaced s := by
  fun_induction splitPairs s with
  | case1 => rfl
  | case2 => rfl
  | case3 c d r pair ih =>
      obtain ⟨rfl, rfl⟩ := pair
      simp [spaced, head?_splitPairs, ih]
  | case4 c d r single ih =>
      rw [spaced, head?_splitPairs, ih, ← spaced]

theorem splitPairs_cons {c : Char} {s : List Char} (single : ¬(c = '-' ∧ s.head? = some '-')) :
    splitPairs (c :: s) = c :: splitPairs s := by
  cases s with
  | nil => rfl
  | cons d r => rw [splitPairs, if_neg (by simpa using single)]

/-- Behind a pass no text begins with two dashes. -/
theorem splitPairs_ne_pair (s r : List Char) : splitPairs s ≠ '-' :: '-' :: r := by
  fun_cases splitPairs s with
  | case1 => simp
  | case2 => simp
  | case3 => simp
  | case4 c d t single =>
      intro same
      obtain ⟨dash, behind⟩ := List.cons_eq_cons.mp same
      have first : (splitPairs (d :: t)).head? = some '-' := by rw [behind, List.head?_cons]
      rw [head?_splitPairs, List.head?_cons, Option.some_inj] at first
      exact single ⟨dash, first⟩

/-- One more dash in front of a text that does not begin with two of them is the only one that
a pass can split off. -/
theorem splitPairs_dash {s : List Char} (few : ∀ r, s ≠ '-' :: '-' :: r) :
    splitPairs ('-' :: s) =
      if s.head? = some '-' then '-' :: ' ' :: splitPairs s else '-' :: splitPairs s := by
  by_cases dash : s.head? = some '-'
  · obtain ⟨r, rfl⟩ := List.head?_eq_some_iff.mp dash
    have single : ¬(('-' : Char) = '-' ∧ r.head? = some '-') := by
      rintro ⟨-, second⟩
      obtain ⟨t, rfl⟩ := List.head?_eq_some_iff.mp second
      exact few t rfl
    rw [if_pos dash, splitPairs_cons single, splitPairs, if_pos ⟨rfl, rfl⟩]
  · rw [if_neg dash, splitPairs_cons fun pair => dash pair.2]

/-- Two passes leave the wanted text. -/
theorem splitPairs_splitPairs (s : List Char) : splitPairs (splitPairs s) = spaced s := by
  fun_induction splitPairs s with
  | case1 => rfl
  | case2 c => simp [splitPairs, spaced]
  | case3 c d r pair ih =>
      obtain ⟨rfl, rfl⟩ := pair
      -- the space keeps the first dash apart, and the second one meets what the pass left of
      -- the rest, which does not begin with a pair
      have second : splitPairs ('-' :: splitPairs r) = spaced ('-' :: r) := by
        rw [splitPairs_dash (splitPairs_ne_pair r), head?_splitPairs, ih, spaced]
        simp
      calc splitPairs ('-' :: ' ' :: '-' :: splitPairs r)
          = '-' :: ' ' :: splitPairs ('-' :: splitPairs r) := by
            rw [splitPairs_cons (by simp), splitPairs_cons (by simp)]
        _ = spaced ('-' :: '-' :: r) := by
            rw [second, spaced.eq_def ('-' :: '-' :: r)]
            simp
  | case4 c d r single ih =>
      have apart : ¬(c = '-' ∧ (splitPairs (d :: r)).head? = some '-') := by
        rw [head?_splitPairs]
        simpa using single
      rw [splitPairs_cons apart, ih, spaced.eq_def (c :: d :: r)]
      simp [single]

/-! ## All passes -/

/-- The passes leave the wanted text, as no pass changes what is wanted. -/
theorem separate_eq_spaced (s : List Char) : separate s = spaced s := by
  fun_induction separate s with
  | case1 s apart => exact (spaced_eq_self apart).symm
  | case2 s _ ih => rw [ih, spaced_splitPairs]

/-- Every pass but the last one leaves a pair of dashes. -/
theorem separate_eq_iterate (s : List Char) :
    ∃ n, separate s = splitPairs^[n] s ∧ ∀ m < n, ['-', '-'] <:+: splitPairs^[m] s := by
  fun_induction separate s with
  | case1 s _ => exact ⟨0, rfl, fun m below => absurd below (Nat.not_lt_zero m)⟩
  | case2 s more ih =>
      obtain ⟨n, result, before⟩ := ih
      refine ⟨n + 1, result, fun m below => ?_⟩
      cases m with
      | zero => exact Classical.not_not.mp fun none => more ((adjacentDashes_eq_zero_iff s).mpr none)
      | succ m => exact before m (Nat.lt_of_succ_lt_succ below)

/-- **A comment is its text with its dashes spaced.** Splitting the pairs of dashes of any text,
pass after pass as long as there are any, ends after two passes at the latest. The result is the
text with one space put between every two dashes in a row, and nothing else changed: it has all
the characters of the text in their order and one more for each place where a dash followed a
dash, it holds no two dashes in a row, and it is the text itself if that holds none. -/
theorem separate_spaces_dashes (s : List Char) :
    separate s = spaced s ∧
      (∃ n ≤ 2, separate s = splitPairs^[n] s ∧ ∀ m < n, ['-', '-'] <:+: splitPairs^[m] s) ∧
      ¬['-', '-'] <:+: separate s ∧
      s.Sublist (separate s) ∧
      (separate s).length = s.length + adjacentDashes s ∧
      (separate s = s ↔ ¬['-', '-'] <:+: s) := by
  have result := separate_eq_spaced s
  have apart := (adjacentDashes_eq_zero_iff _).mp (adjacentDashes_separate s)
  refine ⟨result, ?_, apart, result ▸ sublist_spaced s, result ▸ length_spaced s, ?_⟩
  · obtain ⟨n, last, before⟩ := separate_eq_iterate s
    refine ⟨n, ?_, last, before⟩
    by_contra more
    have two : splitPairs^[2] s = separate s := (splitPairs_splitPairs s).trans result.symm
    exact apart (two ▸ before 2 (by omega))
  · constructor
    · intro same
      exact same ▸ apart
    · intro none
      exact result.trans (spaced_eq_self ((adjacentDashes_eq_zero_iff s).mpr none))

/-- Two passes for three dashes in a row. -/
example : splitPairs "a---b".toList = "a- --b".toList ∧
    spaced "a---b".toList = "a- - -b".toList := by
  decide

end PictureMarkup.CommentText
