import PictureMarkup.Proofs.Printed

/-!
# Path data is read in one way only

No separator stands between one element of a path and the next, yet path data can be taken apart
in one way only: a letter begins an element, and no number holds a letter. The reader of path data
finds the fill rule, the elements in their order and the numbers of each as they are printed, and
it accepts nothing that is not written so (`Path.read?_eq_some_iff`). Paths with the same data
therefore have the same fill rule and the same elements, up to what printing a number loses
(`Path.data_uniquely_readable`).
-/

namespace PictureMarkup

/-- The same kind of element, with coordinates that are printed alike. -/
def PathElement.PrintsLike (e f : PathElement Float) : Prop :=
  e.letterChar = f.letterChar ∧ e.points.map Point.printed = f.points.map Point.printed

theorem PathElement.printed_eq_iff (e f : PathElement Float) :
    e.printed = f.printed ↔ e.PrintsLike f := by
  unfold PrintsLike
  cases e <;> cases f <;> simp [printed, letterChar, points]

namespace Path

/-- Nothing is lost in taking a text apart at its letters. -/
theorem eq_of_chunks (cs : List Char) :
    cs = (chunks cs).1 ++ (chunks cs).2.flatMap fun part => part.1 :: part.2 := by
  induction cs with
  | nil => rfl
  | cons c cs ih =>
      rw [chunks]
      split
      · simp [← ih]
      · simp [← ih]

theorem eq_part_of_elementOf? {part : Char × List Char} {e : PathElement Numeral}
    (h : elementOf? part = some e) : part = e.part := by
  obtain ⟨letter, cs⟩ := part
  simp only [elementOf?] at h
  cases numbers : Numeral.readList? ' ' cs with
  | none =>
      rw [numbers] at h
      simp at h
  | some ns =>
      have text := Numeral.eq_listChars_of_readList? numbers
      rw [numbers] at h
      subst text
      -- a letter with the right number of numbers behind it, or none of the five
      split at h
      · cases h; rename_i same; cases same; rfl
      · cases h; rename_i same; cases same; rfl
      · cases h; rename_i same; cases same; rfl
      · cases h; rename_i same; cases same; rfl
      · cases h; rename_i same; cases same; rfl
      · exact absurd h (by simp)

theorem eq_spelling_of_elements? {cs : List Char} {es : List (PathElement Numeral)}
    (h : elements? cs = some es) : cs = es.flatMap PathElement.spelling := by
  unfold elements? at h
  split at h
  · rename_i parts apart
    have each := (mapM_eq_some_iff.mp h).imp fun _ _ => eq_part_of_elementOf?
    rw [← List.forall₂_map_right_iff, List.forall₂_eq_eq_eq] at each
    have whole := eq_of_chunks cs
    rw [apart, List.nil_append] at whole
    rw [whole, each, List.flatMap_map]
    rfl
  · exact absurd h (by simp)

/-- The reader accepts the texts of printed paths and no others. -/
theorem read?_eq_some_iff (s : String) (p : Path Numeral) :
    read? s = some p ↔ s.toList = p.spelling := by
  refine ⟨fun h => ?_, read?_of_spelling⟩
  unfold read? at h
  split at h
  · rename_i cs text
    obtain ⟨es, read, rfl⟩ := Option.map_eq_some_iff.mp h
    rw [text, spelling, token_evenOdd, ← eq_spelling_of_elements? read]
    rfl
  · rename_i cs text
    obtain ⟨es, read, rfl⟩ := Option.map_eq_some_iff.mp h
    rw [text, spelling, token_nonZero, ← eq_spelling_of_elements? read]
    rfl
  · exact absurd h (by simp)

theorem text_eq_iff (p q : Path Float) : p.text = q.text ↔ p.printed = q.printed := by
  constructor
  · intro same
    have read := read?_text p
    rw [same, read?_text] at read
    exact (Option.some.inj read).symm
  · intro same
    refine String.toList_injective ?_
    rw [← spelling_printed, ← spelling_printed, same]

theorem printed_eq_iff (p q : Path Float) :
    p.printed = q.printed ↔
      p.fillRule = q.fillRule ∧ List.Forall₂ PathElement.PrintsLike p.elements q.elements := by
  have elements : p.elements.map PathElement.printed = q.elements.map PathElement.printed ↔
      List.Forall₂ PathElement.PrintsLike p.elements q.elements := by
    rw [← List.forall₂_eq_eq_eq, List.forall₂_map_left_iff, List.forall₂_map_right_iff]
    simp only [PathElement.printed_eq_iff]
  rw [← elements, printed, printed, Path.mk.injEq, and_comm]

/-- **Path data is uniquely readable.** The data of a path is the token of its fill rule, one
space, and the elements in their order with nothing between them, each a letter in front of its
numbers. Reading it gives back the fill rule, the elements by kind and in their order, and each
coordinate as it is printed; and a text is read as such a path only if it is written in this way.
So two paths have the same data if and only if they have the same fill rule and the same elements,
up to coordinates that are printed alike. -/
theorem data_uniquely_readable (p : Path Float) :
    (p.text = p.fillRule.token ++ " " ++ String.join (p.elements.map PathElement.text) ∧
        ∀ e ∈ p.elements, e.text.toList = e.letterChar :: Numeral.listChars ' ' e.numbers) ∧
      (∀ s q, read? s = some q ↔ s.toList = q.spelling) ∧
      read? p.text = some ⟨p.elements.map PathElement.printed, p.fillRule⟩ ∧
      ∀ q : Path Float, q.text = p.text ↔
        q.fillRule = p.fillRule ∧ List.Forall₂ PathElement.PrintsLike q.elements p.elements := by
  refine ⟨⟨rfl, fun e _ => e.toList_text⟩, read?_eq_some_iff, read?_text p, fun q => ?_⟩
  rw [text_eq_iff, printed_eq_iff]

end Path

end PictureMarkup
