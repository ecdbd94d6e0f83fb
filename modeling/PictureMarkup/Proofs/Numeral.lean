import Mathlib.Data.List.Forall2
import Mathlib.Data.List.TakeWhile
import PictureMarkup.Number

/-!
# Numbers in markup are plain decimals

A number is written as digits, perhaps with a point and more digits, and behind a minus
sign only if it is not zero (`Decimal.Binary.isPlain_markup`). Infinities and undefined
values are written as zero. A `Numeral` is a text of this form; in place of the floats of a
drawing, numerals are what its markup keeps of it.

None of their characters separates numbers in a list, so a list can be taken apart again
(`Numeral.readList?_listChars`), and only the text of a list is read as that list
(`Numeral.eq_listChars_of_readList?`).
-/

namespace PictureMarkup

/-! ## Reading one after the other -/

section

variable {ρ σ τ : Type} {read : σ → Option τ}

/-- A list is read if each of its members is. -/
theorem mapM_eq_some_iff {xs : List σ} {ys : List τ} :
    xs.mapM read = some ys ↔ List.Forall₂ (fun x y => read x = some y) xs ys := by
  induction xs generalizing ys with
  | nil => simp [eq_comm]
  | cons x xs ih =>
      rw [List.mapM_cons]
      constructor
      · intro h
        obtain ⟨y, first, h⟩ := Option.bind_eq_some_iff.mp h
        obtain ⟨ys, rest, same⟩ := Option.bind_eq_some_iff.mp h
        cases same
        exact .cons first (ih.mp rest)
      · rintro (_ | ⟨first, rest⟩)
        rw [first, ih.mpr rest]
        rfl

/-- What is written one after the other is read back in the same way. -/
theorem mapM_map {write : ρ → σ} {value : ρ → τ} (each : ∀ x, read (write x) = some (value x))
    (xs : List ρ) : (xs.map write).mapM read = some (xs.map value) := by
  rw [mapM_eq_some_iff, List.forall₂_map_left_iff, List.forall₂_map_right_iff, List.forall₂_same]
  exact fun x _ => each x

end

/-! ## Plain decimals -/

/-- Digits, and perhaps a point and more digits. -/
def isUnsigned (cs : List Char) : Bool :=
  !(cs.takeWhile Char.isDigit).isEmpty &&
    match cs.dropWhile Char.isDigit with
    | [] => true
    | point :: places => point = '.' && !places.isEmpty && places.all Char.isDigit

/-- One of its digits counts. -/
def isVisible (cs : List Char) : Bool := cs.any fun c => c.isDigit && c != '0'

/-- An unsigned decimal, or one that is not zero behind a minus sign. -/
def isPlain : List Char → Bool
  | '-' :: cs => isUnsigned cs && isVisible cs
  | cs => isUnsigned cs

theorem isUnsigned_of_digits {whole : List Char} (some : whole ≠ [])
    (digits : ∀ c ∈ whole, c.isDigit) : isUnsigned whole := by
  unfold isUnsigned
  rw [List.takeWhile_eq_self_iff.mpr digits, List.dropWhile_eq_nil_iff.mpr digits, Bool.and_true,
    Bool.not_eq_true', List.isEmpty_eq_false_iff]
  exact some

theorem isUnsigned_of_point {whole places : List Char} (some : whole ≠ [])
    (digits : ∀ c ∈ whole, c.isDigit) (more : places ≠ []) (after : ∀ c ∈ places, c.isDigit) :
    isUnsigned (whole ++ '.' :: places) := by
  have point : ¬ Char.isDigit '.' := by decide
  unfold isUnsigned
  rw [List.takeWhile_append_of_pos digits, List.dropWhile_append_of_pos digits,
    List.takeWhile_cons_of_neg point, List.dropWhile_cons_of_neg point, List.append_nil]
  simp only [Bool.and_eq_true, Bool.not_eq_true', List.isEmpty_eq_false_iff, decide_true,
    List.all_eq_true]
  exact ⟨some, ⟨trivial, more⟩, after⟩

namespace Decimal

theorem isDigit_of_mem_natDigits {n : Nat} : ∀ c ∈ natDigits n, c.isDigit :=
  fun _ member => Nat.isDigit_of_mem_toDigits (by decide) (by decide) member

theorem natDigits_ne_nil (n : Nat) : natDigits n ≠ [] := Nat.toDigits_ne_nil

/-- The digits of a positive number are not all zero. -/
theorem isVisible_natDigits {n : Nat} (positive : n ≠ 0) : isVisible (natDigits n) := by
  cases visible : isVisible (natDigits n) with
  | true => rfl
  | false =>
      have zeros : ∀ c ∈ natDigits n, c = '0' := by
        intro c member
        have hidden := List.any_eq_false.mp visible c member
        rw [isDigit_of_mem_natDigits c member, Bool.true_and, bne_iff_ne,
          Decidable.not_not] at hidden
        exact hidden
      have value : Nat.ofDigitChars 10 (natDigits n) 0 = n := Nat.ofDigitChars_ten_toDigits
      rw [List.eq_replicate_of_mem zeros, Nat.ofDigitChars_replicate_zero, Nat.mul_zero] at value
      exact absurd value.symm positive

theorem isVisible_of_mem {cs ds : List Char} (h : isVisible cs) (all : ∀ c ∈ cs, c ∈ ds) :
    isVisible ds := by
  obtain ⟨c, member, counts⟩ := List.any_eq_true.mp h
  exact List.any_eq_true.mpr ⟨c, all c member, counts⟩

namespace Digits

/-- Every place written out is an unsigned decimal. -/
theorem isUnsigned_positional (x : Digits) : isUnsigned x.positional := by
  have digits := isDigit_of_mem_natDigits (n := x.digits)
  have some := natDigits_ne_nil x.digits
  have zeros : ∀ n, ∀ c ∈ List.replicate n '0', c.isDigit := by
    intro n c member
    rw [List.eq_of_mem_replicate member]
    decide
  unfold positional
  by_cases whole : 0 ≤ x.exponent
  · rw [if_pos whole]
    refine isUnsigned_of_digits (List.append_ne_nil_of_left_ne_nil some _) fun c member => ?_
    exact (List.mem_append.mp member).elim (digits c) (zeros _ c)
  · rw [if_neg whole]
    simp only
    split
    · -- the point stands between the digits
      rename_i inside
      refine isUnsigned_of_point ?_ (fun c member => digits c (List.mem_of_mem_take member)) ?_
        (fun c member => digits c (List.mem_of_mem_drop member))
      · rw [ne_eq, List.take_eq_nil_iff, not_or]
        exact ⟨by omega, some⟩
      · rw [ne_eq, List.drop_eq_nil_iff]
        omega
    · -- zeros stand between the point and the digits
      refine isUnsigned_of_point (List.cons_ne_nil '0' []) ?_
        (List.append_ne_nil_of_right_ne_nil _ some) fun c member => ?_
      · intro c member
        rw [List.mem_singleton.mp member]
        decide
      · exact (List.mem_append.mp member).elim (zeros _ c) (digits c)

theorem isVisible_positional {x : Digits} (positive : x.digits ≠ 0) :
    isVisible x.positional := by
  refine isVisible_of_mem (isVisible_natDigits positive) fun c member => ?_
  unfold positional
  split
  · exact List.mem_append_left _ member
  · simp only
    split
    · -- the point stands between the digits
      rw [← List.take_append_drop ((natDigits x.digits).length - (-x.exponent).toNat)
        (natDigits x.digits), List.mem_append] at member
      rw [List.mem_append, List.mem_cons]
      exact member.imp_right .inr
    · exact List.mem_cons_of_mem _ (List.mem_cons_of_mem _ (List.mem_append_right _ member))

theorem trim_digits_ne_zero (x : Digits) (positive : x.digits ≠ 0) : x.trim.digits ≠ 0 := by
  fun_induction trim x with
  | case1 x divides ih =>
      refine ih ?_
      show x.digits / 10 ≠ 0
      omega
  | case2 x stays => exact positive

end Digits

theorem onGrid_ne_zero {m : Nat} {q k : Int} {narrow : Bool} {d : Nat}
    (h : onGrid? m q narrow k = some d) : d ≠ 0 := by
  unfold onGrid? at h
  simp only at h
  split at h
  · exact absurd h (by simp)
  · rename_i positive
    split at h
    · rw [← Option.some.inj h]
      split
      · exact positive
      · exact Nat.succ_ne_zero _
    · rw [← Option.some.inj h]
      exact positive
    · rw [← Option.some.inj h]
      exact Nat.succ_ne_zero _
    · exact absurd h (by simp)

/-- The shortest decimal of a positive number is positive. -/
theorem shortest_digits_ne_zero {m : Nat} (positive : m ≠ 0) (q : Int) (narrow : Bool) :
    (shortest m q narrow).digits ≠ 0 := by
  have exact_ : (exactDigits m q).digits ≠ 0 := by
    unfold exactDigits
    split
    · exact Nat.mul_ne_zero positive (Nat.ne_of_gt (Nat.pow_pos (by decide)))
    · exact Nat.mul_ne_zero positive (Nat.ne_of_gt (Nat.pow_pos (by decide)))
  unfold shortest
  refine Digits.trim_digits_ne_zero _ ?_
  cases found : List.findSome? _ (List.range gridCount) with
  | none => exact exact_
  | some x =>
      obtain ⟨i, -, onGrid⟩ := List.exists_of_findSome?_eq_some found
      obtain ⟨d, some, rfl⟩ := Option.map_eq_some_iff.mp onGrid
      exact onGrid_ne_zero some

/-- A number in markup is a plain decimal. -/
theorem Binary.isPlain_markup (b : Binary) : isPlain b.markup := by
  have unsigned : ∀ {cs : List Char}, isUnsigned cs → isPlain cs := by
    intro cs h
    cases cs with
    | nil => exact h
    | cons c cs =>
        have unsigned : c ≠ '-' := by
          rintro rfl
          exact Bool.false_ne_true h
        unfold isPlain
        split
        · rename_i same
          exact absurd (List.cons.inj same).1 unsigned
        · exact h
  cases b with
  | infinite negative => rfl
  | nan => rfl
  | finite negative m q narrow =>
      by_cases zero : m = 0
      · rw [markup, if_pos zero]
        rfl
      · rw [markup, if_neg zero]
        have plain := (shortest m q narrow).isUnsigned_positional
        cases negative with
        | false => exact unsigned plain
        | true =>
            have positive := shortest_digits_ne_zero zero q narrow
            exact Bool.and_eq_true_iff.mpr ⟨plain, Digits.isVisible_positional positive⟩

end Decimal

theorem mem_of_isUnsigned {cs : List Char} (h : isUnsigned cs) :
    ∀ c ∈ cs, c.isDigit ∨ c = '.' := by
  intro c member
  rw [← List.takeWhile_append_dropWhile (p := Char.isDigit) (l := cs)] at member
  rcases List.mem_append.mp member with whole | rest
  · exact .inl (List.mem_takeWhile_imp whole)
  · have shape := (Bool.and_eq_true_iff.mp h).2
    cases after : cs.dropWhile Char.isDigit with
    | nil =>
        rw [after] at rest
        exact absurd rest List.not_mem_nil
    | cons point places =>
        rw [after] at rest shape
        simp only [Bool.and_eq_true, decide_eq_true_eq, List.all_eq_true] at shape
        rcases List.mem_cons.mp rest with rfl | place
        · exact .inr shape.1.1
        · exact .inl (shape.2 c place)

/-! ## Numerals -/

/-- A plain decimal. -/
@[ext] structure Numeral where
  text : String
  plain : isPlain text.toList
  deriving DecidableEq

namespace Numeral

/-- What single precision keeps of a number. -/
def single (x : Float) : Numeral :=
  ⟨Number.single x, by
    rw [Number.single, String.toList_ofList]
    exact Decimal.Binary.isPlain_markup _⟩

/-- What double precision keeps of a number. -/
def double (x : Float) : Numeral :=
  ⟨Number.double x, by
    rw [Number.double, String.toList_ofList]
    exact Decimal.Binary.isPlain_markup _⟩

/-- The characters of a number as it is printed. -/
def chars (n : Numeral) : List Char := n.text.toList

theorem mem_chars (n : Numeral) : ∀ c ∈ n.chars, c.isDigit ∨ c = '.' ∨ c = '-' := by
  have plain := n.plain
  intro c member
  unfold isPlain at plain
  split at plain
  · rename_i cs signed
    rw [chars, signed] at member
    rcases List.mem_cons.mp member with rfl | rest
    · exact .inr (.inr rfl)
    · exact (mem_of_isUnsigned (Bool.and_eq_true_iff.mp plain).1 c rest).imp_right .inl
  · exact (mem_of_isUnsigned plain c member).imp_right .inl

theorem chars_ne_nil (n : Numeral) : n.chars ≠ [] := by
  intro none
  have plain := n.plain
  rw [show n.text.toList = [] from none] at plain
  exact Bool.false_ne_true plain

/-- Read a plain decimal. -/
def read? (cs : List Char) : Option Numeral :=
  if plain : isPlain (String.ofList cs).toList then some ⟨String.ofList cs, plain⟩ else none

theorem read?_chars (n : Numeral) : read? n.chars = some n := by
  have text : String.ofList n.chars = n.text := String.ofList_toList
  unfold read?
  rw [dif_pos (text ▸ n.plain)]
  exact congrArg some (Numeral.ext text)

/-- Read numbers with a separator between them; no text stands for no number. -/
def readList? (separator : Char) : List Char → Option (List Numeral)
  | [] => some []
  | c :: cs => ((c :: cs).splitOn separator).mapM read?

/-- The characters of numbers with a separator between them. -/
def listChars (separator : Char) (ns : List Numeral) : List Char :=
  [separator].intercalate (ns.map chars)

theorem mem_listChars {separator : Char} {ns : List Numeral} :
    ∀ c ∈ listChars separator ns, c = separator ∨ c.isDigit ∨ c = '.' ∨ c = '-' := by
  intro c member
  induction ns with
  | nil => exact absurd member List.not_mem_nil
  | cons n ns ih =>
      cases ns with
      | nil =>
          rw [listChars, List.map_singleton, List.intercalate_singleton] at member
          exact .inr (n.mem_chars c member)
      | cons k ns =>
          change c ∈ [separator].intercalate (n.chars :: k.chars :: _) at member
          rw [List.intercalate_cons_cons, List.append_assoc, List.mem_append,
            List.mem_append, List.mem_singleton] at member
          rcases member with first | rfl | rest
          · exact .inr (n.mem_chars c first)
          · exact .inl rfl
          · exact ih rest

theorem readList?_listChars {separator : Char}
    (apart : ¬(separator.isDigit ∨ separator = '.' ∨ separator = '-')) (ns : List Numeral) :
    readList? separator (listChars separator ns) = some ns := by
  cases ns with
  | nil => rfl
  | cons n ns =>
      have parts : (listChars separator (n :: ns)).splitOn separator = (n :: ns).map chars := by
        refine List.splitOn_intercalate separator (fun cs member inside => ?_)
          (List.cons_ne_nil _ _)
        obtain ⟨k, -, rfl⟩ := List.mem_map.mp member
        exact apart (k.mem_chars separator inside)
      have read : ((listChars separator (n :: ns)).splitOn separator).mapM read? =
          some (n :: ns) := by rw [parts, mapM_map read?_chars, List.map_id']
      cases whole : listChars separator (n :: ns) with
      | nil =>
          -- the first number has some characters
          rw [whole] at parts
          exact absurd (List.cons.inj parts).1.symm n.chars_ne_nil
      | cons c cs =>
          rw [whole] at read
          exact read

theorem eq_chars_of_read? {cs : List Char} {n : Numeral} (h : read? cs = some n) :
    cs = n.chars := by
  unfold read? at h
  split at h
  · cases h
    exact String.toList_ofList.symm
  · exact absurd h (by simp)

/-- Only the text of some numbers is read as these numbers. -/
theorem eq_listChars_of_readList? {separator : Char} {cs : List Char} {ns : List Numeral}
    (h : readList? separator cs = some ns) : cs = listChars separator ns := by
  cases cs with
  | nil =>
      cases h
      rfl
  | cons c cs =>
      have parts := (mapM_eq_some_iff.mp h).imp fun _ _ => eq_chars_of_read?
      rw [← List.forall₂_map_right_iff, List.forall₂_eq_eq_eq] at parts
      rw [listChars, ← parts, List.intercalate_splitOn]

end Numeral

end PictureMarkup
