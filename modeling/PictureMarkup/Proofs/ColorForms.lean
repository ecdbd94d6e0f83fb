import PictureMarkup.Proofs.Printed
import PictureMarkup.Written.Meaning

/-!
# The texts of colours

A text is a colour if it is a hash sign and six or eight hexadecimal digits, in either case, and
nothing else (`Color.HexForm`). Writing the colour again gives the same digits in upper case, with
a full alpha in front of six of them (`Color.fullForm`), and any other text is refused with the
text itself (`Written.readColor_hexForm`).

The two directions meet in a single digit: one that is read has a value below sixteen, and that
value is written as the same digit in upper case (`Color.hexDigit_of_hexValue?`). The order of the
bytes plays no part in it, since both directions go through the digits of the text from left to
right.
-/

namespace PictureMarkup

namespace Color

/-! ## Digits -/

/-- A hexadecimal digit in either case. -/
def IsHexDigit (c : Char) : Prop :=
  ('0' ≤ c ∧ c ≤ '9') ∨ ('A' ≤ c ∧ c ≤ 'F') ∨ ('a' ≤ c ∧ c ≤ 'f')

instance (c : Char) : Decidable (IsHexDigit c) := inferInstanceAs (Decidable (_ ∨ _ ∨ _))

theorem isSome_hexValue?_iff (c : Char) : (hexValue? c).isSome ↔ IsHexDigit c := by
  unfold hexValue? IsHexDigit
  by_cases digit : '0' ≤ c ∧ c ≤ '9'
  · simp [digit]
  · by_cases upper : 'A' ≤ c ∧ c ≤ 'F'
    · simp [digit, upper]
    · by_cases lower : 'a' ≤ c ∧ c ≤ 'f' <;> simp [digit, upper, lower]

/-- A character that is a digit is one of the first 128. -/
theorem toNat_lt_of_hexValue? {c : Char} {v : Nat} (h : hexValue? c = some v) : c.toNat < 128 := by
  have digit : IsHexDigit c := (isSome_hexValue?_iff c).mp (by simp [h])
  have bound : c ≤ 'f' := by
    rcases digit with ⟨-, high⟩ | ⟨-, high⟩ | ⟨-, high⟩
    · exact Char.le_trans high (by decide)
    · exact Char.le_trans high (by decide)
    · exact high
  have value : c.toNat ≤ 'f'.toNat := bound
  have last : 'f'.toNat = 102 := by decide
  omega

/-- A digit that is read is written in upper case. -/
theorem hexDigit_of_hexValue? {c : Char} {v : Nat} (h : hexValue? c = some v) :
    v < 16 ∧ hexDigit v = c.toUpper := by
  have all : ∀ n < 128, ∀ v ∈ hexValue? (Char.ofNat n),
      v < 16 ∧ hexDigit v = (Char.ofNat n).toUpper := by decide
  have this := all c.toNat (toNat_lt_of_hexValue? h)
  rw [Char.ofNat_toNat] at this
  exact this v h

theorem mapM_hexValue? {digits : List Char} {values : List Nat}
    (h : digits.mapM hexValue? = some values) :
    values.map hexDigit = digits.map Char.toUpper ∧ ∀ v ∈ values, v < 16 := by
  have each := mapM_eq_some_iff.mp h
  induction each with
  | nil => simp
  | cons first rest ih =>
      obtain ⟨small, digit⟩ := hexDigit_of_hexValue? first
      obtain ⟨digits, others⟩ := ih (mapM_eq_some_iff.mpr rest)
      constructor
      · simp [digit, digits]
      · simpa using ⟨small, others⟩

/-- Some characters have values if all of them are digits. -/
theorem exists_mapM_hexValue?_iff (digits : List Char) :
    (∃ values, digits.mapM hexValue? = some values) ↔ ∀ d ∈ digits, IsHexDigit d := by
  induction digits with
  | nil => simp
  | cons c digits ih =>
      rw [List.forall_mem_cons, ← ih, ← isSome_hexValue?_iff, Option.isSome_iff_exists]
      simp only [mapM_eq_some_iff, List.forall₂_cons_left_iff]
      constructor
      · rintro ⟨_, v, vs, first, rest, -⟩
        exact ⟨⟨v, first⟩, vs, rest⟩
      · rintro ⟨⟨v, first⟩, vs, rest⟩
        exact ⟨_, v, vs, first, rest, rfl⟩

/-! ## Texts -/

/-- A text that names a colour, with its digits. -/
structure HexForm (text : String) (digits : List Char) : Prop where
  text : text.toList = '#' :: digits
  count : digits.length = 6 ∨ digits.length = 8
  each : ∀ d ∈ digits, IsHexDigit d

/-- Only the text behind the first character can be the digits of a text. -/
instance (text : String) : Decidable (∃ digits, HexForm text digits) :=
  decidable_of_iff (text.toList = '#' :: text.toList.tail ∧
      (text.toList.tail.length = 6 ∨ text.toList.tail.length = 8) ∧
      text.toList.tail.all fun d => IsHexDigit d) <| by
    simp only [List.all_eq_true, decide_eq_true_eq]
    constructor
    · rintro ⟨hash, count, each⟩
      exact ⟨_, hash, count, each⟩
    · rintro ⟨digits, hash, count, each⟩
      rw [hash]
      exact ⟨rfl, count, each⟩

/-- The text of eight digits in upper case that names the same colour as some digits. -/
def fullForm (digits : List Char) : String :=
  String.ofList
    ('#' :: ((if digits.length = 6 then ['F', 'F'] else []) ++ digits.map Char.toUpper))

theorem hexByte_byteOfDigits {high low : Nat} (h : high < 16) (l : low < 16) :
    hexByte (byteOfDigits high low) = [hexDigit high, hexDigit low] := by
  have value : (byteOfDigits high low).toNat = 16 * high + low := by
    rw [byteOfDigits, UInt8.toNat_ofNat_of_lt']
    show 16 * high + low < 256
    omega
  have first : (16 * high + low) / 16 = high := by omega
  have second : (16 * high + low) % 16 = low := by omega
  rw [hexByte, value, first, second]

/-- Only six or eight digits make a colour. -/
theorem length_of_ofDigits? {values : List Nat} {c : Color} (h : ofDigits? values = some c) :
    values.length = 6 ∨ values.length = 8 := by
  unfold ofDigits? at h
  split at h
  · exact .inl rfl
  · exact .inr rfl
  · exact absurd h (by simp)

/-- The two digits of the first byte, and the digits behind them. -/
theorem exists_pair {n : Nat} {values : List Nat} (count : values.length = n + 2) :
    ∃ high low rest, values = high :: low :: rest ∧ rest.length = n := by
  obtain ⟨high, behind, rfl⟩ := List.exists_cons_of_length_eq_add_one count
  obtain ⟨low, rest, rfl⟩ := List.exists_cons_of_length_eq_add_one (Nat.succ.inj count)
  exact ⟨high, low, rest, rfl, Nat.succ.inj (Nat.succ.inj count)⟩

/-- Six or eight digits make a colour, and it is written with them. -/
theorem exists_ofDigits? {values : List Nat} (count : values.length = 6 ∨ values.length = 8)
    (small : ∀ v ∈ values, v < 16) :
    ∃ c, ofDigits? values = some c ∧ c.text.toList =
      '#' :: ((if values.length = 6 then ['F', 'F'] else []) ++ values.map hexDigit) := by
  have covered : hexByte 255 = ['F', 'F'] := by decide
  rcases count with six | eight
  · obtain ⟨r₁, r₀, values, rfl, four⟩ := exists_pair six
    obtain ⟨g₁, g₀, values, rfl, two⟩ := exists_pair four
    obtain ⟨b₁, b₀, values, rfl, none⟩ := exists_pair two
    cases List.eq_nil_of_length_eq_zero none
    simp only [List.forall_mem_cons] at small
    obtain ⟨r₁, r₀, g₁, g₀, b₁, b₀, -⟩ := small
    refine ⟨_, rfl, ?_⟩
    simp [text, hexByte_byteOfDigits, *]
  · obtain ⟨a₁, a₀, values, rfl, six⟩ := exists_pair eight
    obtain ⟨r₁, r₀, values, rfl, four⟩ := exists_pair six
    obtain ⟨g₁, g₀, values, rfl, two⟩ := exists_pair four
    obtain ⟨b₁, b₀, values, rfl, none⟩ := exists_pair two
    cases List.eq_nil_of_length_eq_zero none
    simp only [List.forall_mem_cons] at small
    obtain ⟨a₁, a₀, r₁, r₀, g₁, g₀, b₁, b₀, -⟩ := small
    refine ⟨_, rfl, ?_⟩
    simp [text, hexByte_byteOfDigits, *]

theorem length_of_mapM {digits : List Char} {values : List Nat}
    (h : digits.mapM hexValue? = some values) : values.length = digits.length := by
  have same := congrArg List.length (mapM_hexValue? h).1
  rwa [List.length_map, List.length_map] at same

/-- A text with its digits is read as the colour that is written with them. -/
theorem HexForm.parse? {s : String} {digits : List Char} (form : HexForm s digits) :
    ∃ c, Color.parse? s = some c ∧ c.text = fullForm digits := by
  obtain ⟨values, read⟩ := (exists_mapM_hexValue?_iff digits).mpr form.each
  obtain ⟨written, small⟩ := mapM_hexValue? read
  have length := length_of_mapM read
  obtain ⟨c, made, text⟩ := exists_ofDigits? (length ▸ form.count) small
  refine ⟨c, ?_, ?_⟩
  · unfold Color.parse?
    rw [form.text]
    show (digits.mapM hexValue?).bind ofDigits? = some c
    rw [read, Option.bind_some, made]
  · rw [length, written] at text
    rw [fullForm, ← text, String.ofList_toList]

theorem hexForm_of_parse? {s : String} {c : Color} (h : Color.parse? s = some c) :
    ∃ digits, HexForm s digits := by
  unfold Color.parse? at h
  split at h
  · rename_i digits text
    obtain ⟨values, read, made⟩ := Option.bind_eq_some_iff.mp h
    have count := length_of_ofDigits? made
    rw [length_of_mapM read] at count
    exact ⟨digits, text, count, (exists_mapM_hexValue?_iff digits).mp ⟨values, read⟩⟩
  · exact absurd h (by simp)

/-- The texts that are read are those that name a colour. -/
theorem isSome_parse?_iff (s : String) :
    (Color.parse? s).isSome ↔ ∃ digits, HexForm s digits := by
  rw [Option.isSome_iff_exists]
  constructor
  · rintro ⟨c, read⟩
    exact hexForm_of_parse? read
  · rintro ⟨digits, form⟩
    obtain ⟨c, read, -⟩ := form.parse?
    exact ⟨c, read⟩

/-- What a text is read as: the colour whose text is the full form of its digits. -/
theorem parse?_eq_some_iff (s : String) (c : Color) :
    Color.parse? s = some c ↔ ∃ digits, HexForm s digits ∧ c.text = fullForm digits := by
  constructor
  · intro read
    obtain ⟨digits, form⟩ := hexForm_of_parse? read
    obtain ⟨d, again, text⟩ := form.parse?
    rw [read] at again
    cases again
    exact ⟨digits, form, text⟩
  · rintro ⟨digits, form, text⟩
    obtain ⟨d, read, same⟩ := form.parse?
    -- a colour is known from its text
    have back := parse?_text c
    rw [text, ← same, parse?_text d] at back
    cases back
    exact read

end Color

namespace Written

open Color

/-- **Colours have one grammar.** A text is read as a colour if and only if it is a hash sign and
six or eight hexadecimal digits in either case, and it is the colour whose text is the same digits
in upper case, behind a full alpha if there were six. Any other text is refused with itself as the
fault. Every colour is read back from its text. -/
theorem readColor_hexForm (s : String) :
    (∀ c, readColor s = .ok c ↔ ∃ digits, HexForm s digits ∧ c.text = fullForm digits) ∧
      ((∃ c, readColor s = .ok c) ↔ ∃ digits, HexForm s digits) ∧
      (readColor s = .error (.color s) ↔ ¬∃ digits, HexForm s digits) ∧
      ∀ c : Color, readColor c.text = .ok c := by
  have read : ∀ c, readColor s = .ok c ↔ Color.parse? s = some c := by
    intro c
    unfold readColor
    cases Color.parse? s <;> simp
  have found : (∃ c, readColor s = .ok c) ↔ ∃ digits, HexForm s digits := by
    rw [← isSome_parse?_iff, Option.isSome_iff_exists]
    exact exists_congr read
  refine ⟨fun c => (read c).trans (parse?_eq_some_iff s c), found, ?_, fun c => ?_⟩
  · rw [← found]
    unfold readColor
    cases Color.parse? s <;> simp
  · rw [readColor, parse?_text]

end Written

end PictureMarkup
