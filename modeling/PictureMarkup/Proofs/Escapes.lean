import PictureMarkup.Color
import PictureMarkup.Proofs.Scanning

/-!
# Values with references

Between its quotes, the value of an attribute may hold references: an ampersand, a name or a
number, and a semicolon stand for one character. A processor of documents puts the character in
place of the reference, puts a blank in place of other white space, and refuses whatever is no
reference behind an ampersand, an opening bracket, and the characters that no document may hold
(`decode`).

A value is written with its quotes as references and else as it stands. So there are values that
are not decoded to what was written, and it can be told from their characters which
(`decode_writtenChars_iff`). A reference in the value is one character for three or more, while
nothing else becomes longer: this is why a value with an ampersand is never decoded to itself
(`Decoder.Counts`).
-/

namespace PictureMarkup.Markup

/-! ## Characters -/

/-- White space other than the blank. -/
def isBreak (c : Char) : Bool := c == '\t' || c == '\n' || c == '\r'

/-- A character that may be in a document. -/
def isCharacter (c : Char) : Bool :=
  isBreak c || (0x20 ≤ c.toNat && c.toNat != 0xFFFE && c.toNat != 0xFFFF)

/-- The references with names. -/
def namedReferences : List (List Char × Char) :=
  [(['a', 'm', 'p'], '&'), (['l', 't'], '<'), (['g', 't'], '>'), (['q', 'u', 'o', 't'], '"'),
    (['a', 'p', 'o', 's'], Char.ofNat 39)]

/-- The character with a number. -/
def numbered? (base : Nat) (digits : List Char) : Option Char :=
  match digits.mapM fun c => (Color.hexValue? c).filter (· < base) with
  | some (d :: ds) =>
    let number := (d :: ds).foldl (fun n d => base * n + d) 0
    if number.isValidChar ∧ isCharacter (Char.ofNat number) then some (Char.ofNat number) else none
  | _ => none

/-- The character that a reference stands for, given what is between the ampersand and the
semicolon. -/
def referent? : List Char → Option Char
  | '#' :: 'x' :: digits => numbered? 16 digits
  | '#' :: digits => numbered? 10 digits
  | name => namedReferences.lookup name

/-! ## Decoding -/

/-- How far a value has been decoded. -/
inductive Decoder where
  /-- What has been decoded, and whether a carriage return was the last of it. -/
  | text (out : List Char) (returned : Bool)
  /-- What has been decoded, and what has been seen of a reference. -/
  | reference (out seen : List Char)

namespace Decoder

/-- Go on by a character. A line feed behind a carriage return belongs to it. -/
def step (white : Char → Char) : Decoder → Char → Option Decoder
  | .text out returned, c =>
    if c = '&' then some (.reference out [])
    else if c = '<' ∨ isCharacter c = false then none
    else if c = '\n' ∧ returned = true then some (.text out false)
    else some (.text (out ++ [white c]) (c = '\r'))
  | .reference out seen, c =>
    if c = ';' then (referent? seen).map fun d => .text (out ++ [d]) false
    else some (.reference out (seen ++ [c]))

/-- The text read so far, unless a reference is still open. -/
def result : Decoder → Option (List Char)
  | .text out _ => some out
  | .reference .. => none

end Decoder

/-- What some characters of a document stand for, given what becomes of white space. -/
def decode (white : Char → Char) (cs : List Char) : Option (List Char) :=
  (cs.foldlM (Decoder.step white) (.text [] false)).bind Decoder.result

/-- White space in the value of an attribute. -/
def whiteInValue (c : Char) : Char := if isBreak c then ' ' else c

/-- White space in a text. -/
def whiteInText (c : Char) : Char := if c = '\r' then '\n' else c

/-- The characters of a value between its quotes. -/
def writtenChars (ending : LineEnding) (cs : List Char) : List Char :=
  (cs.flatMap attributeChar).flatMap (endedChar ending)

/-- A character that a value keeps. -/
def isKept (c : Char) : Bool := isCharacter c && !isBreak c && c != '&' && c != '<'

section

variable {ending : LineEnding} {c : Char} {cs : List Char}

theorem writtenChars_cons : writtenChars ending (c :: cs) =
    writtenChars ending [c] ++ writtenChars ending cs := by
  simp [writtenChars]

theorem writtenChars_quote : writtenChars ending ['"'] = ['&', 'q', 'u', 'o', 't', ';'] := by
  cases ending <;> decide

theorem writtenChars_newline : writtenChars ending ['\n'] = ending.text.toList := by
  cases ending <;> decide

theorem writtenChars_other (quote : c ≠ '"') (newline : c ≠ '\n') :
    writtenChars ending [c] = [c] := by
  simp [writtenChars, attributeChar, endedChar, quote, newline]

/-- A value holds no quote of its own, so that it ends where it should. -/
theorem quote_notMem_writtenChars (ending : LineEnding) (cs : List Char) :
    '"' ∉ writtenChars ending cs := by
  intro member
  obtain ⟨d, inside, member⟩ := List.mem_flatMap.mp member
  obtain ⟨c, -, inside⟩ := List.mem_flatMap.mp inside
  have escaped : d ≠ '"' := by
    rintro rfl
    unfold attributeChar at inside
    split at inside
    · revert inside
      decide
    · rename_i other
      exact other (List.mem_singleton.mp inside).symm
  unfold endedChar at member
  split at member
  · cases ending <;> revert member <;> decide
  · exact escaped (List.mem_singleton.mp member).symm

end

namespace Decoder

variable {ending : LineEnding} {white : Char → Char} {c : Char} {out seen : List Char}
  {returned : Bool}

theorem step_kept (own : white c = c) (kept : isKept c) :
    step white (.text out returned) c = some (.text (out ++ [c]) false) := by
  simp only [isKept, isBreak, Bool.and_eq_true, Bool.not_eq_true', bne_iff_ne, Bool.or_eq_false_iff,
    beq_eq_false_iff_ne] at kept
  obtain ⟨⟨⟨character, ⟨-, newline⟩, carriage⟩, amp⟩, bracket⟩ := kept
  simp [step, amp, bracket, character, newline, carriage, own]

/-- A quote is written as a reference, and the reference is decoded. -/
theorem reaches_quote : Reaches (step white) (.text out returned)
    ['&', 'q', 'u', 'o', 't', ';'] (.text (out ++ ['"']) false) :=
  .cons rfl (.cons rfl (.cons rfl (.cons rfl (.cons rfl (.single rfl)))))

/-- The characters that a value keeps are decoded to themselves. -/
theorem reaches_kept {cs : List Char} (kept : ∀ c ∈ cs, isKept c) :
    ∃ r, Reaches (step whiteInValue) (.text out returned) (writtenChars ending cs)
      (.text (out ++ cs) r) := by
  induction cs generalizing out returned with
  | nil =>
      rw [List.append_nil]
      exact ⟨returned, .nil⟩
  | cons c cs ih =>
      have first : Reaches (step whiteInValue) (.text out returned) (writtenChars ending [c])
          (.text (out ++ [c]) false) := by
        have own := kept c List.mem_cons_self
        by_cases quote : c = '"'
        · rw [quote, writtenChars_quote]
          exact reaches_quote
        · have plain : isBreak c = false := by
            simp only [isKept, Bool.and_eq_true, Bool.not_eq_true'] at own
            exact own.1.1.2
          have newline : c ≠ '\n' := by
            rintro rfl
            exact absurd plain (by decide)
          have same : whiteInValue c = c := by simp [whiteInValue, plain]
          rw [writtenChars_other quote newline]
          exact .single (step_kept same own)
      obtain ⟨r, rest⟩ : ∃ r, Reaches (step whiteInValue) (.text (out ++ [c]) false)
          (writtenChars ending cs) (.text (out ++ [c] ++ cs) r) :=
        ih fun d member => kept d (List.mem_cons_of_mem c member)
      rw [List.append_assoc] at rest
      rw [writtenChars_cons]
      exact ⟨r, first.append rest⟩

theorem not_isBreak_whiteInValue (c : Char) : isBreak (whiteInValue c) = false := by
  unfold whiteInValue
  by_cases h : isBreak c
  · rw [if_pos h]
    decide
  · rw [if_neg h]
    exact eq_false_of_ne_true h

/-- A line break is decoded to a blank, or it belongs to a carriage return in front of it. -/
theorem of_reaches_newline {t : Decoder}
    (reaches : Reaches (step whiteInValue) (.text out returned) (writtenChars ending ['\n']) t) :
    t = .text (out ++ [' ']) false ∨ t = .text out false := by
  rw [writtenChars_newline] at reaches
  cases ending with
  | lf =>
      cases returned with
      | false =>
          have moved : Reaches (step whiteInValue) (.text out false) ['\n']
              (.text (out ++ [' ']) false) := .single rfl
          exact .inl (reaches.unique moved)
      | true =>
          have moved : Reaches (step whiteInValue) (.text out true) ['\n'] (.text out false) :=
            .single rfl
          exact .inr (reaches.unique moved)
  | crlf =>
      have moved : Reaches (step whiteInValue) (.text out returned) ['\r', '\n']
          (.text (out ++ [' ']) false) := .cons rfl (.single rfl)
      exact .inl (reaches.unique moved)

/-- Any other character than an ampersand adds itself, or a blank, or nothing. -/
theorem of_reaches_text {t : Decoder} (other : c ≠ '&')
    (reaches : Reaches (step whiteInValue) (.text out returned) (writtenChars ending [c]) t) :
    ∃ more r, t = .text (out ++ more) r ∧ more.length ≤ 1 ∧ (∀ d ∈ more, isBreak d = false) ∧
      isCharacter c ∧ c ≠ '<' := by
  -- the only character that is escaped, a line break and any other are told apart
  by_cases quote : c = '"'
  · subst quote
    rw [writtenChars_quote] at reaches
    exact ⟨['"'], false, reaches.unique reaches_quote, Nat.le_refl 1,
      List.forall_mem_singleton.mpr rfl, rfl, by decide⟩
  · by_cases newline : c = '\n'
    · subst newline
      rcases of_reaches_newline reaches with blank | nothing
      · exact ⟨[' '], false, blank, Nat.le_refl 1, List.forall_mem_singleton.mpr rfl, rfl,
          by decide⟩
      · rw [← List.append_nil out] at nothing
        exact ⟨[], false, nothing, Nat.zero_le 1, List.forall_mem_nil _, rfl, by decide⟩
    · rw [writtenChars_other quote newline] at reaches
      have moved := reaches.of_single
      rw [step, if_neg other] at moved
      by_cases refused : c = '<' ∨ isCharacter c = false
      · rw [if_pos refused] at moved
        exact absurd moved (by simp)
      · rw [if_neg refused, if_neg fun both => newline both.1] at moved
        rw [not_or, Bool.not_eq_false] at refused
        refine ⟨[whiteInValue c], decide (c = '\r'), (Option.some.inj moved).symm, Nat.le_refl 1,
          ?_, refused.2, refused.1⟩
        intro d member
        rw [List.mem_singleton.mp member]
        exact not_isBreak_whiteInValue c

theorem writtenChars_eq_concat (ending : LineEnding) (c : Char) :
    ∃ cs d, writtenChars ending [c] = cs ++ [d] ∧ ';' ∉ cs := by
  by_cases quote : c = '"'
  · subst quote
    exact ⟨['&', 'q', 'u', 'o', 't'], ';', writtenChars_quote, by decide⟩
  · by_cases newline : c = '\n'
    · subst newline
      cases ending with
      | lf => exact ⟨[], '\n', writtenChars_newline, by decide⟩
      | crlf => exact ⟨['\r'], '\n', writtenChars_newline, by decide⟩
    · exact ⟨[], c, writtenChars_other quote newline, List.not_mem_nil⟩

/-- A character behind an ampersand is part of a reference, or it ends it. -/
theorem of_reaches_reference {t : Decoder}
    (reaches : Reaches (step white) (.reference out seen) (writtenChars ending [c]) t) :
    (∃ seen', t = .reference out seen') ∨ ∃ d, t = .text (out ++ [d]) false := by
  obtain ⟨cs, d, written, inside⟩ := writtenChars_eq_concat ending c
  have run : Reaches (step white) (.reference out seen) cs (.reference out (seen ++ cs)) := by
    refine Reaches.run (fun seen => Decoder.reference out seen)
      (fun seen c (other : c ≠ ';') => if_neg other) (fun c member => ?_) seen
    rintro rfl
    exact inside member
  rw [written] at reaches
  obtain ⟨u, first, last⟩ := reaches.of_append
  cases first.unique run
  have moved := last.of_single
  unfold step at moved
  by_cases ends : d = ';'
  · simp only [if_pos ends] at moved
    obtain ⟨e, -, rfl⟩ := Option.map_eq_some_iff.mp moved
    exact .inr ⟨e, rfl⟩
  · simp only [if_neg ends] at moved
    exact .inl ⟨_, (Option.some.inj moved).symm⟩

/-! ## A value with an ampersand becomes shorter -/

/-- Of some characters of a value no more have been decoded, and fewer if there was an ampersand
among them or if a reference has been begun. -/
def Counts (read : List Char) : Decoder → Prop
  | .text out _ => out.length ≤ read.length ∧ ('&' ∈ read → out.length < read.length)
  | .reference out _ => out.length < read.length

/-- One more character of a value is at most one more that is decoded, and none if it is an
ampersand. -/
theorem Counts.step {read : List Char} {s t : Decoder} (counts : Counts read s)
    (reaches : Reaches (step whiteInValue) s (writtenChars ending [c]) t) :
    Counts (read ++ [c]) t := by
  have longer : (read ++ [c]).length = read.length + 1 := List.length_append
  cases s with
  | text out returned =>
      obtain ⟨length, fewer⟩ := counts
      by_cases amp : c = '&'
      · subst amp
        rw [writtenChars_other (by decide) (by decide)] at reaches
        cases reaches.of_single
        show out.length < (read ++ ['&']).length
        omega
      · obtain ⟨more, r, rfl, short, -⟩ := of_reaches_text amp reaches
        have both : (out ++ more).length = out.length + more.length := List.length_append
        refine ⟨by omega, fun member => ?_⟩
        have before : '&' ∈ read := by simpa [Ne.symm amp] using member
        have := fewer before
        omega
  | reference out seen =>
      -- a reference yields one character for all that were read in it
      have begun : out.length < read.length := counts
      rcases of_reaches_reference reaches with ⟨seen', rfl⟩ | ⟨d, rfl⟩
      · show out.length < (read ++ [c]).length
        omega
      · have one : (out ++ [d]).length = out.length + 1 := List.length_append
        exact ⟨by omega, fun _ => by omega⟩

theorem Counts.run {cs read : List Char} {s t : Decoder} (counts : Counts read s)
    (reaches : Reaches (Decoder.step whiteInValue) s (writtenChars ending cs) t) :
    Counts (read ++ cs) t := by
  induction cs generalizing read s with
  | nil =>
      cases Option.some.inj reaches
      rwa [List.append_nil]
  | cons c cs ih =>
      rw [writtenChars_cons] at reaches
      obtain ⟨u, first, rest⟩ := reaches.of_append
      have whole := ih (counts.step first) rest
      rwa [List.append_assoc] at whole

/-- Without ampersands all characters may be in a value, and what is decoded has no breaks. -/
theorem of_reaches_without_amp {cs : List Char} {t : Decoder} (without : '&' ∉ cs)
    (reaches : Reaches (step whiteInValue) (.text out returned) (writtenChars ending cs) t) :
    ∃ more r, t = .text (out ++ more) r ∧ (∀ d ∈ more, isBreak d = false) ∧
      ∀ c ∈ cs, isCharacter c ∧ c ≠ '<' := by
  induction cs generalizing out returned with
  | nil =>
      cases Option.some.inj reaches
      refine ⟨[], returned, by rw [List.append_nil], ?_, ?_⟩ <;>
        exact fun _ member => absurd member List.not_mem_nil
  | cons c cs ih =>
      rw [List.mem_cons, not_or] at without
      rw [writtenChars_cons] at reaches
      obtain ⟨u, first, rest⟩ := reaches.of_append
      obtain ⟨more, r, rfl, -, plain, character⟩ := of_reaches_text (Ne.symm without.1) first
      obtain ⟨more', r', rfl, plain', characters⟩ := ih without.2 rest
      refine ⟨more ++ more', r', by rw [List.append_assoc], ?_, ?_⟩
      · exact List.forall_mem_append.mpr ⟨plain, plain'⟩
      · exact List.forall_mem_cons.mpr ⟨character, characters⟩

end Decoder

/-- A value is decoded to what was written if it keeps all of its characters: if each may be in
a document and none is an ampersand, an opening bracket, or white space other than the blank. -/
theorem decode_writtenChars_iff (ending : LineEnding) (cs : List Char) :
    decode whiteInValue (writtenChars ending cs) = some cs ↔ ∀ c ∈ cs, isKept c := by
  constructor
  · intro decoded
    obtain ⟨t, reaches, last⟩ := Option.bind_eq_some_iff.mp decoded
    have begun : Decoder.Counts [] (.text [] false) :=
      ⟨Nat.le_refl 0, fun amp => absurd amp List.not_mem_nil⟩
    have counts : Decoder.Counts cs t := begun.run reaches
    cases t with
    | reference out seen => exact absurd last (by simp [Decoder.result])
    | text out returned =>
        obtain rfl : out = cs := Option.some.inj last
        -- an ampersand leaves less than was read, so that none was in it
        have without : '&' ∉ out := fun amp => Nat.lt_irrefl _ (counts.2 amp)
        obtain ⟨more, r, same, plain, characters⟩ := Decoder.of_reaches_without_amp without reaches
        obtain rfl : out = more := by cases same; rfl
        intro c member
        obtain ⟨character, bracket⟩ := characters c member
        have amp : c ≠ '&' := by
          rintro rfl
          exact without member
        simp [isKept, character, plain c member, amp, bracket]
  · intro kept
    obtain ⟨r, reaches⟩ : ∃ r, Reaches (Decoder.step whiteInValue) (.text [] false)
        (writtenChars ending cs) (.text cs r) := Decoder.reaches_kept kept
    unfold decode
    rw [reaches]
    rfl

end PictureMarkup.Markup
