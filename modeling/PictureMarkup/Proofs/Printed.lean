import PictureMarkup.Markup.Document
import PictureMarkup.Proofs.Numeral

/-!
# Values as they are printed

What markup keeps of the values of a drawing: each number by its text, a rectangle by its
left and top edge, its width and its height, a colour in full. Every value has a text of
one form, and a reader takes it apart again. The texts have few characters (`isPrinted`), none
of which means anything to the document around them.
-/

namespace PictureMarkup

/-! ## Colours -/

namespace Color

theorem hexValue?_hexDigit : ∀ n < 16, hexValue? (hexDigit n) = some n := by decide

/-- A byte is made of the two digits it is written with. -/
theorem byteOfDigits_toNat (b : UInt8) : byteOfDigits (b.toNat / 16) (b.toNat % 16) = b := by
  rw [byteOfDigits, Nat.div_add_mod, UInt8.ofNat_toNat]

/-- The digits of a byte are read before those behind it. -/
theorem mapM_hexByte (b : UInt8) (rest : List Char) (values : List Nat)
    (h : rest.mapM hexValue? = some values) :
    (hexByte b ++ rest).mapM hexValue? = some (b.toNat / 16 :: b.toNat % 16 :: values) := by
  have high := hexValue?_hexDigit (b.toNat / 16) (by have := b.toNat_lt; omega)
  have low := hexValue?_hexDigit (b.toNat % 16) (Nat.mod_lt _ (by decide))
  rw [hexByte, List.cons_append, List.cons_append, List.nil_append, List.mapM_cons,
    List.mapM_cons, high, low, h]
  rfl

/-- The written form of a colour is read back. -/
theorem parse?_text (c : Color) : parse? c.text = some c := by
  have digits := mapM_hexByte c.alpha _ _ (mapM_hexByte c.red _ _
    (mapM_hexByte c.green _ _ (mapM_hexByte c.blue [] [] rfl)))
  rw [List.append_nil, ← List.append_assoc, ← List.append_assoc] at digits
  unfold parse? text
  rw [String.toList_ofList]
  simp only [digits, Option.bind_some, ofDigits?, byteOfDigits_toNat]

end Color

/-! ## Lists of numbers -/

namespace Number

/-- A list of numbers is printed as its numerals with commas between them. -/
theorem toList_list (xs : List Float) :
    (list xs).toList = Numeral.listChars ',' (xs.map .single) := by
  rw [list, String.toList_intercalate, Numeral.listChars, List.map_map, List.map_map]
  rfl

/-- The numbers of a list. -/
def readList? (s : String) : Option (List Numeral) := Numeral.readList? ',' s.toList

/-- A list of numbers is read back as its numerals. -/
@[simp] theorem readList?_list (xs : List Float) :
    readList? (list xs) = some (xs.map .single) := by
  rw [readList?, toList_list]
  exact Numeral.readList?_listChars (by decide) _

/-- A single number. -/
def read? (s : String) : Option Numeral := Numeral.read? s.toList

/-- A number in single precision is read back as its numeral. -/
@[simp] theorem read?_single (x : Float) : read? (single x) = some (.single x) :=
  Numeral.read?_chars (.single x)

@[simp] theorem read?_double (x : Float) : read? (double x) = some (.double x) :=
  Numeral.read?_chars (.double x)

end Number

/-- A point as it is printed, in single precision. -/
def Point.printed (p : Point Float) : Point Numeral := ⟨.single p.x, .single p.y⟩

/-- Two numbers make a point. -/
def Point.read? (s : String) : Option (Point Numeral) :=
  match Number.readList? s with
  | some [x, y] => some ⟨x, y⟩
  | _ => none

@[simp] theorem Point.read?_point (p : Point Float) : read? (Number.point p) = some p.printed := by
  rw [read?, Number.point, Number.readList?_list]
  rfl

/-- A matrix as it is printed, in single precision. -/
def Affine.printed (m : Affine Float) : Affine Numeral :=
  ⟨.single m.a, .single m.b, .single m.c, .single m.d, .single m.e, .single m.f⟩

/-- Six numbers make a matrix. -/
def Affine.read? (s : String) : Option (Affine Numeral) :=
  match Number.readList? s with
  | some [a, b, c, d, e, f] => some ⟨a, b, c, d, e, f⟩
  | _ => none

/-- The six numbers of a matrix are read back in their order. -/
@[simp] theorem Affine.read?_matrix (m : Affine Float) :
    read? (Number.matrix m) = some m.printed := by
  rw [read?, Number.matrix, Number.readList?_list]
  rfl

/-- A rectangle as it is printed. -/
structure Box where
  left : Numeral
  top : Numeral
  width : Numeral
  height : Numeral
  deriving DecidableEq

/-- A rectangle as it is printed: its corner and its size. -/
def Rect.printed (r : Rect Float) : Box :=
  ⟨.single r.x0, .single r.y0, .single r.width, .single r.height⟩

/-- Four numbers make a rectangle. -/
def Box.read? (s : String) : Option Box :=
  match Number.readList? s with
  | some [left, top, width, height] => some ⟨left, top, width, height⟩
  | _ => none

/-- A rectangle is read back as its corner and its size. -/
@[simp] theorem Box.read?_rect (r : Rect Float) : read? (Number.rect r) = some r.printed := by
  rw [read?, Number.rect, Number.readList?_list]
  rfl

/-- A dash pattern as it is printed. -/
def DashStyle.printed (d : DashStyle Float) : DashStyle Numeral :=
  ⟨d.dashes.map .single, .single d.offset⟩

/-- A stop as it is printed. -/
def GradientStop.printed (s : GradientStop Float) : GradientStop Numeral :=
  ⟨.single s.offset, s.color⟩

/-- A linear gradient as it is printed. -/
def LinearGradient.printed (g : LinearGradient Float) : LinearGradient Numeral where
  start := g.start.printed
  finish := g.finish.printed
  spread := g.spread
  transform := g.transform.map Affine.printed
  stops := g.stops.map GradientStop.printed

/-- A radial gradient as it is printed. -/
def RadialGradient.printed (g : RadialGradient Float) : RadialGradient Numeral where
  center := g.center.printed
  origin := g.origin.printed
  radius := .single g.radius
  spread := g.spread
  transform := g.transform.map Affine.printed
  stops := g.stops.map GradientStop.printed

/-! ## Paths -/

/-- A movement of the pen as it is printed. -/
def PathElement.printed : PathElement Float → PathElement Numeral
  | .moveTo p => .moveTo p.printed
  | .lineTo p => .lineTo p.printed
  | .quadTo c p => .quadTo c.printed p.printed
  | .curveTo c₁ c₂ p => .curveTo c₁.printed c₂.printed p.printed
  | .close => .close

/-- A path as it is printed. -/
def Path.printed (p : Path Float) : Path Numeral :=
  ⟨p.elements.map PathElement.printed, p.fillRule⟩

namespace Path

/-- The letter of a command of path data. -/
def isLetter (c : Char) : Bool := c == 'M' || c == 'L' || c == 'Q' || c == 'C' || c == 'Z'

/-- What stands in front of the first letter, and each letter with what follows it. -/
def chunks : List Char → List Char × List (Char × List Char)
  | [] => ([], [])
  | c :: cs =>
    if isLetter c then ([], (c, (chunks cs).1) :: (chunks cs).2)
    else (c :: (chunks cs).1, (chunks cs).2)

/-- An element from its letter and numbers. -/
def elementOf? : Char × List Char → Option (PathElement Numeral)
  | (letter, cs) =>
    match letter, Numeral.readList? ' ' cs with
    | 'M', some [x, y] => some (.moveTo ⟨x, y⟩)
    | 'L', some [x, y] => some (.lineTo ⟨x, y⟩)
    | 'Q', some [x₁, y₁, x, y] => some (.quadTo ⟨x₁, y₁⟩ ⟨x, y⟩)
    | 'C', some [x₁, y₁, x₂, y₂, x, y] => some (.curveTo ⟨x₁, y₁⟩ ⟨x₂, y₂⟩ ⟨x, y⟩)
    | 'Z', some [] => some .close
    | _, _ => none

/-- Path data is commands with their numbers, with nothing in front of the first. -/
def elements? (cs : List Char) : Option (List (PathElement Numeral)) :=
  match chunks cs with
  | ([], parts) => parts.mapM elementOf?
  | _ => none

/-- Read path data. -/
def read? (s : String) : Option (Path Numeral) :=
  match s.toList with
  | 'F' :: '0' :: ' ' :: cs => (elements? cs).map (⟨·, .evenOdd⟩)
  | 'F' :: '1' :: ' ' :: cs => (elements? cs).map (⟨·, .nonZero⟩)
  | _ => none

/-- What comes in front of the first letter is not part of a command. -/
theorem chunks_append {cs : List Char} (none : ∀ c ∈ cs, ¬isLetter c) (rest : List Char) :
    chunks (cs ++ rest) = (cs ++ (chunks rest).1, (chunks rest).2) := by
  induction cs with
  | nil => rfl
  | cons c cs ih =>
      rw [List.cons_append, chunks, if_neg (none c List.mem_cons_self),
        ih fun d member => none d (List.mem_cons_of_mem c member)]
      rfl

/-- Numbers with blanks between them hold no letter of a command. -/
theorem not_isLetter_of_mem {ns : List Numeral} : ∀ c ∈ Numeral.listChars ' ' ns, ¬isLetter c := by
  intro c member letter
  simp only [isLetter, Bool.or_eq_true, beq_iff_eq] at letter
  have number := Numeral.mem_listChars c member
  rcases letter with (((rfl | rfl) | rfl) | rfl) | rfl <;> revert number <;> decide

end Path

namespace PathElement

/-- The letter of a movement of the pen. -/
def letterChar {α : Type} : PathElement α → Char
  | .moveTo _ => 'M'
  | .lineTo _ => 'L'
  | .quadTo .. => 'Q'
  | .curveTo .. => 'C'
  | .close => 'Z'

/-- The numbers of an element in the order in which they are written. -/
def numbers (e : PathElement Float) : List Numeral :=
  e.points.flatMap fun p => [.single p.x, .single p.y]

/-- The numbers of a printed element, in the same order. -/
def numerals (e : PathElement Numeral) : List Numeral := e.points.flatMap fun p => [p.x, p.y]

/-- The letter of a printed element and what follows it. -/
def part (e : PathElement Numeral) : Char × List Char :=
  (e.letterChar, Numeral.listChars ' ' e.numerals)

/-- The text of a printed element. -/
def spelling (e : PathElement Numeral) : List Char := e.part.1 :: e.part.2

theorem isLetter_letterChar {α : Type} (e : PathElement α) : Path.isLetter e.letterChar := by
  cases e <;> rfl

/-- A movement is printed as its letter and its numbers. -/
theorem toList_text (e : PathElement Float) :
    e.text.toList = e.letterChar :: Numeral.listChars ' ' e.numbers := by
  cases e <;>
    simp [text, letter, points, Point.pathText, numbers, letterChar, Numeral.listChars,
      Numeral.chars, Numeral.single]

/-- The spelling of a printed movement is its text. -/
theorem spelling_printed (e : PathElement Float) : e.printed.spelling = e.text.toList := by
  rw [toList_text]
  cases e <;> rfl

/-- A movement is read back from its letter and the spelling of its numbers. -/
theorem elementOf?_part (e : PathElement Numeral) : Path.elementOf? e.part = some e := by
  have read : Numeral.readList? ' ' (Numeral.listChars ' ' e.numerals) = some e.numerals :=
    Numeral.readList?_listChars (by decide) e.numerals
  cases e <;> simp only [Path.elementOf?, part, letterChar, read] <;> rfl

end PathElement

namespace Path

/-- The text of a printed path. -/
def spelling (p : Path Numeral) : List Char :=
  p.fillRule.token.toList ++ ' ' :: p.elements.flatMap PathElement.spelling

/-- The data of a path falls into its movements at the letters. -/
theorem chunks_spelling (es : List (PathElement Numeral)) :
    chunks (es.flatMap PathElement.spelling) = ([], es.map PathElement.part) := by
  induction es with
  | nil => rfl
  | cons e es ih =>
      rw [List.flatMap_cons, PathElement.spelling, PathElement.part, List.cons_append, chunks,
        if_pos e.isLetter_letterChar, chunks_append not_isLetter_of_mem, ih, List.append_nil]
      rfl

theorem elements?_spelling (es : List (PathElement Numeral)) :
    elements? (es.flatMap PathElement.spelling) = some es := by
  rw [elements?, chunks_spelling]
  show (es.map _).mapM elementOf? = _
  rw [mapM_map PathElement.elementOf?_part, List.map_id']

/-- A path is printed as the token of its rule and the texts of its movements. -/
theorem toList_text (p : Path Float) :
    p.text.toList =
      p.fillRule.token.toList ++ ' ' :: p.elements.flatMap fun e => e.text.toList := by
  rw [text, String.toList_append, String.toList_append, String.toList_join, List.flatMap_map,
    List.append_assoc]
  rfl

theorem spelling_printed (p : Path Float) : p.printed.spelling = p.text.toList := by
  have elements : (p.elements.map PathElement.printed).flatMap PathElement.spelling =
      p.elements.flatMap fun e => e.text.toList := by
    rw [List.flatMap_map]
    exact congrArg (p.elements.flatMap ·) (funext PathElement.spelling_printed)
  rw [toList_text, ← elements]
  rfl

theorem token_evenOdd : FillRule.evenOdd.token.toList = ['F', '0'] := by decide

theorem token_nonZero : FillRule.nonZero.token.toList = ['F', '1'] := by decide

/-- A printed path is read from its text. -/
theorem read?_of_spelling {s : String} {p : Path Numeral} (h : s.toList = p.spelling) :
    read? s = some p := by
  obtain ⟨es, rule⟩ := p
  unfold read?
  rw [h, spelling]
  cases rule with
  | evenOdd =>
      rw [token_evenOdd]
      show (elements? (es.flatMap PathElement.spelling)).map (Path.mk · .evenOdd) = _
      rw [elements?_spelling]
      rfl
  | nonZero =>
      rw [token_nonZero]
      show (elements? (es.flatMap PathElement.spelling)).map (Path.mk · .nonZero) = _
      rw [elements?_spelling]
      rfl

/-- Path data is read back. -/
@[simp] theorem read?_text (p : Path Float) : read? p.text = some p.printed :=
  read?_of_spelling p.spelling_printed.symm

end Path

/-! ## Printed characters -/

/-- The characters in the texts of values. -/
def isPrinted (c : Char) : Bool :=
  c.isAlphanum || c == ',' || c == '.' || c == '-' || c == '#' || c == ' '

/-- A character is no other that is never printed. -/
theorem ne_of_isPrinted {c d : Char} (printed : isPrinted c) (other : isPrinted d = false) :
    c ≠ d := by
  rintro rfl
  exact Bool.false_ne_true (other.symm.trans printed)

theorem isPrinted_of_isDigit {c : Char} (digit : c.isDigit) : isPrinted c := by
  simp [isPrinted, Char.isAlphanum, digit]

/-- Numerals and what separates them are printed characters. -/
theorem Numeral.isPrinted_listChars {separator : Char} (own : isPrinted separator)
    (ns : List Numeral) : ∀ c ∈ listChars separator ns, isPrinted c := by
  intro c member
  rcases mem_listChars c member with rfl | digit | rfl | rfl
  · exact own
  · exact isPrinted_of_isDigit digit
  · decide
  · decide

/-- A colour is a hash sign and digits. -/
theorem Color.isPrinted_text (c : Color) : ∀ d ∈ c.text.toList, isPrinted d := by
  have digit : ∀ n < 16, isPrinted (hexDigit n) := by decide
  have byte : ∀ b : UInt8, ∀ d ∈ hexByte b, isPrinted d := by
    intro b d member
    have bound := b.toNat_lt
    rcases List.mem_cons.mp member with rfl | member
    · exact digit _ (by omega)
    · rw [List.mem_singleton.mp member]
      exact digit _ (Nat.mod_lt _ (by decide))
  intro d member
  rw [text, String.toList_ofList, List.mem_cons, List.mem_append, List.mem_append,
    List.mem_append] at member
  rcases member with rfl | ((alpha | red) | green) | blue
  · decide
  · exact byte _ d alpha
  · exact byte _ d red
  · exact byte _ d green
  · exact byte _ d blue

theorem PathElement.isPrinted_text (e : PathElement Float) : ∀ c ∈ e.text.toList, isPrinted c := by
  intro c member
  rw [e.toList_text] at member
  rcases List.mem_cons.mp member with rfl | number
  · cases e <;> (rw [letterChar]; decide)
  · exact Numeral.isPrinted_listChars (by decide) _ c number

/-- A path is a rule, letters, numbers and blanks. -/
theorem Path.isPrinted_text (p : Path Float) : ∀ c ∈ p.text.toList, isPrinted c := by
  intro c member
  rw [p.toList_text, List.mem_append, List.mem_cons] at member
  rcases member with token | rfl | element
  · have printed : ∀ rule : FillRule, ∀ c ∈ rule.token.toList, isPrinted c := by
      intro rule
      exact List.all_eq_true.mp (by cases rule <;> decide)
    exact printed _ c token
  · decide
  · obtain ⟨e, -, inside⟩ := List.mem_flatMap.mp element
    exact e.isPrinted_text c inside

end PictureMarkup
