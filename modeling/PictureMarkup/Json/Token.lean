import PictureMarkup.Json.Basic

/-!
# JSON tokens

A text is cut into tokens one character at a time. Brackets, commas and colons stand
for themselves. A run of letters, digits, signs and points is a word, and a word is a
number, `null`, `true` or `false`. A string ends at the next quote that no backslash
precedes and holds no control characters.
-/

namespace PictureMarkup.Json

/-- A part of a string: a character, or a unit written as four hexadecimal digits. -/
inductive Piece where
  | char (c : Char)
  | unit (n : Nat)

namespace Piece

/-- The first half of a surrogate pair. -/
def isHigh (n : Nat) : Bool := 0xd800 ≤ n && n < 0xdc00

/-- The second half of a surrogate pair. -/
def isLow (n : Nat) : Bool := 0xdc00 ≤ n && n < 0xe000

/-- The character that a surrogate pair denotes. -/
def pairChar (high low : Nat) : Char :=
  Char.ofNat (0x10000 + (high - 0xd800) * 0x400 + (low - 0xdc00))

/-- The characters that pieces denote, nothing if half of a pair stands alone. -/
def chars? : List Piece → Option (List Char)
  | [] => some []
  | .char c :: rest => (chars? rest).map (c :: ·)
  | .unit n :: rest =>
    if isLow n then none
    else if isHigh n then
      match rest with
      | .unit m :: rest => if isLow m then (chars? rest).map (pairChar n m :: ·) else none
      | _ => none
    else (chars? rest).map (Char.ofNat n :: ·)

/-- The text that pieces denote. -/
def text? (ps : List Piece) : Option String := (chars? ps).map String.ofList

end Piece

/-- A token. -/
inductive Token where
  | openArray
  | closeArray
  | openObject
  | closeObject
  | comma
  | colon
  | null
  | bool (b : Bool)
  | number (n : Numeral)
  | string (text : Option String)

/-- Digits at the front of a word and what follows them. -/
def splitDigits (s : List Char) : List Nat × List Char :=
  ((s.takeWhile Char.isDigit).map fun c => c.toNat - 48, s.dropWhile Char.isDigit)

/-- The natural that digits write. -/
def digitsValue (ds : List Nat) : Nat := ds.foldl (fun n d => 10 * n + d) 0

/-- The exponent that ends a number. -/
def exponentOf : List Char → Option (Option Int)
  | [] => some none
  | e :: rest =>
    let signed (negative : Bool) (s : List Char) : Option (Option Int) :=
      match splitDigits s with
      | (d :: ds, []) =>
        let size : Int := digitsValue (d :: ds)
        some (some (if negative then -size else size))
      | _ => none
    if e = 'e' || e = 'E' then
      match rest with
      | '+' :: s => signed false s
      | '-' :: s => signed true s
      | s => signed false s
    else none

/-- The number that a word without its sign spells. The whole part is a single zero or
does not begin with one; a point has digits on both sides. -/
def unsignedNumeral (negative : Bool) (s : List Char) : Option Numeral :=
  match splitDigits s with
  | ([], _) => none
  | (0 :: _ :: _, _) => none
  | (whole, '.' :: rest) =>
    match splitDigits rest with
    | ([], _) => none
    | (fraction, rest) => (exponentOf rest).map fun e => ⟨negative, whole, some fraction, e⟩
  | (whole, rest) => (exponentOf rest).map fun e => ⟨negative, whole, none, e⟩

/-- The number that a word spells. -/
def numeralOf : List Char → Option Numeral
  | '-' :: s => unsignedNumeral true s
  | s => unsignedNumeral false s

/-- The token that a word is. -/
def wordToken (w : List Char) : Option Token :=
  if w = "null".toList then some .null
  else if w = "true".toList then some (.bool true)
  else if w = "false".toList then some (.bool false)
  else (numeralOf w).map .number

/-- The token that a character is by itself. -/
def markToken : Char → Option Token
  | '[' => some .openArray
  | ']' => some .closeArray
  | '\x7b' => some .openObject
  | '\x7d' => some .closeObject
  | ',' => some .comma
  | ':' => some .colon
  | _ => none

/-- Space, tab, line feed and carriage return. -/
def isBlank (c : Char) : Bool := c = ' ' || c = '\t' || c = '\n' || c = '\x0d'

/-- A character of a word. -/
def isWordChar (c : Char) : Bool := c.isAlphanum || c = '+' || c = '-' || c = '.'

/-- What is being read between two characters; collected parts begin with the last. -/
inductive Lexing where
  | between
  | word (read : List Char)
  | string (read : List Piece)
  | escape (read : List Piece)
  /-- Inside a unit, with the number of digits read and their value. -/
  | unit (read : List Piece) (count value : Nat)

/-- Begin something new with a character. -/
def beginToken (done : List Token) (c : Char) : Option (List Token × Lexing) :=
  if isBlank c then some (done, .between)
  else if c = '"' then some (done, .string [])
  else if isWordChar c then some (done, .word [c])
  else (markToken c).map fun t => (t :: done, .between)

/-- The character that a short escape denotes. -/
def shortEscape : Char → Option Char
  | '"' => some '"'
  | '\\' => some '\\'
  | '/' => some '/'
  | 'b' => some '\x08'
  | 'f' => some '\x0c'
  | 'n' => some '\n'
  | 'r' => some '\x0d'
  | 't' => some '\t'
  | _ => none

/-- The value of a hexadecimal digit. -/
def hexValue (c : Char) : Option Nat :=
  if '0' ≤ c ∧ c ≤ '9' then some (c.toNat - 48)
  else if 'a' ≤ c ∧ c ≤ 'f' then some (c.toNat - 87)
  else if 'A' ≤ c ∧ c ≤ 'F' then some (c.toNat - 55)
  else none

/-- Go on with a character. -/
def lexChar (done : List Token) (c : Char) : Lexing → Option (List Token × Lexing)
  | .between => beginToken done c
  | .word read =>
    if isWordChar c then some (done, .word (c :: read))
    else (wordToken read.reverse).bind fun t => beginToken (t :: done) c
  | .string read =>
    if c = '"' then some (.string (Piece.text? read.reverse) :: done, .between)
    else if c = '\\' then some (done, .escape read)
    else if c.toNat < 32 then none
    else some (done, .string (.char c :: read))
  | .escape read =>
    if c = 'u' then some (done, .unit read 0 0)
    else (shortEscape c).map fun d => (done, .string (.char d :: read))
  | .unit read count value =>
    (hexValue c).map fun d =>
      if count = 3 then (done, .string (.unit (16 * value + d) :: read))
      else (done, .unit read (count + 1) (16 * value + d))

/-- Go on to the end of the text. -/
def lexChars (done : List Token) (state : Lexing) : List Char → Option (List Token)
  | [] =>
    match state with
    | .between => some done.reverse
    | .word read => (wordToken read.reverse).map fun t => (t :: done).reverse
    | .string _ | .escape _ | .unit .. => none
  | c :: cs =>
    match lexChar done c state with
    | none => none
    | some (done, state) => lexChars done state cs

/-- The tokens of a text. -/
def tokens? (s : String) : Option (List Token) := lexChars [] .between s.toList

end PictureMarkup.Json
