/-!
# Path data, read

Path data is a sequence of commands. A letter names the command, and its case says
whether coordinates are absolute or relative to the current point; numbers follow,
separated by white space and at most one comma after each. Where the next command
begins with a number the previous command is repeated, except that moves repeat as
lines. Anything that can begin neither a command nor a number ends the path
without an error.

Reading stops at the first fault. A path must begin with a move, which is checked
before the numbers of its first command are looked at.
-/

namespace PictureMarkup.PathData

/-- Why path data cannot be read. -/
inductive Fault where
  /-- The first command is not a move. -/
  | uninitialized
  /-- The text ends where a number or a flag should begin. -/
  | unexpectedEnd
  /-- Something else stands where a number or a flag should be. -/
  | badNumber
  /-- No command has this letter. -/
  | unknownCommand (letter : Char)
  deriving DecidableEq

/-- The fault in words. -/
def Fault.message : Fault → String
  | .uninitialized => "Uninitialized path (missing moveto command)"
  | .unexpectedEnd => "Unexpected EOF"
  | .badNumber => "Unable to parse a number"
  | .unknownCommand letter => "Unknown command, \"" ++ letter.toString ++ "\""

/-- A decimal as it is spelled: `±digits · 10^exponent`. -/
structure Numeral where
  negative : Bool
  digits : Nat
  exponent : Int
  deriving DecidableEq

/-- A pair of numbers: a position or a distance. -/
structure Pair where
  x : Numeral
  y : Numeral
  deriving DecidableEq

/-- A command as it is spelled, with the case of its letter left out. -/
inductive Command where
  | move (p : Pair)
  | line (p : Pair)
  | horizontal (x : Numeral)
  | vertical (y : Numeral)
  | quad (control p : Pair)
  | smoothQuad (p : Pair)
  | cubic (control₁ control₂ p : Pair)
  | smoothCubic (control₂ p : Pair)
  | arc (radii : Pair) (rotation : Numeral) (large sweep : Bool) (p : Pair)
  | close
  deriving DecidableEq

/-- A step of a path: a command and whether it is relative to the current point. -/
structure Step where
  relative : Bool
  command : Command
  deriving DecidableEq

/-- A reader takes what it needs from the front of the text and leaves the rest. -/
abbrev Reader := StateT (List Char) (Except Fault)

/-- Space, tab, line feed, form feed and carriage return. -/
def isBlank (c : Char) : Bool :=
  c = ' ' || c = '\t' || c = '\n' || c = '\x0c' || c = '\x0d'

/-- Leave out white space. -/
def skipBlanks : Reader Unit := modify fun s => s.dropWhile isBlank

/-- Leave out white space and at most one comma after it. -/
def skipSeparator : Reader Unit := do
  skipBlanks
  match ← get with
  | ',' :: rest => set rest
  | _ => pure ()

/-- Take the digits at the front of the text. -/
def takeDigits : Reader (List Char) := do
  let s ← get
  set (s.dropWhile Char.isDigit)
  return s.takeWhile Char.isDigit

/-- Take one sign if there is one, and tell whether it is a minus. -/
def takeSign : Reader Bool := do
  match ← get with
  | '-' :: rest => set rest; return true
  | '+' :: rest => set rest; return false
  | _ => return false

/-- The natural written by decimal digits. -/
def natOfDigits (ds : List Char) : Nat := ds.foldl (fun n c => 10 * n + (c.toNat - 48)) 0

/-- The digits after a decimal point, if there is a point. -/
def takeFraction : Reader (List Char) := do
  match ← get with
  | '.' :: rest => set rest; takeDigits
  | _ => return []

/-- The exponent behind an `e` in either case, zero without one. -/
def takeExponent : Reader Int := do
  let signed : Reader Int := do
    let negative ← takeSign
    let digits ← takeDigits
    if digits.isEmpty then throw .badNumber
    let size : Int := natOfDigits digits
    return if negative then -size else size
  match ← get with
  | 'e' :: rest => set rest; signed
  | 'E' :: rest => set rest; signed
  | _ => return 0

/-- A number: an optional sign, digits with at most one point among them and at
least one digit, and an optional exponent. -/
def number : Reader Numeral := do
  skipBlanks
  if (← get).isEmpty then throw .unexpectedEnd
  let negative ← takeSign
  let whole ← takeDigits
  let fraction ← takeFraction
  let exponent ← takeExponent
  if whole.isEmpty && fraction.isEmpty then throw .badNumber
  return ⟨negative, natOfDigits (whole ++ fraction), exponent - fraction.length⟩

/-- A number and the separator after it. -/
def separated : Reader Numeral := do
  let x ← number
  skipSeparator
  return x

/-- Two numbers. -/
def pair : Reader Pair := do
  let x ← separated
  let y ← separated
  return ⟨x, y⟩

/-- A flag is a single digit, so no separator has to follow it. -/
def flag : Reader Bool := do
  skipBlanks
  match ← get with
  | [] => throw .unexpectedEnd
  | '0' :: rest => set rest; skipSeparator; return false
  | '1' :: rest => set rest; skipSeparator; return true
  | _ => throw .badNumber

/-- The numbers of the command with a letter, given in upper case. -/
def arguments (letter : Char) : Reader Command :=
  match letter with
  | 'M' => return .move (← pair)
  | 'L' => return .line (← pair)
  | 'H' => return .horizontal (← separated)
  | 'V' => return .vertical (← separated)
  | 'Q' => return .quad (← pair) (← pair)
  | 'T' => return .smoothQuad (← pair)
  | 'C' => return .cubic (← pair) (← pair) (← pair)
  | 'S' => return .smoothCubic (← pair) (← pair)
  | 'A' => do
    let radii ← pair
    let rotation ← separated
    let large ← flag
    let sweep ← flag
    return .arc radii rotation large sweep (← pair)
  | 'Z' => return .close
  | _ => throw (.unknownCommand letter)

/-- The letter of the next command: written out, or repeated in front of a number.
Nothing if the path ends here. -/
def nextLetter (repeated : Option Char) : Reader (Option Char) := do
  skipBlanks
  match ← get with
  | [] => return none
  | c :: rest =>
    if c.isAlpha then
      set rest
      return some c
    else if c = '-' || c = '.' || c.isDigit then return repeated
    else return none

/-- The letter that a number in place of a command stands for, after a command. -/
def repeatedAfter (letter : Char) (before : Option Char) : Option Char :=
  match letter with
  | 'M' => some 'L'
  | 'm' => some 'l'
  | 'Z' | 'z' => before
  | c => some c

/-- The command behind a letter; the letter in a fault is the one that was written. -/
def stepOf (letter : Char) : Reader Step := do
  let command ← tryCatch (arguments letter.toUpper) fun
    | .unknownCommand _ => throw (.unknownCommand letter)
    | fault => throw fault
  return ⟨letter.isLower, command⟩

/-- The steps from here on. Each takes at least one character, so the length of the
text bounds their number. -/
def steps : Nat → Bool → Option Char → Reader (List Step)
  | 0, _, _ => return []
  | fuel + 1, begun, repeated => do
    match ← nextLetter repeated with
    | none => return []
    | some letter =>
      if !begun && letter.toUpper ≠ 'M' then throw .uninitialized
      let step ← stepOf letter
      let rest ← steps fuel true (repeatedAfter letter repeated)
      return step :: rest

/-- Read path data. -/
def read (s : String) : Except Fault (List Step) :=
  (steps (s.toList.length + 1) false none).run' s.toList

end PictureMarkup.PathData
