import PictureMarkup.Options

/-!
# Arguments

What stands on the command line: paths of inputs, flags, and options with a value.
A long option takes its value after an equals sign or as the next argument, the
short one also without anything in between. A value that is an argument of its own
must not look like an option, and nothing may be given twice. After two dashes
everything is an input.

Asking for the version or for help ends the reading of the arguments at once;
everything before it has to be in order. Whether the arguments go together is
looked at last.
-/

namespace PictureMarkup.CommandLine

/-- An option without a value. -/
inductive Flag where
  | styles
  | preview
  | drawingGroup
  | brushTransform
  | ignoreOpacity
  | ignoreClips
  | ignoreMask
  | transparentBackground
  | crlf
  | singleLine
  deriving DecidableEq

/-- The flags by their names. -/
def flags : List (String × Flag) :=
  [("styles", .styles), ("preview", .preview), ("drawing-group", .drawingGroup),
    ("brush-transform", .brushTransform), ("ignore-opacity", .ignoreOpacity),
    ("ignore-clip-path", .ignoreClips), ("ignore-mask", .ignoreMask),
    ("transparent-background", .transparentBackground), ("crlf", .crlf),
    ("single-line", .singleLine)]

/-- An option with a value. -/
inductive Valued where
  | output
  | key
  | indent
  deriving DecidableEq

/-- The options with values by their names. -/
def valuedOptions : List (String × Valued) :=
  [("output", .output), ("key", .key), ("indent", .indent)]

/-- The arguments as they are understood. -/
structure Arguments where
  inputs : List String := []
  flags : List Flag := []
  output : Option String := none
  key : Option String := none
  indent : Option Nat := none
  deriving DecidableEq

/-- Why no arguments come out. -/
inductive Stop where
  | version
  | help
  /-- The arguments are not acceptable. -/
  | usage
  deriving DecidableEq

/-- One more than the largest indentation that is accepted. -/
def indentBound : Nat := Nat.pow 2 64

/-- A natural number in digits, perhaps behind a plus sign. -/
def natural? (value : String) : Option Nat :=
  let digits :=
    match value.toList with
    | '+' :: r => r
    | r => r
  if digits ≠ [] && digits.all Char.isDigit then
    let n := digits.foldl (fun n c => 10 * n + (c.toNat - '0'.toNat)) 0
    if n < indentBound then some n else none
  else none

namespace Arguments

/-- A flag was given. -/
def has (a : Arguments) (f : Flag) : Bool := a.flags.contains f

/-- Take another input, which must not be empty. -/
def addInput (a : Arguments) (path : String) : Except Stop Arguments :=
  if path = "" then .error .usage else .ok { a with inputs := a.inputs ++ [path] }

/-- Take a flag, once. -/
def addFlag (a : Arguments) (f : Flag) : Except Stop Arguments :=
  if a.has f then .error .usage else .ok { a with flags := a.flags ++ [f] }

/-- Take the value of an option, once. -/
def addValue (a : Arguments) (option : Valued) (value : String) : Except Stop Arguments :=
  match option with
  | .output =>
    if a.output.isSome || value = "" then .error .usage else .ok { a with output := some value }
  | .key => if a.key.isSome then .error .usage else .ok { a with key := some value }
  | .indent =>
    match natural? value with
    | none => .error .usage
    | some n => if a.indent.isSome then .error .usage else .ok { a with indent := some n }

/-- The arguments go together: there is an input, a styles document takes no key, and
one line has no indentation. The gallery asks for a styles document, unless a key
already rules that out: then it has no effect. -/
def isConsistent (a : Arguments) : Bool :=
  !a.inputs.isEmpty && (!a.has .preview || a.has .styles || a.key.isSome) &&
    !(a.key.isSome && a.has .styles) && !(a.has .singleLine && a.indent.isSome)

/-- The conversion settings that the arguments ask for. -/
def options (a : Arguments) : Options where
  generateImage := !a.has .drawingGroup
  brushTransform := a.has .brushTransform
  ignoreOpacity := a.has .ignoreOpacity
  ignoreClips := a.has .ignoreClips
  ignoreMask := a.has .ignoreMask
  transparentBackground := a.has .transparentBackground
  lineEnding := if a.has .crlf then .crlf else .lf
  indent := if a.has .singleLine then none else some (a.indent.getD 2)

end Arguments

/-- What the next argument is to be read as. -/
inductive Awaited where
  | anything
  | value (option : Valued)
  | input
  deriving DecidableEq

/-- The arguments so far and what comes next. -/
structure Progress where
  arguments : Arguments := {}
  awaited : Awaited := .anything

namespace Progress

/-- Go on with a flag. -/
def flag (p : Progress) (f : Flag) : Except Stop Progress := do
  return { p with arguments := ← p.arguments.addFlag f }

/-- Go on with the value of an option. -/
def value (p : Progress) (option : Valued) (v : String) : Except Stop Progress := do
  return { arguments := ← p.arguments.addValue option v, awaited := .anything }

/-- Go on with an input. -/
def input (p : Progress) (path : String) : Except Stop Progress := do
  return { p with arguments := ← p.arguments.addInput path }

/-- Read a long option, given by its name and what follows an equals sign. -/
def long (p : Progress) (name : String) (attached : Option String) : Except Stop Progress :=
  match valuedOptions.lookup name, attached with
  | some option, some v => p.value option v
  | some option, none => .ok { p with awaited := .value option }
  | none, some _ => .error .usage
  | none, none =>
    match flags.lookup name with
    | some f => p.flag f
    | none =>
      if name = "version" then .error .version
      else if name = "help" then .error .help
      else .error .usage

/-- Read a short option, given by its letter and what follows. -/
def short (p : Progress) (letter : Char) (attached : List Char) : Except Stop Progress :=
  if letter = 'o' then
    match attached with
    | [] => .ok { p with awaited := .value .output }
    | '=' :: v => p.value .output (String.ofList v)
    | v => p.value .output (String.ofList v)
  else if letter = 'V' then .error .version
  else if letter = 'h' then .error .help
  else .error .usage

/-- Read an argument that is neither a value nor known to be an input. -/
def argument (p : Progress) (arg : String) : Except Stop Progress :=
  match arg.toList with
  | ['-', '-'] => .ok { p with awaited := .input }
  | '-' :: '-' :: r =>
    match r.dropWhile (· ≠ '=') with
    | [] => p.long (String.ofList r) none
    | _ :: v => p.long (String.ofList (r.takeWhile (· ≠ '='))) (some (String.ofList v))
  | '-' :: letter :: attached => p.short letter attached
  | _ => p.input arg

/-- An argument that cannot be the value of an option before it. -/
def looksLikeOption (arg : String) : Bool :=
  match arg.toList with
  | '-' :: _ :: _ => true
  | _ => false

/-- Read the next argument. -/
def step (p : Progress) (arg : String) : Except Stop Progress :=
  match p.awaited with
  | .anything => p.argument arg
  | .value option => if looksLikeOption arg then .error .usage else p.value option arg
  | .input => p.input arg

/-- Look at the arguments as a whole. -/
def finish (p : Progress) : Except Stop Arguments :=
  match p.awaited with
  | .value _ => .error .usage
  | .anything | .input =>
    if p.arguments.isConsistent then .ok p.arguments else .error .usage

end Progress

/-- Read all arguments. -/
def Arguments.parse (args : List String) : Except Stop Arguments := do
  let p ← args.foldlM Progress.step {}
  p.finish

end PictureMarkup.CommandLine
