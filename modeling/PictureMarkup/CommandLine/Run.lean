import PictureMarkup.CommandLine.Arguments
import PictureMarkup.CommandLine.FileSystem
import PictureMarkup.Conversion
import PictureMarkup.Styles
import PictureMarkup.Written.Json

/-!
# Runs

A run converts pictures from files. A single input becomes one document, printed or
written to a file. Several inputs become a document each, beside the input or in a
directory, or all together one styles document. An input that cannot be converted
fails a run of its own; among several it is left out, and the run fails only if no
input is left.
-/

namespace PictureMarkup.CommandLine

/-- Why a run fails. -/
inductive Failure where
  /-- A file cannot be read. -/
  | reading (path : String)
  /-- A file does not hold a picture. -/
  | decoding (path : String)
  /-- A file cannot be written. -/
  | writing (path : String)
  /-- A directory cannot be created. -/
  | creating (path : String)
  /-- A key was given for several documents. -/
  | keyForSeveral
  /-- None of the inputs was converted. -/
  | noneConverted (count : Nat)
  deriving DecidableEq

/-- The failure in words. -/
def Failure.message : Failure → String
  | .reading path => "reading " ++ path
  | .decoding path => "decoding " ++ path
  | .writing path => "writing " ++ path
  | .creating path => "creating " ++ path
  | .keyForSeveral => "--key applies to a single input only"
  | .noneConverted count => "none of the " ++ toString count ++ " inputs converted"

/-- How a run ends. -/
inductive Outcome where
  /-- Well, with something to print. -/
  | success (printed : String)
  | failure (f : Failure)
  /-- With nothing done, because of the arguments. -/
  | refused
  deriving DecidableEq

/-- The program's name and version. -/
def version : String := "xamlize 0.0.1"

/-- How the program is used. -/
def usage : String := "Usage: xamlize [OPTIONS] <INPUTS>..."

namespace Outcome

/-- The code with which the program ends. -/
def exitCode : Outcome → Nat
  | .success _ => 0
  | .failure _ => 1
  | .refused => 2

/-- What goes to standard output. -/
def output : Outcome → String
  | .success printed => printed
  | .failure _ | .refused => ""

/-- What goes to standard error. -/
def errorOutput : Outcome → String
  | .success _ => ""
  | .failure f => "Error: " ++ f.message ++ "\n"
  | .refused => usage ++ "\n"

/-- The outcome of arguments that ask for no conversion. -/
def ofStop : Stop → Outcome
  | .version => .success (version ++ "\n")
  | .help => .success (usage ++ "\n")
  | .usage => .refused

/-- The outcome of a conversion. -/
def ofResult : Except Failure String → Outcome
  | .ok printed => .success printed
  | .error f => .failure f

end Outcome

/-- The drawing of a picture whose texts draw nothing. -/
def drawing (options : Options) (p : Picture Float) : Group Float :=
  (Setting.floating options .none).convert p

/-- The markup of a picture. -/
def markup (options : Options) (key : Option String) (p : Picture Float) : String :=
  (drawing options p).markup options.documentKind key options.layout

/-- A picture as a resource of a styles document. -/
def styleEntry (options : Options) (fileName : String) (p : Picture Float) : StyleEntry where
  fileName := fileName
  kind := options.documentKind
  root := drawing options p

/-- The extension of the files that a run writes. -/
def outputExtension : String := "axaml"

section

variable {m : Type → Type} [Monad m] (fs : FileSystem m)

/-- The picture in a file. -/
def load (path : String) : m (Except Failure (Picture Float)) := do
  match ← fs.read path with
  | none => return .error (.reading path)
  | some text =>
    match Picture.parse text with
    | .ok p => return .ok p
    | .error _ => return .error (.decoding path)

/-- Write a document to a file, or hand it over to be printed. -/
def deliver (output : Option String) (document : String) : m (Except Failure String) := do
  match output with
  | none => return .ok (document ++ "\n")
  | some path => return if ← fs.write path document then .ok "" else .error (.writing path)

/-- Convert one input to a document. -/
def convertSingle (a : Arguments) (input : String) : m (Except Failure String) := do
  match ← load fs input with
  | .error f => return .error f
  | .ok p => deliver fs a.output (markup a.options a.key p)

/-- The file to which one of several inputs is converted. -/
def target (output : Option String) (input : String) : String :=
  match output with
  | none => FileName.withExtension input outputExtension
  | some directory =>
    FileName.withExtension (FileName.join directory (FileName.ofPath input)) outputExtension

/-- Convert one of several inputs. -/
def convertInput (a : Arguments) (input : String) : m (Except Failure String) := do
  match ← load fs input with
  | .error f => return .error f
  | .ok p => deliver fs (some (target a.output input)) (markup a.options none p)

/-- The results that are no failures. -/
def successes {τ : Type} (results : List (Except Failure τ)) : List τ :=
  results.filterMap Except.toOption

/-- Convert several inputs to a document each. -/
def convertEach (a : Arguments) : m (Except Failure String) := do
  if a.key.isSome then return .error .keyForSeveral
  let ready ←
    match a.output with
    | none => pure (Except.ok ())
    | some directory => do
      pure (if ← fs.makeDirectories directory then .ok () else .error (.creating directory))
  match ready with
  | .error f => return .error f
  | .ok () =>
    let results ← a.inputs.mapM (convertInput fs a)
    if (successes results).isEmpty then return .error (.noneConverted a.inputs.length)
    else return .ok ""

/-- Load one of the inputs of a styles document. -/
def loadEntry (a : Arguments) (input : String) : m (Except Failure StyleEntry) := do
  match ← load fs input with
  | .error f => return .error f
  | .ok p => return .ok (styleEntry a.options (FileName.ofPath input) p)

/-- Convert inputs to one styles document. -/
def convertStyles (a : Arguments) : m (Except Failure String) := do
  let results ← a.inputs.mapM (loadEntry fs a)
  let document := (successes results).foldl StylesDocument.push { preview := a.has .preview }
  if document.isEmpty then return .error (.noneConverted a.inputs.length)
  else deliver fs a.output (document.markup a.options.layout)

/-- Convert inputs in the way that the arguments ask for. -/
def convert (a : Arguments) : m (Except Failure String) :=
  if a.has .styles then convertStyles fs a
  else
    match a.inputs with
    | [input] => convertSingle fs a input
    | _ => convertEach fs a

/-- Run the program. -/
def run (args : List String) : m Outcome := do
  match Arguments.parse args with
  | .error stop => return .ofStop stop
  | .ok a => return .ofResult (← convert fs a)

end

end PictureMarkup.CommandLine
