import PictureMarkup.CommandLine.Run

/-!
# The program

The command line on the machine's own files.
-/

namespace PictureMarkup.CommandLine

/-- A request that may fail, with its success. -/
def succeeds (request : IO Unit) : IO Bool :=
  try
    request
    return true
  catch _ => return false

/-- Create all directories that a path names; an empty path names none. -/
def createNamed (path : String) : IO Unit :=
  unless path.isEmpty do IO.FS.createDirAll path

/-- Create directories. A path that ends in a dot must lead somewhere once those above
it are there. -/
def createDirectories (path : String) : IO Unit := do
  if FileName.endsInDot path then
    createNamed (FileName.above path)
    discard (IO.FS.realPath path)
  else createNamed path

/-- The machine's files. -/
def machineFiles : FileSystem IO where
  read path :=
    try
      return some (← IO.FS.readFile path)
    catch _ => return none
  write path text := succeeds (IO.FS.writeFile path text)
  makeDirectories path := succeeds (createDirectories path)

end PictureMarkup.CommandLine

open PictureMarkup.CommandLine in
/-- Run the program with its arguments. -/
def main (args : List String) : IO UInt32 := do
  let outcome ← run machineFiles args
  (← IO.getStdout).putStr outcome.output
  (← IO.getStderr).putStr outcome.errorOutput
  return outcome.exitCode.toUInt32
