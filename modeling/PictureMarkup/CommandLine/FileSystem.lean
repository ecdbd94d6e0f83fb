import PictureMarkup.FileName

/-!
# File systems

A run asks three things of a file system: to read a file, to write a file, and to
create a directory with those above it. Each request is answered by success or
failure. The requests are made in some monad, so that the same run works on the
machine's own files and on a directory tree that is just a value.

In such a tree a location is the list of names that leads there from the top. A path
leads from the directory in which the run starts, or from the top if it begins with a
slash, to a location if every name on the way is a directory. The directory above the
top is the top itself. Names and paths have a greatest length.

A directory is created together with those above it, but only under a name: a path
that ends in a dot asks for a directory that is there once those above it are.
-/

namespace PictureMarkup.CommandLine

/-- What a run may ask of a file system. -/
structure FileSystem (m : Type → Type) where
  /-- The text of a file. -/
  read : String → m (Option String)
  /-- Write a file, whether it exists or not. -/
  write : String → String → m Bool
  /-- Create a directory and those above it, as far as they are missing. -/
  makeDirectories : String → m Bool

/-- A way from the top, name by name. -/
abbrev Location : Type := List String

/-- The greatest length of a name, in bytes. -/
def nameLimit : Nat := 255

/-- The greatest length of a path, in bytes. -/
def pathLimit : Nat := 4095

/-- A directory tree: files with their texts, directories that may be empty, and the
directory in which a run starts. -/
structure Disk where
  files : List (Location × String) := []
  directories : List Location := []
  start : Location := []

namespace Disk

/-- The location is that of a file. -/
def isFile (d : Disk) (l : Location) : Bool := d.files.any fun f => f.1 == l

/-- The location is that of a directory: one in which the run starts or that leads
there, one that was created, or one in which there is a file. -/
def isDirectory (d : Disk) (l : Location) : Bool :=
  l.isPrefixOf d.start || d.directories.contains l ||
    d.files.any fun f => l.isPrefixOf f.1 && l.length < f.1.length

/-- Where a path begins. -/
def origin (d : Disk) (path : String) : Location :=
  if path.toList.head? = some '/' then [] else d.start

/-- What a name in a directory leads to, if it is not too long. -/
def enter (l : Location) (name : List Char) : Option Location :=
  let name := String.ofList name
  if name.utf8ByteSize ≤ nameLimit then some (l ++ [name]) else none

/-- The parts of a path that is neither empty nor too long. -/
def partsOf (path : String) : Option (List (List Char)) :=
  if path = "" || pathLimit < path.utf8ByteSize then none
  else some (FileName.segments path.toList)

/-- Follow the parts of a path from a directory. -/
def follow (d : Disk) (l : Location) : List (List Char) → Option Location
  | [] => some l
  | s :: ss =>
    if FileName.isIdle s then follow d l ss
    else if s = FileName.parent then follow d l.dropLast ss
    else
      match enter l s with
      | none => none
      | some next => if ss.isEmpty || d.isDirectory next then follow d next ss else none

/-- Where a path leads. -/
def locate (d : Disk) (path : String) : Option Location :=
  (partsOf path).bind (d.follow (d.origin path))

/-- The text of the file at a path. -/
def read (d : Disk) (path : String) : Option String :=
  (d.locate path).bind fun l => List.lookup l d.files

/-- The files with a text put at a location. -/
def putFile (files : List (Location × String)) (l : Location) (text : String) :
    List (Location × String) :=
  match files with
  | [] => [(l, text)]
  | f :: fs => if f.1 = l then (l, text) :: fs else f :: putFile fs l text

/-- The tree after writing a file, nothing if that is impossible. -/
def write (d : Disk) (path text : String) : Option Disk := do
  let l ← d.locate path
  if d.isDirectory l then none else some { d with files := putFile d.files l text }

/-- Create the directories that the parts of a path name. -/
def create (d : Disk) (l : Location) : List (List Char) → Option Disk
  | [] => some d
  | s :: ss =>
    if FileName.isIdle s then create d l ss
    else if s = FileName.parent then create d l.dropLast ss
    else
      match enter l s with
      | none => none
      | some next =>
        if d.isFile next then none
        else if d.isDirectory next then create d next ss
        else create { d with directories := d.directories ++ [next] } next ss

/-- The tree after creating directories, nothing if that is impossible. -/
def makeDirectories (d : Disk) (path : String) : Option Disk := do
  if FileName.endsInDot path then
    let d ← d.create (d.origin path) (FileName.segments (FileName.above path).toList)
    if (d.locate path).isSome then some d else none
  else d.create (d.origin path) (← partsOf path)

/-- The tree that holds some files, by their paths from the directory in which the run
starts. -/
def ofFiles (start : Location) (files : List (String × String)) : Disk where
  files := files.foldl (fun fs f => putFile fs (start ++ names f.1) f.2) []
  start := start
where
  /-- The names in a path. -/
  names (path : String) : Location :=
    ((FileName.segments path.toList).filter (!FileName.isIdle ·)).map String.ofList

/-- The files below the directory in which the run starts, by their paths from there. -/
def filesBelow (d : Disk) : List (String × String) :=
  (d.files.filter fun f => d.start.isPrefixOf f.1).map fun f =>
    ("/".intercalate (f.1.drop d.start.length), f.2)

/-- A change of the tree that may be impossible, in which case nothing happens. -/
def attempt (change : Disk → Option Disk) : StateM Disk Bool := fun d =>
  match change d with
  | some d => (true, d)
  | none => (false, d)

/-- The file system of a tree. -/
def fileSystem : FileSystem (StateM Disk) where
  read path := fun d => (d.read path, d)
  write path text := attempt (·.write path text)
  makeDirectories path := attempt (·.makeDirectories path)

end Disk

end PictureMarkup.CommandLine
