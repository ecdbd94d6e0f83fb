/-!
# File names

Paths are texts in which slashes separate names. An extension is what follows the
last dot of a name, unless that dot is the name's first character.
-/

namespace PictureMarkup.FileName

/-- A name up to its last dot, if that is not its first character. -/
def stem (name : List Char) : List Char :=
  match name.reverse.dropWhile (· ≠ '.') with
  | _ :: c :: before => (c :: before).reverse
  | _ => name

/-- The parts of a path between its slashes; there is always one. -/
def segments : List Char → List (List Char)
  | [] => [[]]
  | '/' :: r => [] :: segments r
  | c :: r =>
    match segments r with
    | [] => [[c]]
    | s :: ss => (c :: s) :: ss

/-- A part of a path that stays where it is. -/
def isIdle (segment : List Char) : Bool := segment = [] || segment = ['.']

/-- The part of a path that goes up. -/
def parent : List Char := ['.', '.']

/-- The name at the end of a path, or the whole path if it ends otherwise. -/
def ofPath (path : String) : String :=
  match ((segments path.toList).filter (!isIdle ·)).getLast? with
  | none => path
  | some name => if name = parent then path else String.ofList name

/-- What follows the last slash. -/
def last (path : List Char) : List Char := (path.reverse.takeWhile (· ≠ '/')).reverse

/-- What goes up to the last slash and includes it. -/
def directory (path : List Char) : List Char := (path.reverse.dropWhile (· ≠ '/')).reverse

/-- A path whose last name has another extension. A name such as `..z`, whose stem is
a lone dot, becomes the name of the directory above, which takes no extension. -/
def withExtension (path extension : String) : String :=
  let name := stem (last path.toList)
  let renamed := if name = ['.'] then parent else name ++ '.' :: extension.toList
  String.ofList (directory path.toList ++ renamed)

/-- The path ends in a dot that stands for the directory before it. -/
def endsInDot (path : String) : Bool :=
  ((segments path.toList).filter (· ≠ [])).getLast? = some ['.']

/-- The path without its last name and what follows it. -/
def above (path : String) : String :=
  let parts := (((segments path.toList).reverse.dropWhile isIdle).drop 1).reverse
  "/".intercalate (parts.map String.ofList)

/-- A name in a directory. -/
def join (directory name : String) : String :=
  if directory.toList.getLast? = some '/' then directory ++ name else directory ++ "/" ++ name

end PictureMarkup.FileName
