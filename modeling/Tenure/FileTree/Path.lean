/-!
# `Tenure.FileTree.Path`: texts that name files

A path is a text whose parts stand between slashes. Empty parts and single dots
do not count, except that a path that ends with one of them can only name a
directory. `join` puts a path below another, or in its place when it starts at
the root. `tempFor` is the name of the temporary file beside a file.
-/

set_option autoImplicit false

namespace Tenure.Path

/-- The parts between the separators of a list. -/
def splitAt (sep : Char) : List Char → List (List Char)
  | [] => [[]]
  | c :: rest =>
    if c == sep then [] :: splitAt sep rest
    else match splitAt sep rest with
      | [] => [[c]]
      | part :: parts => (c :: part) :: parts

/-- The pieces of a path between its slashes. -/
def pieces (path : String) : List String := (splitAt '/' path.toList).map String.ofList

/-- Whether a piece is a part of its path. -/
def isPart (piece : String) : Bool := piece != "" && piece != "."

/-- The parts of a path. -/
def parts (path : String) : List String := (pieces path).filter isPart

/-- Whether a path starts at the root. -/
def isAbsolute (path : String) : Bool := path.toList.head? == some '/'

/-- Whether a path can only name a directory. -/
def namesDirectory (path : String) : Bool := ((pieces path).getLast?).any (!isPart ·)

/-- A path below another, or in its place when it starts at the root. -/
def join (base path : String) : String :=
  if isAbsolute path then path
  else if base.isEmpty || base.toList.getLast? == some '/' then base ++ path
  else base ++ "/" ++ path

/-- Splits a name at its last dot. A name without a dot, and one whose only dot
is its first character, has no extension. -/
def splitExtension (name : List Char) : List Char × Option (List Char) :=
  let after := (name.reverse.takeWhile (· != '.')).reverse
  let before := (name.reverse.dropWhile (· != '.')).reverse.dropLast
  if after.length = name.length || before.isEmpty then (name, none) else (before, some after)

/-- The extension of a file name. -/
def extension? (name : String) : Option String := (splitExtension name.toList).2.map String.ofList

/-- A file name without its extension. -/
def stem (name : String) : String := String.ofList (splitExtension name.toList).1

/-- A name with a new extension. What is left of the old name when its
extension goes, dot included, loses another one if it has one; a name that is
then nothing but the way to the parent stays that. -/
def withExtension (name extension : String) : String :=
  let kept := match (splitExtension name.toList).2 with
    | none => name.toList
    | some old => name.toList.take (name.toList.length - old.length)
  if kept == ['.', '.'] then ".."
  else String.ofList (splitExtension kept).1 ++ "." ++ extension

/-- The parts of the temporary file that is written beside a JSON file. -/
def tempFor (target : List String) : List String :=
  match target.getLast? with
  | some name => target.dropLast ++ [withExtension name "json.tmp"]
  | none => target

/-- A path from its parts. -/
def ofParts (absolute : Bool) (parts : List String) : String :=
  (if absolute then "/" else "") ++ "/".intercalate parts

/-- The directory that holds a file. -/
def parent (path : String) : String := ofParts (isAbsolute path) (parts path).dropLast

/-- The temporary file that is written beside a JSON file. -/
def temp (path : String) : String := ofParts (isAbsolute path) (tempFor (parts path))

end Tenure.Path
