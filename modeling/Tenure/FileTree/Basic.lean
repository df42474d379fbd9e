import Tenure.FileTree.Path

/-!
# `Tenure.FileTree.Basic`: a tree of files

A file tree holds directories and files under the list of names that leads to
them from the root. Operations take the parts of a path, walk them from the root
or from the working directory, and answer with an error as a system call does: a
part on the way that is missing, that is no directory, or whose name is too long.
What an operation has done before it fails stays done. There are no links in such
a tree; a `LinkedTree` is one with links added to it.

* `find_put_self`, `find_put_other`, `find_erase_self` and `find_erase_other`
  say what a change does to the node at each place.
-/

set_option autoImplicit false

namespace Tenure

/-- A file with its content, or a directory. -/
inductive Node
  | file (content : List UInt8)
  | directory
deriving Repr, DecidableEq, Inhabited

/-- Why an operation on files fails. -/
inductive FileError
  | notFound
  | notDirectory
  | isDirectory
  | «exists»
  | nameTooLong
  | invalidName
  /-- A path leads through symbolic links without coming to an end. -/
  | tooManyLinks
deriving Repr, DecidableEq, Inhabited

/-- The words of the system for an error. -/
def FileError.message : FileError → String
  | notFound => "No such file or directory (os error 2)"
  | notDirectory => "Not a directory (os error 20)"
  | isDirectory => "Is a directory (os error 21)"
  | «exists» => "File exists (os error 17)"
  | nameTooLong => "File name too long (os error 36)"
  | invalidName => "file name contained an unexpected NUL byte"
  | tooManyLinks => "Too many levels of symbolic links (os error 40)"

/-- The nodes of a file tree below its root, and the working directory. The root
itself is always a directory. -/
structure FileTree where
  nodes : List (List String × Node)
  working : List String
deriving Repr, DecidableEq, Inhabited

namespace FileTree

/-- A tree with nothing in it. -/
def empty : FileTree := ⟨[], []⟩

/-- The node at a place. -/
def find (t : FileTree) (place : List String) : Option Node :=
  if place = [] then some .directory else (t.nodes.find? (·.1 == place)).map (·.2)

/-- Removes the node at a place. -/
def erase (t : FileTree) (place : List String) : FileTree :=
  { t with nodes := t.nodes.filter (·.1 != place) }

/-- Puts a node at a place. -/
def put (t : FileTree) (place : List String) (node : Node) : FileTree :=
  { t with nodes := (place, node) :: (t.erase place).nodes }

/-- What was put at a place is found there. The root is a directory whatever is put there. -/
theorem find_put_self (t : FileTree) (place : List String) (node : Node) (h : place ≠ []) :
    (t.put place node).find place = some node := by
  simp [find, put, h]

/-- Whoever looks for a place does not notice that another one was taken out of the list. -/
theorem find_filter_other (nodes : List (List String × Node)) (place other : List String)
    (h : other ≠ place) :
    (nodes.filter (·.1 != place)).find? (·.1 == other) = nodes.find? (·.1 == other) := by
  induction nodes with
  | nil => rfl
  | cons n rest ih =>
    by_cases hn : n.1 = place
    · have hne : (n.1 == other) = false := by
        rw [hn]; simpa using fun hc => h hc.symm
      simp [List.find?_cons, hn, ih]
      rw [← hn, hne]
    · by_cases ho : n.1 = other
      · simp [ho, h]
      · have hne : (n.1 == other) = false := by simpa using ho
        simp [hn, hne, ih]

/-- What is at a place stays when another place is cleared. -/
theorem find_erase_other (t : FileTree) (place other : List String) (h : other ≠ place) :
    (t.erase place).find other = t.find other := by
  unfold find erase
  dsimp only
  rw [find_filter_other t.nodes place other h]

/-- What is at a place stays when something is put at another one. -/
theorem find_put_other (t : FileTree) (place other : List String) (node : Node)
    (h : other ≠ place) : (t.put place node).find other = t.find other := by
  have he := find_erase_other t place other h
  unfold find at he ⊢
  unfold put
  dsimp only
  rw [List.find?_cons_of_neg (by simpa using fun hc => h hc.symm)]
  exact he

/-- A place that was cleared has nothing, unless it is the root. -/
theorem find_erase_self (t : FileTree) (place : List String) (h : place ≠ []) :
    (t.erase place).find place = none := by
  unfold find erase
  rw [if_neg h]
  simp

/-! ### Walking a path -/

/-- The longest name that a node may have, in bytes. -/
def nameLimit : Nat := 255

/-- Goes from a directory to the part of a path below it. -/
def enter (t : FileTree) (place : List String) (part : String) :
    Except FileError (List String) :=
  match t.find place with
  | none => .error .notFound
  | some (.file _) => .error .notDirectory
  | some .directory =>
    if part = ".." then .ok place.dropLast
    else if nameLimit < part.utf8ByteSize then .error .nameTooLong
    else .ok (place ++ [part])

/-- Walks the parts of a path from a place. The last part does not have to
exist. -/
def walk (t : FileTree) : List String → List String → Except FileError (List String)
  | place, [] => .ok place
  | place, part :: rest =>
    match t.enter place part with
    | .ok next => t.walk next rest
    | .error e => .error e

/-- The place that a path names, and that a new node of its name would have. -/
def resolve (t : FileTree) (path : String) : Except FileError (List String) :=
  if path.isEmpty then .error .notFound
  else if path.toList.contains '\x00' then .error .invalidName
  else
    match t.walk (if Path.isAbsolute path then [] else t.working) (Path.parts path) with
    | .error e => .error e
    | .ok place =>
      match t.find place with
      | some (.file _) => if Path.namesDirectory path then .error .notDirectory else .ok place
      | _ => .ok place

/-- The node that a path names. -/
def lookup (t : FileTree) (path : String) : Except FileError Node := do
  match t.find (← t.resolve path) with
  | some node => return node
  | none => throw .notFound

/-- Whether a path names a directory. -/
def isDirectory (t : FileTree) (path : String) : Bool :=
  match t.lookup path with
  | .ok .directory => true
  | _ => false

/-- Whether a path names anything. -/
def «exists» (t : FileTree) (path : String) : Bool :=
  match t.lookup path with
  | .ok _ => true
  | .error _ => false

/-- The content of a file. -/
def read (t : FileTree) (path : String) : Except FileError (List UInt8) := do
  match ← t.lookup path with
  | .file content => return content
  | .directory => throw .isDirectory

/-! ### Changing files -/

/-- Sets the content of a file, which is made if it is not there. -/
def write (t : FileTree) (path : String) (content : List UInt8) : Except FileError FileTree := do
  let place ← t.resolve path
  match t.find place with
  | some .directory => throw .isDirectory
  | _ => return t.put place (.file content)

/-- Opens a file for writing, which is made if it is not there, and leaves its
content alone. -/
def touch (t : FileTree) (path : String) : Except FileError FileTree := do
  let place ← t.resolve path
  match t.find place with
  | some .directory => throw .isDirectory
  | some (.file _) => return t
  | none => return t.put place (.file [])

/-- Gives a file another name; a file of that name is replaced. -/
def rename (t : FileTree) (source target : String) : Except FileError FileTree := do
  let content ← t.read source
  let sourcePlace ← t.resolve source
  let targetPlace ← t.resolve target
  match t.find targetPlace with
  | some .directory => throw .isDirectory
  | _ => return (t.erase sourcePlace).put targetPlace (.file content)

/-- Makes a directory below one that exists. -/
def makeDirectory (t : FileTree) (place : List String) (part : String) :
    Except FileError (FileTree × List String) := do
  let next ← t.enter place part
  match t.find next with
  | some .directory => return (t, next)
  | some (.file _) => throw .«exists»
  | none => return (t.put next .directory, next)

/-- Makes the directories of a path one after another. -/
def makeAll (t : FileTree) : List String → List String → FileTree × Except FileError Unit
  | _, [] => (t, .ok ())
  | place, part :: rest =>
    match t.makeDirectory place part with
    | .error e => (t, .error e)
    | .ok (t, next) => t.makeAll next rest

/-- Makes the directories of a path, unless it leads through a file as it is. A file that is
only come to after a directory was made is in the place of one that was to be made. -/
def makeWay (t : FileTree) (place : List String) (parts : List String) :
    FileTree × Except FileError Unit :=
  match t.walk place parts with
  | .error .notDirectory => (t, .error .notDirectory)
  | _ => t.makeAll place parts

/-- Makes the directory that a path names, with all directories on the way. -/
def createDirectories (t : FileTree) (path : String) : FileTree × Except FileError Unit :=
  if path.toList.contains '\x00' then (t, .error .invalidName)
  else t.makeWay (if Path.isAbsolute path then [] else t.working) (Path.parts path)

/-- Removes what a path names, and everything below it. -/
def remove (t : FileTree) (path : String) : FileTree :=
  match t.resolve path with
  | .error _ => t
  | .ok place => { t with nodes := t.nodes.filter fun n => !place.isPrefixOf n.1 }

/-- Sets the content of a file, and makes the directories on its way. -/
def place (t : FileTree) (path : String) (content : List UInt8) : FileTree :=
  match (t.createDirectories (Path.parent path)).1.write path content with
  | .ok t => t
  | .error _ => (t.createDirectories (Path.parent path)).1

/-- The paths of all that is below a place, in ascending order. That of a
directory ends with a slash. -/
def listing (t : FileTree) (top : List String) : List String :=
  let paths := t.nodes.filterMap fun (place, node) =>
    let rest := place.drop top.length
    if top.isPrefixOf place && !rest.isEmpty then
      some ("/".intercalate rest ++ (if node == .directory then "/" else ""))
    else none
  paths.mergeSort fun a b => decide (a ≤ b)

/-- The names in a directory, in no particular order. -/
def list (t : FileTree) (path : String) : Except FileError (List (String × Node)) := do
  let place ← t.resolve path
  match t.find place with
  | none => throw .notFound
  | some (.file _) => throw .notDirectory
  | some .directory =>
    return t.nodes.filterMap fun (p, node) =>
      if p.dropLast == place then p.getLast?.map (·, node) else none

end FileTree

end Tenure
