import Tenure.FileTree.Basic

/-!
# `Tenure.FileTree.Links`: a tree of files with links in it

A symbolic link stands at a place and holds a path. A way that comes to it goes on along this
path, from the directory that the link stands in. A file may also have several names, which are
hard links: it has the same content under each of them, and what is written under one is written
under all.

`LinkedTree` adds both to a tree of files. Its operations are those of the tree, at the place
that a path leads to. Whoever reads or writes a file follows a symbolic link at the end of its
path, so the file that is written may be one of quite another name. Whoever gives a file
another name follows none: a link at the end of either path is moved or replaced itself.

* `resolve` and `locate`: the place that a path leads to, with and without the link at its end.
* `store`: a file is written under all of its names.
* `rename`: the link or the file itself gets the other name, and what had it is gone.
-/

set_option autoImplicit false

namespace Tenure

/-- A tree of files with links in it. -/
structure LinkedTree where
  /-- The directories, and every file at each of its names. -/
  tree : FileTree
  /-- The symbolic links, and the path that each of them holds. Nothing else stands in their
  places. -/
  symbolic : List (List String × String)
  /-- The names of the files that have more than one, file by file. -/
  hard : List (List (List String))
deriving Repr, DecidableEq, Inhabited

namespace LinkedTree

/-- A tree without links. -/
def ofTree (t : FileTree) : LinkedTree := ⟨t, [], []⟩

/-- The path that the symbolic link at a place holds, if there is one. -/
def target? (l : LinkedTree) (place : List String) : Option String := l.symbolic.lookup place

/-- All names of the file at a place. -/
def names (l : LinkedTree) (place : List String) : List (List String) :=
  (l.hard.find? (·.contains place)).getD [place]

/-! ### Walking a path -/

/-- Walks the parts of a path from a place until they come to a symbolic link. If they do, it
tells in which directory, the path that the link holds, and the parts that are left. -/
def stretch (l : LinkedTree) : List String → List String →
    Except FileError (List String × Option (String × List String))
  | place, [] => .ok (place, none)
  | place, part :: rest =>
    match l.tree.enter place part with
    | .error e => .error e
    | .ok next =>
      match l.target? next with
      | some target => .ok (place, some (target, rest))
      | none => l.stretch next rest

/-- How many symbolic links a path may lead through. -/
def linkLimit : Nat := 40

/-- Walks the parts of a path from a place, and along the symbolic links that they come to. The
number tells how many of these it may still be. -/
def walk (l : LinkedTree) (left : Nat) (place parts : List String) :
    Except FileError (List String × Nat) :=
  match l.stretch place parts with
  | .error e => .error e
  | .ok (dir, none) => .ok (dir, left)
  | .ok (dir, some (target, rest)) =>
    match left with
    | 0 => .error .tooManyLinks
    | left + 1 =>
      l.walk left (if Path.isAbsolute target then [] else dir) (Path.parts target ++ rest)

/-- Walks the parts of a path from a place, and does not follow a symbolic link at the end. -/
def approach (l : LinkedTree) (place parts : List String) : Except FileError (List String) :=
  match parts.getLast? with
  | none => .ok place
  | some part =>
    match l.walk linkLimit place parts.dropLast with
    | .error e => .error e
    | .ok (dir, _) => l.tree.enter dir part

/-- The place from which a path is walked. -/
def start (l : LinkedTree) (path : String) : List String :=
  if Path.isAbsolute path then [] else l.tree.working

/-- The place that a path was walked to, unless it can only name a directory and a file is
there. -/
def arrive (l : LinkedTree) (path : String) (place : List String) :
    Except FileError (List String) :=
  match l.tree.find place with
  | some (.file _) => if Path.namesDirectory path then .error .notDirectory else .ok place
  | _ => .ok place

/-- The place that a path leads to. -/
def resolve (l : LinkedTree) (path : String) : Except FileError (List String) :=
  if path.isEmpty then .error .notFound
  else if path.toList.contains '\x00' then .error .invalidName
  else
    match l.walk linkLimit (l.start path) (Path.parts path) with
    | .error e => .error e
    | .ok (place, _) => l.arrive path place

/-- The place that a path names, which may be that of a symbolic link. -/
def locate (l : LinkedTree) (path : String) : Except FileError (List String) :=
  if path.isEmpty then .error .notFound
  else if path.toList.contains '\x00' then .error .invalidName
  else
    match l.approach (l.start path) (Path.parts path) with
    | .error e => .error e
    | .ok place => l.arrive path place

/-! ### Files -/

/-- The content of a file. -/
def read (l : LinkedTree) (path : String) : Except FileError (List UInt8) := do
  match l.tree.find (← l.resolve path) with
  | none => throw .notFound
  | some .directory => throw .isDirectory
  | some (.file content) => return content

/-- Sets the content of the file at a place, under all of its names. -/
def store (l : LinkedTree) (place : List String) (content : List UInt8) : LinkedTree :=
  { l with tree := (l.names place).foldl (fun t name => t.put name (.file content)) l.tree }

/-- Sets the content of the file that a path leads to. It is made if it is not there, and so
is one that a symbolic link leads to. -/
def write (l : LinkedTree) (path : String) (content : List UInt8) :
    Except FileError LinkedTree := do
  let place ← l.resolve path
  match l.tree.find place with
  | some .directory => throw .isDirectory
  | _ => return l.store place content

/-- Takes away a name, and with it the file or the symbolic link that has no other. -/
def unlink (l : LinkedTree) (place : List String) : LinkedTree where
  tree := l.tree.erase place
  symbolic := l.symbolic.filter (·.1 != place)
  hard := l.hard.map (·.filter (· != place))

/-- Gives a file a name in place of another one, where nothing is. -/
def moveFile (l : LinkedTree) (old new : List String) (content : List UInt8) : LinkedTree where
  tree := (l.tree.erase old).put new (.file content)
  symbolic := l.symbolic
  hard := l.hard.map (·.map fun name => if name = old then new else name)

/-- Gives a symbolic link a name in place of another one, where nothing is. -/
def moveLink (l : LinkedTree) (old new : List String) (target : String) : LinkedTree :=
  { l with symbolic := (new, target) :: l.symbolic.filter (·.1 != old) }

/-- Gives a file or a symbolic link another name; what has this name is replaced. Nothing
happens when both are names of one file. -/
def rename (l : LinkedTree) (source target : String) : Except FileError LinkedTree := do
  let old ← l.locate source
  match l.target? old, l.tree.find old with
  | some path, _ =>
    let new ← l.locate target
    if l.tree.find new = some .directory then throw .isDirectory
    return (l.unlink new).moveLink old new path
  | none, none => throw .notFound
  | none, some .directory => throw .isDirectory
  | none, some (.file content) =>
    let new ← l.locate target
    if l.tree.find new = some .directory then throw .isDirectory
    if (l.names old).contains new then return l
    return (l.unlink new).moveFile old new content

/-! ### Directories -/

/-- Makes a directory below one that exists. A symbolic link in its place will do if it leads
to a directory. -/
def makeDirectory (l : LinkedTree) (left : Nat) (place : List String) (part : String) :
    Except FileError (LinkedTree × List String × Nat) := do
  let next ← l.tree.enter place part
  match l.target? next with
  | none =>
    let (tree, next) ← l.tree.makeDirectory place part
    return ({ l with tree := tree }, next, left)
  | some _ =>
    match l.walk left place [part] with
    | .error _ => throw .«exists»
    | .ok (dir, left) =>
      if l.tree.find dir = some .directory then return (l, dir, left) else throw .«exists»

/-- Makes the directories of a path one after another. -/
def makeAll (l : LinkedTree) : Nat → List String → List String →
    LinkedTree × Except FileError Unit
  | _, _, [] => (l, .ok ())
  | left, place, part :: rest =>
    match l.makeDirectory left place part with
    | .error e => (l, .error e)
    | .ok (l, next, left) => l.makeAll left next rest

/-- Makes the directories of a path, unless it leads through a file, or from link to link, as
it is. -/
def makeWay (l : LinkedTree) (place parts : List String) : LinkedTree × Except FileError Unit :=
  match l.approach place parts with
  | .error .notDirectory => (l, .error .notDirectory)
  | .error .tooManyLinks => (l, .error .tooManyLinks)
  | _ => l.makeAll linkLimit place parts

/-- Makes the directory that a path names, with all directories on the way. -/
def createDirectories (l : LinkedTree) (path : String) : LinkedTree × Except FileError Unit :=
  if path.toList.contains '\x00' then (l, .error .invalidName)
  else l.makeWay (l.start path) (Path.parts path)

end LinkedTree

end Tenure
