import Tenure.FileTree.Basic

/-!
# `Tenure.Disk`: the files of the host

What a process does to its files is computed on a tree of files. Here such a tree
is read from the host, and what has changed in it is written back: a file beside
its place first, and then moved there.
-/

set_option autoImplicit false

namespace Tenure.Disk

/-- Reads what a path names, and everything below it, into a tree. What cannot be
read is left out. -/
partial def readInto (t : FileTree) (path : String) : IO FileTree := do
  try
    let place ← IO.FS.realPath path
    if ← place.isDir then
      let t := (t.createDirectories path).1
      (← place.readDir).foldlM (fun t entry => readInto t (Path.join path entry.fileName)) t
    else
      return t.place path (← IO.FS.readBinFile path).data.toList
  catch _ => return t

/-- The files below some paths. -/
def read (paths : List String) : IO FileTree := do
  let working := Path.parts (← IO.currentDir).toString
  paths.foldlM readInto (((⟨[], working⟩ : FileTree).makeAll [] working).1)

/-- Writes a file beside its place and moves it there. -/
def writeFile (path : String) (content : List UInt8) : IO Unit := do
  let temp := path ++ ".tmp"
  IO.FS.writeBinFile temp ⟨content.toArray⟩
  IO.FS.rename temp path

/-- Writes what has changed between two trees. -/
def write (before after : FileTree) : IO Unit := do
  let new := after.nodes.reverse.filter fun (place, node) => before.find place != some node
  for (place, node) in new do
    let path := Path.ofParts true place
    match node with
    | .directory => IO.FS.createDirAll path
    | .file content => do
      IO.FS.createDirAll (Path.parent path)
      writeFile path content
  for (place, node) in before.nodes do
    if (after.find place).isNone && node != .directory then
      IO.FS.removeFile (Path.ofParts true place)

/-- Does something to the files below some paths. -/
def change {α : Type} (paths : List String) (act : FileTree → FileTree × α) : IO α := do
  let before ← read paths
  let (after, result) := act before
  write before after
  return result

/-- Does something while a file is locked against everyone else who locks it. -/
def locked {α : Type} (path : Option String) (act : IO α) : IO α :=
  match path with
  | none => act
  | some path => do
    IO.FS.createDirAll (Path.parent path)
    let handle ← IO.FS.Handle.mk path .append
    handle.lock
    try act finally handle.unlock

end Tenure.Disk
