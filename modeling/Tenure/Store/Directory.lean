import Tenure.Store.Basic

/-!
# `Tenure.Store.Directory`: a store in a shared directory

The record of a key is the file `<root>/<space>/<name>.json`; a file ending in
`.lock` beside it is locked during every call, so that reading, checking and
writing are one step for everyone who shares the directory. A record is written
to a temporary file which then takes the place of the record file.
-/

set_option autoImplicit false

namespace Tenure.Store

/-- A store in the directory of this path. Its versions have no end either, but a record file
can only be read if its version has 64 bits. A program that finds the last one of these in a file
fails with the next write; here the write lands, and the file cannot be read afterwards. -/
structure Directory where
  root : String
deriving Repr, DecidableEq, Inhabited

namespace Directory

/-- The directory of the records of a namespace. -/
def spacePath (d : Directory) (key : Key) : String := Path.join d.root key.space

/-- The file of a record. -/
def recordPath (d : Directory) (key : Key) : String :=
  Path.join (d.spacePath key) (key.name ++ ".json")

/-- The file that is locked during a call. -/
def lockPath (d : Directory) (key : Key) : String :=
  Path.join (d.spacePath key) (key.name ++ ".lock")

/-- Opens the store, making its directory if it is not there. -/
def openAt (root : String) (t : FileTree) : FileTree × Except Error Directory :=
  match t.createDirectories root with
  | (t, .ok ()) => (t, .ok ⟨root⟩)
  | (t, .error e) => (t, .error (.io e))

/-- Makes the directory and the lock file of a key. -/
def prepare (d : Directory) (key : Key) (t : FileTree) : FileTree × Except Error Unit :=
  match t.createDirectories (Path.parent (d.recordPath key)) with
  | (t, .error e) => (t, .error (.io e))
  | (t, .ok ()) =>
    match t.touch (d.lockPath key) with
    | .error e => (t, .error (.io e))
    | .ok t => (t, .ok ())

/-- The record in a file, if the file is there. -/
def readRecord (t : FileTree) (path : String) : Except Error (Option (Versioned Record)) :=
  match t.read path with
  | .error .notFound => .ok none
  | .error e => .error (.io e)
  | .ok bytes =>
    match Versioned.parse? bytes with
    | some stored => .ok (some stored)
    | none => .error .corrupt

/-- Writes a record beside its file and moves it there. -/
def writeRecord (t : FileTree) (path : String) (stored : Versioned Record) :
    FileTree × Except Error Unit :=
  let temp := Path.temp path
  match t.write temp stored.fileBytes with
  | .error e => (t, .error (.io e))
  | .ok t =>
    match t.rename temp path with
    | .error e => (t, .error (.io e))
    | .ok t => (t, .ok ())

/-- Writes a record and answers with its version. -/
def land (t : FileTree) (path : String) (stored : Versioned Record) : FileTree × Reply :=
  match writeRecord t path stored with
  | (t, .ok ()) => (t, .written stored.version)
  | (t, .error e) => (t, .failed e)

/-- Answers a request about a key, while its lock file is locked. -/
def answer (d : Directory) (t : FileTree) (key : Key) (request : Request) : FileTree × Reply :=
  match d.prepare key t with
  | (t, .error e) => (t, .failed e)
  | (t, .ok ()) =>
    let path := d.recordPath key
    match readRecord t path with
    | .error e => (t, .failed e)
    | .ok current =>
      match request, current with
      | .get, _ => (t, .found current)
      | .create _, some _ => (t, .failed (.conflict key))
      | .create record, none => land t path ⟨Versioned.initial, record⟩
      | .update _ _, none => (t, .failed (.notFound key))
      | .update record expected, some stored =>
        if stored.version = expected then land t path ⟨stored.version + 1, record⟩
        else (t, .failed (.conflict key))

end Directory

end Tenure.Store
