import Tenure.Status.Document
import Tenure.FileTree.Links

/-!
# `Tenure.Status.Sink`: the directory of the published documents

The document of an operator is the file `<name>.json` in a directory. A new
document is written to a temporary file which then takes the place of the old
one, so whoever reads the file finds a whole document. A link that stands where
the temporary file has to be is not noticed, and the document is written to where
it leads.
-/

set_option autoImplicit false

namespace Tenure.Status

/-- A document could not be written to its file. -/
structure WriteError where
  path : String
  cause : FileError
deriving Repr, DecidableEq

def WriteError.message (e : WriteError) : String :=
  s!"failed to write status to {e.path}: {e.cause.message}"

/-- The directory in which documents are published. -/
structure Sink where
  directory : String
deriving Repr, DecidableEq, Inhabited

namespace Sink

/-- The file of an operator's document. -/
def path (s : Sink) (name : String) : String := Path.join s.directory (name ++ ".json")

/-- Makes the directory, writes a document beside its file and moves it there. -/
def writeAll (s : Sink) (files : LinkedTree) (path : String) (content : List UInt8) :
    LinkedTree × Except FileError Unit :=
  match files.createDirectories s.directory with
  | (files, .error e) => (files, .error e)
  | (files, .ok ()) =>
    match files.write (Path.temp path) content with
    | .error e => (files, .error e)
    | .ok files =>
      match files.rename (Path.temp path) path with
      | .error e => (files, .error e)
      | .ok files => (files, .ok ())

/-- Publishes a document in place of the last one. -/
def publish (s : Sink) (files : LinkedTree) (d : Document) :
    LinkedTree × Except WriteError Unit :=
  let path := s.path d.name
  match s.writeAll files path d.fileBytes with
  | (files, .ok ()) => (files, .ok ())
  | (files, .error e) => (files, .error ⟨path, e⟩)

end Sink

end Tenure.Status
