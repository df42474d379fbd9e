import Tenure.Record.Codec
import Tenure.FileTree.Basic

/-!
# `Tenure.Store.Basic`: what a coordination store is asked and answers

A store keeps a versioned lock record under each key. It is asked for the record
of a key, to create one, or to update the one that has an expected version; every
write either lands under the next version or changes nothing. A store that
answers `conflict` whenever a record to be created exists or a version to be
updated has moved is all that leadership relies on.
-/

set_option autoImplicit false

namespace Tenure.Store

/-- Why a store call fails. -/
inductive Error
  /-- The record exists already, or its version has moved. -/
  | conflict (key : Key)
  | notFound (key : Key)
  | unavailable (message : String)
  | io (error : FileError)
  /-- What is stored is no lock record. -/
  | corrupt
deriving Repr, DecidableEq, Inhabited

namespace Error

def message : Error → String
  | conflict key => "conflicting write on " ++ key.text
  | notFound key => "lock record " ++ key.text ++ " not found"
  | unavailable message => "coordination store unavailable: " ++ message
  | io error => "store I/O error: " ++ error.message
  | corrupt => "corrupt lock record: not a versioned record"

/-- The short name of the cause, for metrics. -/
def reason : Error → String
  | conflict _ => "conflict"
  | notFound _ => "not_found"
  | unavailable _ => "unavailable"
  | io _ => "io"
  | corrupt => "corrupt"

def isConflict : Error → Bool
  | conflict _ => true
  | _ => false

end Error

/-- What a store is asked about the record of a key. -/
inductive Request
  | get
  | create (record : Record)
  | update (record : Record) (expected : Nat)
deriving Repr, DecidableEq, Inhabited

/-- What a store answers: what it has found, the version of what it has written,
or why it has failed. -/
inductive Reply
  | found (current : Option (Versioned Record))
  | written (version : Nat)
  | failed (error : Error)
deriving Repr, DecidableEq, Inhabited

/-- The kinds of store calls. -/
inductive Call
  | get
  | create
  | update
deriving Repr, DecidableEq, Inhabited

def Request.call : Request → Call
  | get => .get
  | create _ => .create
  | update _ _ => .update

end Tenure.Store
