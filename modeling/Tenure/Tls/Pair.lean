import Tenure.FileTree.Basic
import Tenure.Tls.Pem
import Tenure.Tls.PublicKey

/-!
# `Tenure.Tls.Pair`: a certificate and its private key

A process that offers its metrics over TLS needs a file with certificates and
one with a private key. Both files are checked before anything is done with
them: the certificates first, then the key. The pair can be used when the key
file holds one private key and that belongs to the first certificate.
-/

set_option autoImplicit false

namespace Tenure

/-- Why a pair cannot be used. -/
inductive TlsError
  | missing (what path : String)
  | unreadable (path detail : String)
  | noCertificates (path : String)
  | noPrivateKey (path : String)
  | unusable (detail : String)
deriving Repr, DecidableEq, Inhabited

/-- The kind of an error, in one word. -/
def TlsError.kind : TlsError → String
  | missing .. => "NotFound"
  | unreadable .. => "Read"
  | noCertificates _ => "NoCertificates"
  | noPrivateKey _ => "NoPrivateKey"
  | unusable _ => "Config"

def TlsError.message : TlsError → String
  | missing what path => s!"{what} file not found: {path}"
  | unreadable path detail => s!"failed to read {path}: {detail}"
  | noCertificates path => s!"no certificates found in {path}"
  | noPrivateKey path => s!"no private key found in {path}"
  | unusable detail => s!"failed to build TLS config: {detail}"

namespace Tls

/-- The bytes of a file that has to be there. -/
def readFile (files : FileTree) (what path : String) : Except TlsError (List UInt8) :=
  if files.exists path then
    match files.read path with
    | .ok bytes => .ok bytes
    | .error e => .error (.unreadable path e.message)
  else .error (.missing what path)

/-- The certificates in a file, at least one. -/
def readCertificates (files : FileTree) (path : String) :
    Except TlsError (List (List UInt8)) := do
  match Pem.certificates (← readFile files "Certificate" path) with
  | .error fault => throw (.unreadable path fault.message)
  | .ok [] => throw (.noCertificates path)
  | .ok found => return found

/-- The bytes of a file that has a private key. -/
def readKeyFile (files : FileTree) (path : String) : Except TlsError (List UInt8) := do
  let text ← readFile files "Private key" path
  match Pem.firstKey (Pem.sections text) with
  | .error fault => throw (.unreadable path fault.message)
  | .ok none => throw (.noPrivateKey path)
  | .ok (some _) => return text

/-- Checks both files, and counts the certificates. -/
def checkPair (files : FileTree) (certificatePath keyPath : String) : Except TlsError Nat := do
  let certificates ← readCertificates files certificatePath
  let _ ← readKeyFile files keyPath
  return certificates.length

/-- Whether a private key belongs to a certificate. -/
def belongsTo (key certificate : List UInt8) : Bool :=
  match PublicKey.ofPrivateKey? key, PublicKey.ofCertificate? certificate with
  | some found, some element => found.element == element
  | _, _ => false

/-- Checks both files, and that they belong together. -/
def loadPair (files : FileTree) (certificatePath keyPath : String) : Except TlsError Unit := do
  let certificates ← readCertificates files certificatePath
  let text ← readKeyFile files keyPath
  match Pem.allKeys text, certificates with
  | [key], first :: _ =>
    if belongsTo key first then return ()
    else throw (.unusable "the private key does not belong to the certificate")
  | _, _ => throw (.unusable "the key file holds more than one private key")

end Tls

end Tenure
