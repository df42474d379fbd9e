import Tenure.Text.Base64
import Tenure.Text.Utf8

/-!
# `Tenure.Tls.Pem`: certificates and keys in a text

A section of a text starts with a line that begins it, `-----BEGIN LABEL-----`,
and ends with the matching line, `-----END LABEL-----`. Between them stand the
bytes of the section in base64. Everything outside of sections, and every section
with an unknown label, does not count. A line that begins another section before
the first has ended takes its place.

A text can have faults: a line that begins a section but does not end with five
dashes, a section without its end, and one that is no base64. Reading goes on
after a fault.
-/

set_option autoImplicit false

namespace Tenure.Tls

/-- What a section holds. -/
inductive SectionKind
  | certificate
  | publicKey
  | rsaPrivateKey
  | privateKey
  | ecPrivateKey
  | revocationList
  | certificateRequest
  | helloConfig
deriving Repr, DecidableEq, Inhabited

namespace SectionKind

def all : List SectionKind :=
  [certificate, publicKey, rsaPrivateKey, privateKey, ecPrivateKey, revocationList,
    certificateRequest, helloConfig]

/-- The label of a section. -/
def label : SectionKind → String
  | certificate => "CERTIFICATE"
  | publicKey => "PUBLIC KEY"
  | rsaPrivateKey => "RSA PRIVATE KEY"
  | privateKey => "PRIVATE KEY"
  | ecPrivateKey => "EC PRIVATE KEY"
  | revocationList => "X509 CRL"
  | certificateRequest => "CERTIFICATE REQUEST"
  | helloConfig => "ECHCONFIG"

/-- The kind of the sections with a label. -/
def ofLabel? (label : List UInt8) : Option SectionKind :=
  all.find? fun kind => Text.utf8 kind.label == label

/-- Whether sections of a kind hold a private key. -/
def isPrivateKey : SectionKind → Bool
  | rsaPrivateKey | privateKey | ecPrivateKey => true
  | _ => false

end SectionKind

/-- A section of a text. -/
structure Section where
  kind : SectionKind
  content : List UInt8
deriving Repr, DecidableEq, Inhabited

/-- What is wrong with a text. -/
inductive PemFault
  | illegalStart
  | noEnd
  | noBase64
deriving Repr, DecidableEq, Inhabited

def PemFault.message : PemFault → String
  | illegalStart => "a section starts with a line that is not well formed"
  | noEnd => "a section has no end"
  | noBase64 => "a section is not in base64"

namespace Pem

/-- Line feed and carriage return each end a line. -/
def isLineEnd (c : UInt8) : Bool := c == 0x0a || c == 0x0d

/-- The lines of a text, each with the byte that ends it. -/
def lines : List UInt8 → List (List UInt8)
  | [] => []
  | c :: rest =>
    if isLineEnd c then [c] :: lines rest
    else match lines rest with
      | [] => [[c]]
      | line :: more => (c :: line) :: more

/-- What a line that begins a section starts with. -/
def beginning : List UInt8 := Text.utf8 "-----BEGIN "

/-- Splits the trailing dashes off a line that was turned round. Spaces and line
ends among them do not count. The number is that of the dashes. -/
def dropDashes : Nat → List UInt8 → Nat × List UInt8
  | count, [] => (count, [])
  | count, c :: rest =>
    if c == 0x2d then dropDashes (count + 1) rest
    else if c == 0x20 || isLineEnd c then
      let (total, label) := dropDashes count rest
      if total = count then (count, c :: rest) else (total, label)
    else (count, c :: rest)

/-- The label of a section, from what follows `-----BEGIN ` in its first line. -/
def label? (rest : List UInt8) : Option (List UInt8) :=
  match dropDashes 0 rest.reverse with
  | (5, label) => some label.reverse
  | _ => none

/-- The line that ends a section. -/
def ending (label : List UInt8) : List UInt8 :=
  Text.utf8 "-----END " ++ label ++ Text.utf8 "-----"

/-- A section that has begun: its label and what was read of it. -/
structure Begun where
  label : List UInt8
  text : List UInt8
deriving Repr, DecidableEq

/-- A section that has come to its end, unless its label is unknown. -/
def close (b : Begun) : List (Except PemFault Section) :=
  match SectionKind.ofLabel? b.label with
  | none => []
  | some kind =>
    match Text.Base64.decode? b.text with
    | none => [.error .noBase64]
    | some content => [.ok ⟨kind, content⟩]

/-- Reads lines, perhaps within a section that has begun. -/
def scan : Option Begun → List (List UInt8) → List (Except PemFault Section)
  | none, [] => []
  | some _, [] => [.error .noEnd]
  | state, line :: rest =>
    if beginning.isPrefixOf line then
      match label? (line.drop beginning.length) with
      | none => .error .illegalStart :: scan none rest
      | some label => scan (some ⟨label, (state.map Begun.text).getD []⟩) rest
    else match state with
      | none => scan none rest
      | some b =>
        if (ending b.label).isPrefixOf line then close b ++ scan none rest
        else scan (some { b with text := b.text ++ line }) rest

/-- The sections of a text and its faults, in their order. -/
def sections (text : List UInt8) : List (Except PemFault Section) := scan none (lines text)

/-- The certificates of a text, or its first fault. -/
def certificates (text : List UInt8) : Except PemFault (List (List UInt8)) := do
  let all ← (sections text).mapM id
  return (all.filter (·.kind == .certificate)).map Section.content

/-- The first private key of a text, or a fault that comes before it. -/
def firstKey : List (Except PemFault Section) → Except PemFault (Option (List UInt8))
  | [] => .ok none
  | .error e :: _ => .error e
  | .ok s :: rest => if s.kind.isPrivateKey then .ok (some s.content) else firstKey rest

/-- All private keys of a text, whatever its faults. -/
def allKeys (text : List UInt8) : List (List UInt8) :=
  (sections text).filterMap fun
    | .ok s => if s.kind.isPrivateKey then some s.content else none
    | .error _ => none

end Pem

end Tenure.Tls
