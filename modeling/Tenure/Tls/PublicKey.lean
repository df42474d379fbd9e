import Tenure.Tls.Der

/-!
# `Tenure.Tls.PublicKey`: the public key of a certificate and of a private key

A certificate names the public key of its owner, and a private key determines the
public key that belongs to it. Both are given in the form in which a certificate
holds a public key: the algorithm, and the key as bits. A private key comes in
one of three forms: an RSA key, a key on a curve, or either of them wrapped
together with its algorithm.
-/

set_option autoImplicit false

namespace Tenure.Tls

open Element

/-- A public key: the names of its algorithm and the key itself. -/
structure PublicKey where
  algorithm : List Element
  key : List UInt8
deriving Repr, DecidableEq, Inhabited

namespace PublicKey

/-- The element that holds a public key in a certificate. -/
def element (p : PublicKey) : Element :=
  .sequence [.sequence p.algorithm, ⟨bitsTag, 0 :: p.key⟩]

/-! ### Certificates -/

/-- The parts of what is signed in a certificate, from the second on. The first
one says that it is of the third version. -/
def signedParts? : List Element → Option (List Element)
  | version :: rest =>
    if version = ⟨numberedTag 0, (⟨integerTag, [2]⟩ : Element).bytes⟩ then some rest else none
  | [] => none

/-- The element of the public key in a certificate. -/
def ofCertificate? (certificate : List UInt8) : Option Element := do
  match ← sequenceOf? certificate with
  | [signed, _, signature] =>
    if signature.tag ≠ bitsTag then none
    match ← signedParts? (← signed.parts?) with
    | serial :: algorithm :: issuer :: validity :: subject :: key :: _ =>
      if serial.tag = integerTag
          && [algorithm, issuer, validity, subject, key].all (·.tag == sequenceTag) then some key
      else none
    | _ => none
  | _ => none

/-! ### Private keys -/

def rsaName : Element := ⟨nameTag, [0x2a, 0x86, 0x48, 0x86, 0xf7, 0x0d, 0x01, 0x01, 0x01]⟩

def curveName : Element := ⟨nameTag, [0x2a, 0x86, 0x48, 0xce, 0x3d, 0x02, 0x01]⟩

def p256Name : Element := ⟨nameTag, [0x2a, 0x86, 0x48, 0xce, 0x3d, 0x03, 0x01, 0x07]⟩

def p384Name : Element := ⟨nameTag, [0x2b, 0x81, 0x04, 0x00, 0x22]⟩

def p521Name : Element := ⟨nameTag, [0x2b, 0x81, 0x04, 0x00, 0x23]⟩

/-- The curves that are known, each with the size of its points in bytes. -/
def curves : List (Nat × Element) := [(65, p256Name), (97, p384Name), (133, p521Name)]

/-- The public key of an RSA key, whose modulus is the product of its two
primes. -/
def ofRsa? : List Element → Option PublicKey
  | _ :: modulus :: exponent :: _ :: p :: q :: _ =>
    let n := number modulus.content
    if n = number p.content * number q.content && 1 <<< 2047 ≤ n && n < 1 <<< 8192 then
      some ⟨[rsaName, ⟨nullTag, []⟩], (Element.sequence [modulus, exponent]).bytes⟩
    else none
  | _ => none

/-- The public key that a key on a curve comes with. -/
def ofCurve? (parts : List Element) : Option PublicKey := do
  let wrapped ← parts.find? (·.tag == numberedTag 1)
  match ← all? wrapped.content with
  | [bits] =>
    match bits.tag == bitsTag, bits.content with
    | true, 0 :: point => return ⟨[curveName, ← curves.lookup point.length], point⟩
    | _, _ => none
  | _ => none

/-- The public key of a private key that is wrapped with its algorithm. -/
def ofWrapped? (algorithm key : Element) : Option PublicKey := do
  let names ← algorithm.parts?
  let parts ← sequenceOf? key.content
  match names.head? with
  | none => none
  | some name =>
    if name = rsaName then ofRsa? parts
    else if name = curveName then
      let found ← ofCurve? parts
      if found.algorithm = names then some found else none
    else none

/-- The public key of a private key. -/
def ofPrivateKey? (key : List UInt8) : Option PublicKey := do
  match ← sequenceOf? key with
  | version :: second :: third :: rest =>
    if version.tag ≠ integerTag then none
    else if second.tag = sequenceTag then
      if third.tag = octetsTag then ofWrapped? second third else none
    else if version.content = [0] then ofRsa? (version :: second :: third :: rest)
    else if version.content = [1] then ofCurve? (second :: third :: rest)
    else none
  | _ => none

end PublicKey

end Tenure.Tls
