/-!
# `Tenure.Tls.Der`: elements of certificates and keys

Certificates and keys are nested elements: a tag, the length of the content, and
the content. A length below 128 is one byte; a longer one is written in as few
bytes as possible, after a byte that tells their number.

* `scan?_length`: an element that is read takes up some of the bytes.
-/

set_option autoImplicit false

namespace Tenure.Tls

/-- An element: its tag and its content. -/
structure Element where
  tag : UInt8
  content : List UInt8
deriving Repr, DecidableEq, Inhabited

namespace Element

def integerTag : UInt8 := 0x02
def bitsTag : UInt8 := 0x03
def octetsTag : UInt8 := 0x04
def nullTag : UInt8 := 0x05
def nameTag : UInt8 := 0x06
def sequenceTag : UInt8 := 0x30

/-- The tag of an element that is told from others by its number. -/
def numberedTag (n : UInt8) : UInt8 := 0xa0 + n

/-- The number that some bytes stand for, most significant first. -/
def number (bytes : List UInt8) : Nat := bytes.foldl (fun acc b => acc * 256 + b.toNat) 0

/-- The bytes of a number, most significant first. -/
def bytesOf (n : Nat) : List UInt8 :=
  if n < 256 then [n.toUInt8] else bytesOf (n / 256) ++ [(n % 256).toUInt8]
termination_by n

/-- Reads a length. -/
def scanLength? : List UInt8 → Option (Nat × List UInt8)
  | [] => none
  | c :: rest =>
    if c < 0x80 then some (c.toNat, rest)
    else
      let digits := rest.take (c.toNat - 0x80)
      let n := number digits
      if digits.length ≠ c.toNat - 0x80 || 4 < digits.length || n < 0x80 || bytesOf n != digits then
        none
      else some (n, rest.drop digits.length)

/-- Reads an element, and gives the bytes after it. -/
def scan? : List UInt8 → Option (Element × List UInt8)
  | [] => none
  | tag :: rest =>
    match scanLength? rest with
    | none => none
    | some (n, rest) => if rest.length < n then none else some (⟨tag, rest.take n⟩, rest.drop n)

/-- By reading a length nothing is added to what is left. -/
theorem scanLength?_length (s rest : List UInt8) (n : Nat)
    (h : scanLength? s = some (n, rest)) : rest.length ≤ s.length := by
  cases s with
  | nil => simp [scanLength?] at h
  | cons c s =>
    simp only [scanLength?] at h
    split at h
    · simp only [Option.some.injEq, Prod.mk.injEq] at h
      obtain ⟨_, rfl⟩ := h
      simp
    · split at h
      · cases h
      · simp only [Option.some.injEq, Prod.mk.injEq] at h
        obtain ⟨_, rfl⟩ := h
        simp only [List.length_drop, List.length_cons]
        omega

/-- By reading an element something is taken from what is left, which is why reading ends. -/
theorem scan?_length (s rest : List UInt8) (e : Element) (h : scan? s = some (e, rest)) :
    rest.length < s.length := by
  cases s with
  | nil => simp [scan?] at h
  | cons tag s =>
    unfold scan? at h
    cases hl : scanLength? s with
    | none => simp [hl] at h
    | some p =>
      obtain ⟨n, r⟩ := p
      have hle := scanLength?_length s r n hl
      simp only [hl] at h
      split at h
      · cases h
      · simp only [Option.some.injEq, Prod.mk.injEq] at h
        obtain ⟨_, rfl⟩ := h
        simp only [List.length_drop, List.length_cons]
        omega

/-- The elements that some bytes are made of. -/
def all? (s : List UInt8) : Option (List Element) :=
  if s.isEmpty then some []
  else
    match h : scan? s with
    | none => none
    | some (e, rest) =>
      have : rest.length < s.length := scan?_length s rest e h
      (all? rest).map (e :: ·)
termination_by s.length

/-- The bytes of an element. -/
def bytes (e : Element) : List UInt8 :=
  let n := e.content.length
  e.tag :: (if n < 0x80 then [n.toUInt8]
    else (0x80 + (bytesOf n).length.toUInt8) :: bytesOf n) ++ e.content

/-- An element that holds others. -/
def sequence (parts : List Element) : Element := ⟨sequenceTag, parts.flatMap bytes⟩

/-- The elements within an element. -/
def parts? (e : Element) : Option (List Element) :=
  if e.tag = sequenceTag then all? e.content else none

/-- The one element that some bytes are made of, which holds others. -/
def sequenceOf? (s : List UInt8) : Option (List Element) :=
  match scan? s with
  | some (e, []) => e.parts?
  | _ => none

end Element

end Tenure.Tls
