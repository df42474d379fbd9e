/-!
# `Tenure.SocketAddress`: an address and a port

`1.2.3.4:80` and `[::1%7]:80`: an address of four bytes, or one of eight groups
of sixteen bits in brackets with an optional scope, then a port. A run of zero
groups may be written as two colons once, and the last two groups may be written
as an address of four bytes. Bytes have no leading zeros; groups have at most
four digits; scope and port have any number of digits.
-/

set_option autoImplicit false

namespace Tenure

/-- An address on the network. -/
inductive HostAddress
  | four (bytes : List Nat)
  | six (groups : List Nat) (scope : Nat)
deriving Repr, DecidableEq, Inhabited

/-- An address and a port. -/
structure SocketAddress where
  host : HostAddress
  port : Nat
deriving Repr, DecidableEq, Inhabited

namespace SocketAddress

/-- The value of a digit in a base of at most sixteen. -/
def digit? (base : Nat) (c : Char) : Option Nat :=
  let value? :=
    if '0' ≤ c ∧ c ≤ '9' then some (c.toNat - '0'.toNat)
    else if 'a' ≤ c ∧ c ≤ 'f' then some (c.toNat - 'a'.toNat + 10)
    else if 'A' ≤ c ∧ c ≤ 'F' then some (c.toNat - 'A'.toNat + 10)
    else none
  value?.filter (· < base)

/-- Splits off the digits at the start. -/
def scanDigits (base : Nat) : List Char → List Nat × List Char
  | [] => ([], [])
  | c :: rest =>
    match digit? base c with
    | some d => let (ds, rest) := scanDigits base rest; (d :: ds, rest)
    | none => ([], c :: rest)

/-- Reads a number below a bound. -/
def scanNumber (base bound : Nat) (s : List Char) : Option (Nat × List Char) :=
  let (ds, rest) := scanDigits base s
  let n := ds.foldl (fun acc d => acc * base + d) 0
  if ds.isEmpty || bound ≤ n then none else some (n, rest)

/-- Removes a known character from the start. -/
def expect (c : Char) : List Char → Option (List Char)
  | d :: rest => if d == c then some rest else none
  | [] => none

/-- Reads a byte, which has no leading zeros. -/
def scanByte (s : List Char) : Option (Nat × List Char) :=
  let (ds, _) := scanDigits 10 s
  if 1 < ds.length && ds.head? == some 0 then none else scanNumber 10 256 s

/-- Reads an address of four bytes. -/
def scanFour (s : List Char) : Option (List Nat × List Char) := do
  let (a, s) ← scanByte s
  let (b, s) ← scanByte (← expect '.' s)
  let (c, s) ← scanByte (← expect '.' s)
  let (d, s) ← scanByte (← expect '.' s)
  return ([a, b, c, d], s)

/-- Reads a group of at most four hexadecimal digits. -/
def scanGroup (s : List Char) : Option (Nat × List Char) :=
  if 4 < (scanDigits 16 s).1.length then none else scanNumber 16 65536 s

/-- Goes to the next group, over a colon unless it is the first. -/
def toGroup (isFirst : Bool) (s : List Char) : Option (List Char) :=
  if isFirst then some s else expect ':' s

/-- The two groups that four bytes stand for. -/
def pairUp : List Nat → List Nat
  | [a, b, c, d] => [a * 256 + b, c * 256 + d]
  | _ => []

/-- Reads groups while there are any, at most a number of them. Four bytes in
place of two groups end the reading; the answer says whether they were there. -/
def scanGroups : Nat → Bool → List Char → List Nat × Bool × List Char
  | 0, _, s => ([], false, s)
  | room + 1, isFirst, s =>
    match (if 0 < room then toGroup isFirst s >>= scanFour else none) with
    | some (bytes, rest) => (pairUp bytes, true, rest)
    | none =>
      match toGroup isFirst s >>= scanGroup with
      | some (group, rest) =>
        let (groups, four, rest) := scanGroups room false rest
        (group :: groups, four, rest)
      | none => ([], false, s)

/-- Reads an address of eight groups. -/
def scanSix (s : List Char) : Option (List Nat × List Char) := do
  let (head, four, s) := scanGroups 8 true s
  if head.length = 8 then return (head, s)
  else if four then none
  else
    let s ← expect ':' (← expect ':' s)
    let (tail, _, s) := scanGroups (7 - head.length) true s
    return (head ++ List.replicate (8 - head.length - tail.length) 0 ++ tail, s)

/-- Reads a scope, if there is one. -/
def scanScope (s : List Char) : Nat × List Char :=
  match expect '%' s >>= scanNumber 10 UInt32.size with
  | some (scope, rest) => (scope, rest)
  | none => (0, s)

/-- Reads a port after its colon. -/
def scanPort (s : List Char) : Option (Nat × List Char) := do
  scanNumber 10 65536 (← expect ':' s)

/-- Reads an address of four bytes and a port, and nothing else. -/
def ofFour? (s : List Char) : Option SocketAddress := do
  let (bytes, s) ← scanFour s
  let (port, s) ← scanPort s
  if s.isEmpty then return ⟨.four bytes, port⟩ else none

/-- Reads an address of eight groups in brackets and a port, and nothing else. -/
def ofSix? (s : List Char) : Option SocketAddress := do
  let (groups, s) ← scanSix (← expect '[' s)
  let (scope, s) := scanScope s
  let (port, s) ← scanPort (← expect ']' s)
  if s.isEmpty then return ⟨.six groups scope, port⟩ else none

/-- Reads an address and a port. -/
def parse? (text : String) : Option SocketAddress :=
  match ofFour? text.toList with
  | some address => some address
  | none => ofSix? text.toList

end SocketAddress

end Tenure
