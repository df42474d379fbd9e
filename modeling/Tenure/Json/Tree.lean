import Tenure.Text.Utf8

/-!
# `Tenure.Json.Tree`: the grammar of JSON

A JSON text is read into a tree that keeps strings and numbers as they are
written and the members of an object in their order, repeated names included.
What a literal stands for is decided by the reader of the tree, so a part of a
document that nobody asks for only has to be well formed.

* `Literal.ofNat` and `Tree.ofText` write a number and a text;
  `decimalValue_digits` says that the digits of a number have its value.
-/

set_option autoImplicit false

namespace Tenure.Json

/-! ### Numbers as written -/

/-- A number as written, digit by digit. -/
structure Literal where
  negative : Bool
  whole : List Nat
  /-- The digits after the point, empty when there is no point. -/
  fraction : List Nat
  /-- The exponent, if there is one: whether it is negative, and its digits. -/
  exponent : Option (Bool × List Nat)
deriving Repr, DecidableEq, Inhabited

/-- The decimal digits of a number, most significant first. -/
def digits (n : Nat) : List Nat :=
  if n < 10 then [n] else digits (n / 10) ++ [n % 10]
termination_by n

/-- The number that a list of decimal digits stands for. -/
def decimalValue (ds : List Nat) : Nat := ds.foldl (fun acc d => acc * 10 + d) 0

/-- One more digit makes ten times the number, and the digit. -/
theorem decimalValue_append (ds : List Nat) (d : Nat) :
    decimalValue (ds ++ [d]) = decimalValue ds * 10 + d := by
  simp [decimalValue]

/-- The digits of a number denote it. -/
theorem decimalValue_digits (n : Nat) : decimalValue (digits n) = n := by
  induction n using digits.induct with
  | case1 n h => rw [digits, if_pos h]; simp [decimalValue]
  | case2 n h ih => rw [digits, if_neg h, decimalValue_append, ih]; omega

/-- A natural number as written. -/
def Literal.ofNat (n : Nat) : Literal := ⟨false, digits n, [], none⟩

/-! ### Trees -/

/-- A JSON document as written. A string is kept as the bytes between its
quotes, escapes included. -/
inductive Tree
  | null
  | bool (b : Bool)
  | number (literal : Literal)
  | string (raw : List UInt8)
  | array (items : List Tree)
  | object (members : List (List UInt8 × Tree))
deriving Repr, Inhabited

/-! ### Reading -/

/-- Space, tab, line feed and carriage return. -/
def isSpace (c : UInt8) : Bool := c == 0x20 || c == 0x09 || c == 0x0a || c == 0x0d

def isDigit (c : UInt8) : Bool := 0x30 ≤ c && c ≤ 0x39

/-- The value of a decimal digit. -/
def digitValue (c : UInt8) : Nat := c.toNat - 0x30

/-- The value of a hexadecimal digit. -/
def hexValue? (c : UInt8) : Option Nat :=
  if 0x30 ≤ c && c ≤ 0x39 then some (c.toNat - 0x30)
  else if 0x61 ≤ c && c ≤ 0x66 then some (c.toNat - 0x57)
  else if 0x41 ≤ c && c ≤ 0x46 then some (c.toNat - 0x37)
  else none

/-- The value of four hexadecimal digits. -/
def hex4? (a b c d : UInt8) : Option Nat := do
  return (((← hexValue? a) * 16 + (← hexValue? b)) * 16 + (← hexValue? c)) * 16 + (← hexValue? d)

def skipSpaces (s : List UInt8) : List UInt8 := s.dropWhile isSpace

/-- The byte that a one-letter escape stands for. -/
def escapedByte? (c : UInt8) : Option UInt8 :=
  if c == 0x22 then some 0x22 -- quote
  else if c == 0x5c then some 0x5c -- backslash
  else if c == 0x2f then some 0x2f -- slash
  else if c == 0x62 then some 0x08 -- b
  else if c == 0x66 then some 0x0c -- f
  else if c == 0x6e then some 0x0a -- n
  else if c == 0x72 then some 0x0d -- r
  else if c == 0x74 then some 0x09 -- t
  else none

/-- Reads the rest of a string after its opening quote: the bytes before the
closing quote and those after it. Control characters have to be escaped, and
escapes have to be known ones; which character they stand for is left open. -/
def scanString : List UInt8 → Option (List UInt8 × List UInt8)
  | [] => none
  | 0x22 :: rest => some ([], rest)
  | 0x5c :: 0x75 :: a :: b :: c :: d :: rest =>
    match hex4? a b c d, scanString rest with
    | some _, some (raw, rest) => some (0x5c :: 0x75 :: a :: b :: c :: d :: raw, rest)
    | _, _ => none
  | 0x5c :: e :: rest =>
    match escapedByte? e, scanString rest with
    | some _, some (raw, rest) => some (0x5c :: e :: raw, rest)
    | _, _ => none
  | c :: rest =>
    if c < 0x20 || c == 0x5c then none
    else match scanString rest with
      | some (raw, rest) => some (c :: raw, rest)
      | none => none

/-- Splits off the decimal digits at the start. -/
def scanDigits (s : List UInt8) : List Nat × List UInt8 :=
  ((s.takeWhile isDigit).map digitValue, s.dropWhile isDigit)

/-- Reads the digits after a point, if there is a point. -/
def scanFraction : List UInt8 → Option (List Nat × List UInt8)
  | 0x2e :: rest =>
    let (ds, rest) := scanDigits rest
    if ds.isEmpty then none else some (ds, rest)
  | s => some ([], s)

/-- Reads an exponent, if there is one. -/
def scanExponent (s : List UInt8) : Option (Option (Bool × List Nat) × List UInt8) :=
  match s with
  | c :: rest =>
    if c == 0x65 || c == 0x45 then
      let (negative, rest) := match rest with
        | 0x2b :: r => (false, r)
        | 0x2d :: r => (true, r)
        | r => (false, r)
      let (ds, rest) := scanDigits rest
      if ds.isEmpty then none else some (some (negative, ds), rest)
    else some (none, s)
  | [] => some (none, s)

/-- Reads a number. A whole part of several digits does not start with zero. -/
def scanNumber (s : List UInt8) : Option (Literal × List UInt8) := do
  let (negative, s) := match s with
    | 0x2d :: r => (true, r)
    | r => (false, r)
  let (whole, s) := scanDigits s
  if whole.isEmpty || (whole.head? == some 0 && 1 < whole.length) then none
  else
    let (fraction, s) ← scanFraction s
    let (exponent, s) ← scanExponent s
    return (⟨negative, whole, fraction, exponent⟩, s)

/-- Removes a known word from the start. -/
def expectWord (word : String) (s : List UInt8) : Option (List UInt8) :=
  let w := Text.utf8 word
  if s.take w.length == w then some (s.drop w.length) else none

mutual

/-- Reads one value; the fuel bounds the number of nested calls. -/
def scanValue : Nat → List UInt8 → Option (Tree × List UInt8)
  | 0, _ => none
  | fuel + 1, s =>
    match skipSpaces s with
    | 0x22 :: rest => (scanString rest).map fun (raw, rest) => (.string raw, rest)
    | 0x5b :: rest =>
      match skipSpaces rest with
      | 0x5d :: rest => some (.array [], rest)
      | rest => (scanItems fuel rest).map fun (items, rest) => (.array items, rest)
    | 0x7b :: rest =>
      match skipSpaces rest with
      | 0x7d :: rest => some (.object [], rest)
      | rest => (scanMembers fuel rest).map fun (members, rest) => (.object members, rest)
    | 0x6e :: rest => (expectWord "ull" rest).map fun rest => (.null, rest)
    | 0x74 :: rest => (expectWord "rue" rest).map fun rest => (.bool true, rest)
    | 0x66 :: rest => (expectWord "alse" rest).map fun rest => (.bool false, rest)
    | s => (scanNumber s).map fun (literal, rest) => (.number literal, rest)

/-- Reads the values of an array that is not empty, up to its bracket. -/
def scanItems : Nat → List UInt8 → Option (List Tree × List UInt8)
  | 0, _ => none
  | fuel + 1, s =>
    match scanValue fuel s with
    | none => none
    | some (item, rest) =>
      match skipSpaces rest with
      | 0x2c :: rest => (scanItems fuel rest).map fun (items, rest) => (item :: items, rest)
      | 0x5d :: rest => some ([item], rest)
      | _ => none

/-- Reads the members of an object that is not empty, up to its brace. -/
def scanMembers : Nat → List UInt8 → Option (List (List UInt8 × Tree) × List UInt8)
  | 0, _ => none
  | fuel + 1, s =>
    match skipSpaces s with
    | 0x22 :: rest =>
      match scanString rest with
      | none => none
      | some (name, rest) =>
        match skipSpaces rest with
        | 0x3a :: rest =>
          match scanValue fuel rest with
          | none => none
          | some (value, rest) =>
            match skipSpaces rest with
            | 0x2c :: rest =>
              (scanMembers fuel rest).map fun (members, rest) => ((name, value) :: members, rest)
            | 0x7d :: rest => some ([(name, value)], rest)
            | _ => none
        | _ => none
    | _ => none

end

/-- Reads a whole document: one value and nothing but spaces around it. -/
def parse (s : List UInt8) : Option Tree :=
  match scanValue (s.length + 1) s with
  | some (tree, rest) => if (skipSpaces rest).isEmpty then some tree else none
  | none => none

/-! ### What a string stands for -/

/-- The bytes of a character. -/
def charBytes (n : Nat) : List UInt8 := Text.utf8 (String.singleton (Char.ofNat n))

/-- Replaces the escapes of a string by what they stand for. A code unit of a
surrogate pair stands for nothing on its own. -/
def unescape : List UInt8 → Option (List UInt8)
  | [] => some []
  | 0x5c :: 0x75 :: a :: b :: c :: d :: rest =>
    match hex4? a b c d with
    | none => none
    | some high =>
      if 0xd800 ≤ high && high ≤ 0xdbff then
        match rest with
        | 0x5c :: 0x75 :: a :: b :: c :: d :: rest =>
          match hex4? a b c d with
          | none => none
          | some low =>
            if 0xdc00 ≤ low && low ≤ 0xdfff then
              (unescape rest).map
                (charBytes (0x10000 + (high - 0xd800) * 0x400 + (low - 0xdc00)) ++ ·)
            else none
        | _ => none
      else if 0xdc00 ≤ high && high ≤ 0xdfff then none
      else (unescape rest).map (charBytes high ++ ·)
  | 0x5c :: e :: rest =>
    match escapedByte? e with
    | some b => (unescape rest).map (b :: ·)
    | none => none
  | 0x5c :: [] => none
  | c :: rest => (unescape rest).map (c :: ·)

/-- The text that a string as written stands for. -/
def textOf? (raw : List UInt8) : Option String := do Text.ofUtf8? (← unescape raw)

/-! ### Writing -/

def hexDigit (n : Nat) : UInt8 := (if n < 10 then n + 0x30 else n + 0x57).toUInt8

/-- One byte of a text as it is written in a string. Only the quote, the
backslash and the control characters are escaped. -/
def escapeByte (c : UInt8) : List UInt8 :=
  if c == 0x22 then [0x5c, 0x22]
  else if c == 0x5c then [0x5c, 0x5c]
  else if c == 0x08 then [0x5c, 0x62]
  else if c == 0x0c then [0x5c, 0x66]
  else if c == 0x0a then [0x5c, 0x6e]
  else if c == 0x0d then [0x5c, 0x72]
  else if c == 0x09 then [0x5c, 0x74]
  else if c < 0x20 then
    [0x5c, 0x75, 0x30, 0x30, hexDigit (c.toNat / 16), hexDigit (c.toNat % 16)]
  else [c]

/-- A text as it is written between quotes. -/
def escape (s : String) : List UInt8 := (Text.utf8 s).flatMap escapeByte

namespace Tree

/-- A text as a tree. -/
def ofText (s : String) : Tree := .string (escape s)

/-- A natural number as a tree. -/
def ofNat (n : Nat) : Tree := .number (.ofNat n)

/-- An object with these members. -/
def ofMembers (members : List (String × Tree)) : Tree :=
  .object (members.map fun (name, value) => (escape name, value))

end Tree

def digitByte (d : Nat) : UInt8 := (d + 0x30).toUInt8

/-- A number as it is written. -/
def Literal.bytes (n : Literal) : List UInt8 :=
  (if n.negative then [0x2d] else []) ++ n.whole.map digitByte
    ++ (if n.fraction.isEmpty then [] else 0x2e :: n.fraction.map digitByte)
    ++ (match n.exponent with
        | none => []
        | some (negative, ds) =>
          0x65 :: (if negative then [0x2d] else []) ++ ds.map digitByte)

/-- A string between quotes. -/
def quoteBytes (raw : List UInt8) : List UInt8 := 0x22 :: raw ++ [0x22]

/-- A line feed and two spaces for each level of nesting. -/
def newline (level : Nat) : List UInt8 := 0x0a :: List.replicate (2 * level) 0x20

mutual

/-- A tree on one line, without spaces. -/
def compact : Tree → List UInt8
  | .null => Text.utf8 "null"
  | .bool true => Text.utf8 "true"
  | .bool false => Text.utf8 "false"
  | .number n => n.bytes
  | .string raw => quoteBytes raw
  | .array items => 0x5b :: compactItems items ++ [0x5d]
  | .object members => 0x7b :: compactMembers members ++ [0x7d]

def compactItems : List Tree → List UInt8
  | [] => []
  | [item] => compact item
  | item :: rest => compact item ++ 0x2c :: compactItems rest

def compactMembers : List (List UInt8 × Tree) → List UInt8
  | [] => []
  | [(name, value)] => quoteBytes name ++ 0x3a :: compact value
  | (name, value) :: rest =>
    quoteBytes name ++ 0x3a :: compact value ++ 0x2c :: compactMembers rest

end

mutual

/-- A tree with one line for each member and item, at a level of nesting. -/
def pretty (level : Nat) : Tree → List UInt8
  | .null => Text.utf8 "null"
  | .bool true => Text.utf8 "true"
  | .bool false => Text.utf8 "false"
  | .number n => n.bytes
  | .string raw => quoteBytes raw
  | .array [] => [0x5b, 0x5d]
  | .array (item :: items) =>
    0x5b :: newline (level + 1) ++ pretty (level + 1) item ++ prettyItems level items
  | .object [] => [0x7b, 0x7d]
  | .object ((name, value) :: members) =>
    0x7b :: newline (level + 1) ++ quoteBytes name ++ [0x3a, 0x20] ++ pretty (level + 1) value
      ++ prettyMembers level members

/-- The items after the first one, and the closing bracket. -/
def prettyItems (level : Nat) : List Tree → List UInt8
  | [] => newline level ++ [0x5d]
  | item :: rest =>
    0x2c :: newline (level + 1) ++ pretty (level + 1) item ++ prettyItems level rest

/-- The members after the first one, and the closing brace. -/
def prettyMembers (level : Nat) : List (List UInt8 × Tree) → List UInt8
  | [] => newline level ++ [0x7d]
  | (name, value) :: rest =>
    0x2c :: newline (level + 1) ++ quoteBytes name ++ [0x3a, 0x20] ++ pretty (level + 1) value
      ++ prettyMembers level rest

end

end Tenure.Json
