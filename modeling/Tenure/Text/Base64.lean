/-!
# `Tenure.Text.Base64`: bytes in sixty-four characters

Three bytes are written with four characters of six bits each. Reading skips
blanks and reads the characters in groups of eight. The last characters of a
group of eight, and of a last group of four, can be padding; a last group can
also go without padding, but not end within its first byte.
-/

set_option autoImplicit false

namespace Tenure.Text.Base64

/-- What a character stands for: six bits, or nothing. -/
inductive Symbol
  | bits (value : Nat)
  | padding
deriving Repr, DecidableEq, Inhabited

/-- Space, tab, line feed and carriage return. -/
def isSpace (c : UInt8) : Bool := c == 0x20 || c == 0x09 || c == 0x0a || c == 0x0d

/-- The symbol of a character: capital letters, small letters, digits, plus and
slash, in this order, and the equals sign for padding. -/
def symbol? (c : UInt8) : Option Symbol :=
  if 0x41 ≤ c && c ≤ 0x5a then some (.bits (c.toNat - 0x41))
  else if 0x61 ≤ c && c ≤ 0x7a then some (.bits (c.toNat - 0x61 + 26))
  else if 0x30 ≤ c && c ≤ 0x39 then some (.bits (c.toNat - 0x30 + 52))
  else if c == 0x2b then some (.bits 62)
  else if c == 0x2f then some (.bits 63)
  else if c == 0x3d then some .padding
  else none

/-- The symbols of a text without its blanks. -/
def symbols? (text : List UInt8) : Option (List Symbol) :=
  (text.filter (!isSpace ·)).mapM symbol?

/-- Six more bits at the end of a number. -/
def shift (acc : Nat) : Symbol → Nat
  | .bits value => acc * 64 + value
  | .padding => acc * 64

/-- How many bytes a group of symbols holds, with some of them padding. -/
def byteCount? (count padding : Nat) : Option Nat :=
  if 2 < padding then none
  else if count = 8 then some (6 - padding)
  else if count = 4 then some (3 - padding)
  else if 0 < padding || count % 4 = 1 then none
  else some (count * 6 / 8)

/-- The bytes of a group of at most eight symbols. -/
def groupBytes? (group : List Symbol) : Option (List UInt8) := do
  let values := group.takeWhile (· != .padding)
  let padding := group.dropWhile (· != .padding)
  if padding.any (· != .padding) then none
  let size ← byteCount? group.length padding.length
  let number := (values ++ List.replicate (8 - values.length) Symbol.padding).foldl shift 0
  return (List.range size).map fun i => ((number >>> (8 * (5 - i))) % 256).toUInt8

/-- The bytes of some symbols, eight at a time. -/
def groups? (symbols : List Symbol) : Option (List UInt8) :=
  if symbols.isEmpty then some []
  else do
    let bytes ← groupBytes? (symbols.take 8)
    return bytes ++ (← groups? (symbols.drop 8))
termination_by symbols.length
decreasing_by
  cases symbols with
  | nil => contradiction
  | cons s rest => simp only [List.drop_succ_cons, List.length_drop, List.length_cons]; omega

/-- The bytes that a text stands for. -/
def decode? (text : List UInt8) : Option (List UInt8) := do groups? (← symbols? text)

end Tenure.Text.Base64
