import Tenure.Toml.Value

/-!
# `Tenure.Toml.Scalar`: texts, numbers and dates in TOML

Each scanner takes the characters that are left and returns what it read with
the characters after it, or `none` when the document is malformed there.
-/

set_option autoImplicit false

namespace Tenure.Toml

/-- Space and tab. -/
def isSpace (c : Char) : Bool := c == ' ' || c == '\t'

def skipSpaces (s : List Char) : List Char := s.dropWhile isSpace

/-- The characters after a line feed, with or without a carriage return before
it. -/
def newline? : List Char → Option (List Char)
  | '\n' :: rest => some rest
  | '\r' :: '\n' :: rest => some rest
  | _ => none

/-- Tab, the printable ASCII characters and everything beyond ASCII. -/
def isPlain (c : Char) : Bool :=
  c == '\t' || (0x20 ≤ c.toNat && c.toNat ≤ 0x7e) || 0x80 ≤ c.toNat

/-! ### Texts -/

/-- The value of a hexadecimal digit. -/
def hexValue? (c : Char) : Option Nat :=
  if '0' ≤ c && c ≤ '9' then some (c.toNat - 0x30)
  else if 'a' ≤ c && c ≤ 'f' then some (c.toNat - 0x57)
  else if 'A' ≤ c && c ≤ 'F' then some (c.toNat - 0x37)
  else none

/-- The number that some hexadecimal digits stand for. -/
def hexNumber? (cs : List Char) : Option Nat :=
  cs.foldlM (fun acc c => (hexValue? c).map (acc * 16 + ·)) 0

/-- The character of a code point, unless it is a surrogate or too large. -/
def charOf? (n : Nat) : Option Char :=
  if h : n.isValidChar then some (Char.ofNatAux n h) else none

/-- The character that an escape stands for; the escape comes without its
backslash. -/
def scanEscape (s : List Char) : Option (Char × List Char) :=
  match s with
  | 'b' :: rest => some ('\x08', rest)
  | 't' :: rest => some ('\t', rest)
  | 'n' :: rest => some ('\n', rest)
  | 'f' :: rest => some ('\x0c', rest)
  | 'r' :: rest => some ('\r', rest)
  | '"' :: rest => some ('"', rest)
  | '\\' :: rest => some ('\\', rest)
  | 'u' :: rest => long 4 rest
  | 'U' :: rest => long 8 rest
  | _ => none
where
  long (n : Nat) (rest : List Char) : Option (Char × List Char) :=
    if (rest.take n).length = n then do
      return (← charOf? (← hexNumber? (rest.take n)), rest.drop n)
    else none

/-- The rest of a text between double quotes, after the opening one. -/
def scanBasic : Nat → List Char → Option (List Char × List Char)
  | 0, _ => none
  | fuel + 1, s =>
    match s with
    | [] => none
    | '"' :: rest => some ([], rest)
    | '\\' :: rest => do
      let (c, rest) ← scanEscape rest
      let (cs, rest) ← scanBasic fuel rest
      return (c :: cs, rest)
    | c :: rest =>
      if isPlain c then (scanBasic fuel rest).map fun (cs, rest) => (c :: cs, rest) else none

/-- The rest of a text between single quotes, after the opening one. -/
def scanLiteral : List Char → Option (List Char × List Char)
  | [] => none
  | '\'' :: rest => some ([], rest)
  | c :: rest =>
    if isPlain c then (scanLiteral rest).map fun (cs, rest) => (c :: cs, rest) else none

/-- Quotes at the end of a text over several lines: three of them close it, and
up to two before those belong to it. -/
def closeQuotes (quote : Char) (s : List Char) : Option (List Char × List Char) :=
  let n := (s.takeWhile (· == quote)).length
  if n < 3 then none
  else
    let inside := min (n - 3) 2
    some (List.replicate inside quote, s.drop (inside + 3))

/-- Spaces and line ends. -/
def skipBlankLines : Nat → List Char → List Char
  | 0, s => s
  | fuel + 1, s =>
    match newline? (skipSpaces s) with
    | some rest => skipBlankLines fuel rest
    | none => skipSpaces s

/-- The rest of a text between three double quotes. A backslash at the end of a
line takes the line end and the white space after it away. -/
def scanLongBasic : Nat → List Char → Option (List Char × List Char)
  | 0, _ => none
  | fuel + 1, s =>
    match closeQuotes '"' s with
    | some closed => some closed
    | none =>
      match newline? s with
      | some rest => (scanLongBasic fuel rest).map fun (cs, rest) => ('\n' :: cs, rest)
      | none =>
        match s with
        | [] => none
        | '\\' :: rest =>
          match newline? (skipSpaces rest) with
          | some rest => scanLongBasic fuel (skipBlankLines rest.length rest)
          | none => do
            let (c, rest) ← scanEscape rest
            let (cs, rest) ← scanLongBasic fuel rest
            return (c :: cs, rest)
        | c :: rest =>
          if isPlain c then (scanLongBasic fuel rest).map fun (cs, rest) => (c :: cs, rest)
          else none

/-- The rest of a text between three single quotes. -/
def scanLongLiteral : Nat → List Char → Option (List Char × List Char)
  | 0, _ => none
  | fuel + 1, s =>
    match closeQuotes '\'' s with
    | some closed => some closed
    | none =>
      match newline? s with
      | some rest => (scanLongLiteral fuel rest).map fun (cs, rest) => ('\n' :: cs, rest)
      | none =>
        match s with
        | [] => none
        | c :: rest =>
          if isPlain c then (scanLongLiteral fuel rest).map fun (cs, rest) => (c :: cs, rest)
          else none

/-- A line end right after the opening quotes does not belong to the text. -/
def dropFirstNewline (s : List Char) : List Char := (newline? s).getD s

/-- A text, from its opening quote. -/
def scanText (s : List Char) : Option (String × List Char) :=
  let read := match s with
    | '"' :: '"' :: '"' :: rest => scanLongBasic (rest.length + 1) (dropFirstNewline rest)
    | '\'' :: '\'' :: '\'' :: rest => scanLongLiteral (rest.length + 1) (dropFirstNewline rest)
    | '"' :: rest => scanBasic (rest.length + 1) rest
    | '\'' :: rest => scanLiteral rest
    | _ => none
  read.map fun (cs, rest) => (String.ofList cs, rest)

/-! ### Numbers -/

/-- The value of a digit in a base of at most 16. -/
def digitIn? (base : Nat) (c : Char) : Option Nat := (hexValue? c).filter (· < base)

/-- Digits after the first one; a single underscore may stand between two. -/
def scanMoreDigits (base : Nat) : List Char → Option (List Nat × List Char)
  | [] => some ([], [])
  | '_' :: c :: rest =>
    match digitIn? base c with
    | some d => (scanMoreDigits base rest).map fun (ds, rest) => (d :: ds, rest)
    | none => none
  | c :: rest =>
    if c == '_' then none
    else match digitIn? base c with
      | some d => (scanMoreDigits base rest).map fun (ds, rest) => (d :: ds, rest)
      | none => some ([], c :: rest)

/-- One digit or more. -/
def scanDigits (base : Nat) : List Char → Option (List Nat × List Char)
  | [] => none
  | c :: rest =>
    match digitIn? base c with
    | some d => (scanMoreDigits base rest).map fun (ds, rest) => (d :: ds, rest)
    | none => none

/-- The number that some digits of a base stand for. -/
def valueIn (base : Nat) (ds : List Nat) : Nat := ds.foldl (fun acc d => acc * base + d) 0

/-- An integer, if it fits into 64 bits. -/
def integer? (negative : Bool) (magnitude : Nat) : Option Value :=
  if negative then if magnitude ≤ 1 <<< 63 then some (.integer (-(magnitude : Int))) else none
  else if magnitude < 1 <<< 63 then some (.integer magnitude) else none

/-- The binary64 number nearest to digits times a power of ten. Too large a
positive number is refused, too large a negative one is an infinity. -/
def decimal? (negative : Bool) (ds : List Nat) (exponent : Int) : Option Value :=
  let significant := ds.dropWhile (· == 0)
  let position : Int := significant.length + exponent
  let overflow : Option Value := if negative then some .nonFinite else none
  if significant.isEmpty || position < -400 then some (.decimal (.zero negative))
  else if 400 < position then overflow
  else
    let n := valueIn 10 significant
    let nearest :=
      if 0 ≤ exponent then Binary64.ofRatio negative (n * Nat.pow 10 exponent.toNat) 1
      else Binary64.ofRatio negative n (Nat.pow 10 (-exponent).toNat)
    match nearest with
    | some x => some (.decimal x)
    | none => overflow

/-- An exponent, after its letter. -/
def scanExponent (s : List Char) : Option (Int × List Char) := do
  let (negative, s) := match s with
    | '-' :: r => (true, r)
    | '+' :: r => (false, r)
    | r => (false, r)
  let (ds, s) ← scanDigits 10 s
  let e : Int := valueIn 10 ds
  return (if negative then -e else e, s)

/-- The whole part of a decimal number: no leading zeros. -/
def scanWhole : List Char → Option (List Nat × List Char)
  | '0' :: rest => some ([0], rest)
  | s => scanDigits 10 s

/-- A decimal number after its sign. -/
def scanDecimal (negative : Bool) (s : List Char) : Option (Value × List Char) := do
  let (whole, s) ← scanWhole s
  let (fraction, s, pointed) ← match s with
    | '.' :: r => (scanDigits 10 r).map fun (ds, r) => (ds, r, true)
    | r => some ([], r, false)
  let (exponent, s, powered) ← match s with
    | 'e' :: r => (scanExponent r).map fun (e, r) => (e, r, true)
    | 'E' :: r => (scanExponent r).map fun (e, r) => (e, r, true)
    | r => some (0, r, false)
  let value ←
    if pointed || powered then decimal? negative (whole ++ fraction) (exponent - fraction.length)
    else integer? negative (valueIn 10 whole)
  return (value, s)

/-- An integer in a base other than ten, after the mark of its base. -/
def scanBased (base : Nat) (s : List Char) : Option (Value × List Char) := do
  let (ds, s) ← scanDigits base s
  return (← integer? false (valueIn base ds), s)

/-- A number. -/
def scanNumber : List Char → Option (Value × List Char)
  | '0' :: 'x' :: rest => scanBased 16 rest
  | '0' :: 'o' :: rest => scanBased 8 rest
  | '0' :: 'b' :: rest => scanBased 2 rest
  | '+' :: rest => signed false rest
  | '-' :: rest => signed true rest
  | s => signed false s
where
  signed (negative : Bool) : List Char → Option (Value × List Char)
    | 'i' :: 'n' :: 'f' :: rest => some (.nonFinite, rest)
    | 'n' :: 'a' :: 'n' :: rest => some (.nonFinite, rest)
    | s => scanDecimal negative s

/-! ### Dates and times -/

/-- Exactly `n` decimal digits. -/
def scanFixed (n : Nat) (s : List Char) : Option (Nat × List Char) := do
  let ds ← (s.take n).mapM (digitIn? 10)
  if ds.length = n then return (valueIn 10 ds, s.drop n) else none

def expect (c : Char) : List Char → Option (List Char)
  | d :: rest => if c == d then some rest else none
  | [] => none

/-- Two digits within bounds. -/
def scanTwo (least most : Nat) (s : List Char) : Option (Nat × List Char) := do
  let (n, s) ← scanFixed 2 s
  if least ≤ n && n ≤ most then return (n, s) else none

def isLeap (year : Nat) : Bool := year % 4 == 0 && (year % 100 != 0 || year % 400 == 0)

def daysIn (year month : Nat) : Nat :=
  if month == 2 then if isLeap year then 29 else 28
  else if month == 4 || month == 6 || month == 9 || month == 11 then 30
  else 31

/-- A number with leading zeros. -/
def padded (width n : Nat) : String :=
  let digits := Nat.toDigits 10 n
  String.ofList (List.replicate (width - digits.length) '0' ++ digits)

/-- A date, and its standard form. -/
def scanDate (s : List Char) : Option (String × List Char) := do
  let (year, s) ← scanFixed 4 s
  let (month, s) ← scanTwo 1 12 (← expect '-' s)
  let (day, s) ← scanTwo 1 31 (← expect '-' s)
  if day ≤ daysIn year month then
    return (padded 4 year ++ "-" ++ padded 2 month ++ "-" ++ padded 2 day, s)
  else none

/-- The fraction of a second: nine digits count, and zeros at the end are not
written. -/
def scanSubsecond : List Char → String × List Char
  | '.' :: rest =>
    let ds := rest.takeWhile Char.isDigit
    if ds.isEmpty then ("", '.' :: rest)
    else
      let kept := ((ds.take 9).reverse.dropWhile (· == '0')).reverse
      (if kept.isEmpty then "" else String.ofList ('.' :: kept), rest.dropWhile Char.isDigit)
  | s => ("", s)

/-- A time of day, and its standard form. -/
def scanTime (s : List Char) : Option (String × List Char) := do
  let (hour, s) ← scanTwo 0 23 s
  let (minute, s) ← scanTwo 0 59 (← expect ':' s)
  let (second, s) ← scanTwo 0 60 (← expect ':' s)
  let (fraction, s) := scanSubsecond s
  return (padded 2 hour ++ ":" ++ padded 2 minute ++ ":" ++ padded 2 second ++ fraction, s)

/-- An offset from universal time, if there is one. -/
def scanOffset (s : List Char) : Option (String × List Char) :=
  match s with
  | 'Z' :: rest => some ("Z", rest)
  | 'z' :: rest => some ("Z", rest)
  | '+' :: rest => offset "+" rest
  | '-' :: rest => offset "-" rest
  | _ => some ("", s)
where
  offset (sign : String) (rest : List Char) : Option (String × List Char) := do
    let (hour, rest) ← scanTwo 0 23 rest
    let (minute, rest) ← scanTwo 0 59 (← expect ':' rest)
    let sign := if hour == 0 && minute == 0 then "+" else sign
    return (sign ++ padded 2 hour ++ ":" ++ padded 2 minute, rest)

/-- Whether a time of day starts here: two digits and a colon. -/
def startsTime (s : List Char) : Bool :=
  (scanFixed 2 s).any fun (_, rest) => rest.head? == some ':'

/-- Whether a date starts here: four digits and a hyphen. -/
def startsDate (s : List Char) : Bool :=
  (scanFixed 4 s).any fun (_, rest) => rest.head? == some '-'

/-- A date, with a time and an offset after it if there are any. -/
def scanDatetime (s : List Char) : Option (Value × List Char) := do
  let (date, s) ← scanDate s
  match s with
  | c :: rest =>
    if (c == 'T' || c == 't' || c == ' ') && startsTime rest then
      let (time, s) ← scanTime rest
      let (offset, s) ← scanOffset s
      return (.datetime (date ++ "T" ++ time ++ offset), s)
    else return (.datetime date, s)
  | [] => return (.datetime date, s)

/-- A number, a date or a time. -/
def scanNumeric (s : List Char) : Option (Value × List Char) :=
  if startsDate s then scanDatetime s
  else if startsTime s then (scanTime s).map fun (time, rest) => (.datetime time, rest)
  else scanNumber s

end Tenure.Toml
