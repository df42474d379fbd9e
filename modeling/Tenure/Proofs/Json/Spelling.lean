import Tenure.Json.Tree

/-!
# `Tenure.Proofs.Json.Spelling`: texts that are read as a tree

A text spells a tree when the tree is what is read from it, whatever stands behind
it. Spellings are put together from spellings of the parts: spaces may stand before
a value and before every comma and closing bracket, so the layout of a text does not
matter. What is written for a tree is one of its spellings, and a text that was
escaped stands for itself.

* `Spells.parse`: a spelling is read as its tree.
* `Written.spells_pretty`: a tree of texts and natural numbers is spelled by its
  lines.
* `textOf?_escape`: a text is read back from its escaped bytes.
-/

set_option autoImplicit false

namespace Tenure.Json

/-! ### Spaces -/

/-- White space is one of four bytes. -/
theorem eq_of_isSpace {c : UInt8} (h : isSpace c = true) :
    c = 0x20 ∨ c = 0x09 ∨ c = 0x0a ∨ c = 0x0d := by
  simpa [isSpace, or_assoc] using h

/-- Spaces, or nothing at all. -/
def IsGap (gap : List UInt8) : Prop := ∀ c ∈ gap, isSpace c = true

/-- Nothing at all is a gap between tokens. -/
theorem isGap_nil : IsGap [] := by
  intro c h
  cases h

/-- One space is a gap between tokens. -/
theorem isGap_space : IsGap [0x20] := by
  intro c h
  rw [List.mem_singleton.mp h]
  rfl

/-- A line break with its indentation is a gap between tokens. -/
theorem isGap_newline (level : Nat) : IsGap (newline level) := by
  intro c h
  rcases List.mem_cons.mp h with rfl | h
  · rfl
  · rw [List.eq_of_mem_replicate h]
    rfl

/-- Skipping white space passes a whole gap. -/
theorem skipSpaces_append {gap : List UInt8} (h : IsGap gap) (s : List UInt8) :
    skipSpaces (gap ++ s) = skipSpaces s := List.dropWhile_append_of_pos h

/-- Skipping white space stops at the first byte that is none. -/
theorem skipSpaces_cons {c : UInt8} (h : isSpace c = false) (s : List UInt8) :
    skipSpaces (c :: s) = c :: s := by
  simp [skipSpaces, h]

/-- Skipping white space passes a gap and stops at the byte behind it. -/
theorem skipSpaces_gap_cons {gap : List UInt8} (hgap : IsGap gap) {c : UInt8}
    (h : isSpace c = false) (s : List UInt8) : skipSpaces (gap ++ c :: s) = c :: s := by
  rw [skipSpaces_append hgap, skipSpaces_cons h]

/-- White space is skipped once and for all. -/
theorem skipSpaces_idem (s : List UInt8) : skipSpaces (skipSpaces s) = skipSpaces s := by
  induction s with
  | nil => rfl
  | cons c s ih =>
    cases h : isSpace c with
    | true => simpa [skipSpaces, h] using ih
    | false => rw [skipSpaces_cons h, skipSpaces_cons h]

/-- A value is scanned alike with and without the white space before it. -/
theorem scanValue_skipSpaces (fuel : Nat) (s : List UInt8) :
    scanValue fuel (skipSpaces s) = scanValue fuel s := by
  cases fuel with
  | zero => rfl
  | succ fuel => simp only [scanValue, skipSpaces_idem]

/-- The items of an array are scanned alike with and without the white space before them. -/
theorem scanItems_skipSpaces (fuel : Nat) (s : List UInt8) :
    scanItems fuel (skipSpaces s) = scanItems fuel s := by
  cases fuel with
  | zero => rfl
  | succ fuel => simp only [scanItems, scanValue_skipSpaces]

/-- The members of an object are scanned alike with and without the white space before them. -/
theorem scanMembers_skipSpaces (fuel : Nat) (s : List UInt8) :
    scanMembers fuel (skipSpaces s) = scanMembers fuel s := by
  cases fuel with
  | zero => rfl
  | succ fuel => simp only [scanMembers, skipSpaces_idem]

/-! ### Numbers -/

/-- What stands behind a number does not go on with it. -/
def Ends (rest : List UInt8) : Prop :=
  ∀ c ∈ rest.head?, isDigit c = false ∧ c ≠ 0x2e ∧ c ≠ 0x65 ∧ c ≠ 0x45

/-- The end of the input ends a number. -/
theorem ends_nil : Ends [] := by
  intro c h
  cases h

/-- A byte that no number contains ends a number. -/
theorem ends_cons {c : UInt8} (h : isDigit c = false ∧ c ≠ 0x2e ∧ c ≠ 0x65 ∧ c ≠ 0x45)
    (s : List UInt8) : Ends (c :: s) := by
  intro c' hc'
  cases hc'
  exact h

/-- A gap before what ends a number ends it too. -/
theorem ends_gap {gap s : List UInt8} (hgap : IsGap gap) (h : Ends s) : Ends (gap ++ s) := by
  cases gap with
  | nil => exact h
  | cons c gap =>
    refine ends_cons ?_ _
    rcases eq_of_isSpace (hgap c List.mem_cons_self) with rfl | rfl | rfl | rfl <;> decide

/-- Every number has a digit, zero included. -/
theorem digits_ne_nil (n : Nat) : digits n ≠ [] := by
  rw [digits]
  split <;> simp

/-- The digits of a number are below ten. -/
theorem lt_of_mem_digits {n d : Nat} (h : d ∈ digits n) : d < 10 := by
  induction n using digits.induct with
  | case1 n hn =>
    rw [digits, if_pos hn, List.mem_singleton] at h
    omega
  | case2 n hn ih =>
    rw [digits, if_neg hn, List.mem_append, List.mem_singleton] at h
    rcases h with h | h
    · exact ih h
    · omega

/-- Only zero starts with the digit zero. -/
theorem head?_digits_ne_zero {n : Nat} (hpos : 0 < n) : (digits n).head? ≠ some 0 := by
  induction n using digits.induct with
  | case1 n hn =>
    rw [digits, if_pos hn]
    simp only [List.head?_cons, ne_eq, Option.some.injEq]
    omega
  | case2 n hn ih =>
    rw [digits, if_neg hn]
    obtain ⟨d, ds, hds⟩ := List.exists_cons_of_ne_nil (digits_ne_nil (n / 10))
    have hhead := ih (by omega)
    rw [hds] at hhead ⊢
    exact hhead

/-- The byte of a digit is recognised as a digit. -/
theorem isDigit_digitByte : ∀ d < 10, isDigit (digitByte d) = true := by decide

/-- The byte of a digit has the digit's value. -/
theorem digitValue_digitByte : ∀ d < 10, digitValue (digitByte d) = d := by decide

/-- Digits are scanned up to where the number ends. -/
theorem scanDigits_append {ds : List Nat} (hds : ∀ d ∈ ds, d < 10) {rest : List UInt8}
    (hrest : Ends rest) : scanDigits (ds.map digitByte ++ rest) = (ds, rest) := by
  have hall : ∀ c ∈ ds.map digitByte, isDigit c = true := by
    intro c hc
    obtain ⟨d, hd, rfl⟩ := List.mem_map.mp hc
    exact isDigit_digitByte d (hds d hd)
  have hback : (ds.map digitByte).map digitValue = ds := by
    rw [List.map_map]
    exact (List.map_congr_left fun d hd => digitValue_digitByte d (hds d hd)).trans
      (List.map_id ds)
  have hstop : rest.takeWhile isDigit = [] ∧ rest.dropWhile isDigit = rest := by
    cases rest with
    | nil => exact ⟨rfl, rfl⟩
    | cons c s => simp [(hrest c rfl).1]
  unfold scanDigits
  rw [List.takeWhile_append_of_pos hall, List.dropWhile_append_of_pos hall, hstop.1, hstop.2,
    List.append_nil, hback]

/-- A written natural number is scanned back, up to where it ends. -/
theorem scanNumber_ofNat (n : Nat) {rest : List UInt8} (hrest : Ends rest) :
    scanNumber ((Literal.ofNat n).bytes ++ rest) = some (.ofNat n, rest) := by
  have hfraction : scanFraction rest = some ([], rest) := by
    unfold scanFraction
    split
    · exact absurd rfl (hrest _ rfl).2.1
    · rfl
  have hexponent : scanExponent rest = some (none, rest) := by
    unfold scanExponent
    split
    · rename_i c s
      obtain ⟨-, -, hlower, hupper⟩ := hrest c rfl
      rw [if_neg (by simp [hlower, hupper])]
    · rfl
  have hwhole := scanDigits_append (fun d => lt_of_mem_digits (n := n)) hrest
  have hzero : ((digits n).isEmpty
      || ((digits n).head? == some 0 && decide (1 < (digits n).length))) = false := by
    rcases Nat.eq_zero_or_pos n with rfl | hpos
    · rw [digits]
      rfl
    · have hhead := head?_digits_ne_zero hpos
      simp [digits_ne_nil, hhead]
  have hbytes : (Literal.ofNat n).bytes ++ rest = (digits n).map digitByte ++ rest := by
    simp [Literal.bytes, Literal.ofNat]
  rw [hbytes]
  unfold scanNumber
  -- the first byte is a digit, so there is no sign
  split
  rename_i negative s hsign
  have hplain : negative = false ∧ s = (digits n).map digitByte ++ rest := by
    split at hsign
    · rename_i r heq
      obtain ⟨d, ds, hds⟩ := List.exists_cons_of_ne_nil (digits_ne_nil n)
      rw [hds, List.map_cons, List.cons_append] at heq
      have hdigit := isDigit_digitByte d (lt_of_mem_digits (n := n) (hds ▸ List.mem_cons_self))
      rw [(List.cons.inj heq).1] at hdigit
      cases hdigit
    · cases hsign
      exact ⟨rfl, rfl⟩
  obtain ⟨rfl, rfl⟩ := hplain
  simp only [hwhole, hzero, Bool.false_eq_true, if_false, hfraction, Option.bind_eq_bind,
    Option.bind_some, hexponent]
  rfl

/-! ### Texts between quotes -/

/-- A hexadecimal digit has the value it was written for. -/
theorem hexValue?_hexDigit : ∀ n < 16, hexValue? (hexDigit n) = some n := by decide

/-- The hexadecimal digits of a control character have its value. -/
theorem hex4?_control {c : UInt8} (h : c < 0x20) :
    hex4? 0x30 0x30 (hexDigit (c.toNat / 16)) (hexDigit (c.toNat % 16)) = some c.toNat := by
  have hlt : c.toNat < 32 := h
  have hzero : hexValue? 0x30 = some 0 := rfl
  simp only [hex4?, hzero, hexValue?_hexDigit _ (show c.toNat / 16 < 16 by omega),
    hexValue?_hexDigit _ (show c.toNat % 16 < 16 by omega)]
  show some _ = some _
  congr 1
  omega

/-- How a byte is written: after a backslash as a letter, as a number if it is a
control character, or as it is. -/
theorem escapeByte_cases (c : UInt8) :
    (∃ e, escapeByte c = [0x5c, e] ∧ escapedByte? e = some c ∧ e ≠ 0x75)
      ∨ (c < 0x20 ∧ escapeByte c
        = [0x5c, 0x75, 0x30, 0x30, hexDigit (c.toNat / 16), hexDigit (c.toNat % 16)])
      ∨ (¬ c < 0x20 ∧ c ≠ 0x22 ∧ c ≠ 0x5c ∧ escapeByte c = [c]) := by
  -- seven bytes have a short escape, the other controls have a long one, and the rest stand for
  -- themselves
  unfold escapeByte
  simp only [beq_iff_eq]
  split
  · subst c; exact .inl ⟨_, rfl, rfl, by decide⟩
  split
  · subst c; exact .inl ⟨_, rfl, rfl, by decide⟩
  split
  · subst c; exact .inl ⟨_, rfl, rfl, by decide⟩
  split
  · subst c; exact .inl ⟨_, rfl, rfl, by decide⟩
  split
  · subst c; exact .inl ⟨_, rfl, rfl, by decide⟩
  split
  · subst c; exact .inl ⟨_, rfl, rfl, by decide⟩
  split
  · subst c; exact .inl ⟨_, rfl, rfl, by decide⟩
  split
  · rename_i h
    exact .inr (.inl ⟨h, rfl⟩)
  · rename_i hquote hback _ _ _ _ _ h
    exact .inr (.inr ⟨h, hquote, hback, rfl⟩)

/-- An escaped byte never closes the string it stands in. -/
theorem scanString_escapeByte (c : UInt8) (s : List UInt8) :
    scanString (escapeByte c ++ s)
      = (scanString s).map fun (raw, rest) => (escapeByte c ++ raw, rest) := by
  rcases escapeByte_cases c with ⟨e, he, hvalue, hne⟩ | ⟨hcontrol, he⟩ | ⟨hplain, hquote, hback, he⟩
  · rw [he]
    show scanString (0x5c :: e :: s) = _
    rw [scanString.eq_def]
    simp [hvalue, hne]
    cases scanString s <;> rfl
  · rw [he]
    simp only [List.cons_append, List.nil_append]
    rw [scanString, hex4?_control hcontrol]
    cases scanString s <;> rfl
  · rw [he]
    simp only [List.cons_append, List.nil_append]
    rw [scanString.eq_def]
    simp [hplain, hback]
    cases scanString s <;> rfl

/-- An escaped text is scanned up to the quote that closes it. -/
theorem scanString_escape (t : String) (rest : List UInt8) :
    scanString (escape t ++ 0x22 :: rest) = some (escape t, rest) := by
  unfold escape
  induction Text.utf8 t with
  | nil => rfl
  | cons c bytes ih =>
    rw [List.flatMap_cons, List.append_assoc, scanString_escapeByte, ih]
    rfl

/-- A control character is encoded as its own byte. -/
theorem charBytes_control : ∀ n < 32, charBytes n = [n.toUInt8] := by decide

/-- Escaping a byte is undone by reading the string. -/
theorem unescape_escapeByte (c : UInt8) (s : List UInt8) :
    unescape (escapeByte c ++ s) = (unescape s).map (c :: ·) := by
  rcases escapeByte_cases c with ⟨e, he, hvalue, hne⟩ | ⟨hcontrol, he⟩ | ⟨hplain, hquote, hback, he⟩
  · rw [he]
    show unescape (0x5c :: e :: s) = _
    rw [unescape.eq_def]
    simp [hvalue, hne]
  · rw [he]
    simp only [List.cons_append, List.nil_append]
    rw [unescape, hex4?_control hcontrol]
    have hlt : c.toNat < 32 := hcontrol
    have hhigh : ¬ (0xd800 ≤ c.toNat ∧ c.toNat ≤ 0xdbff) := by omega
    have hlow : ¬ (0xdc00 ≤ c.toNat ∧ c.toNat ≤ 0xdfff) := by omega
    simp [hhigh, hlow, charBytes_control _ hlt]
  · rw [he]
    simp only [List.cons_append, List.nil_append]
    rw [unescape.eq_def]
    simp [hback]

/-- A text is read back from its escaped bytes. -/
theorem textOf?_escape (t : String) : textOf? (escape t) = some t := by
  have hunescape : unescape (escape t) = some (Text.utf8 t) := by
    unfold escape
    induction Text.utf8 t with
    | nil => rfl
    | cons c bytes ih =>
      rw [List.flatMap_cons, unescape_escapeByte, ih]
      rfl
  simp [textOf?, hunescape, Text.ofUtf8?_utf8]

/-! ### Spellings -/

/-- A text is read as a tree, whatever stands behind it. -/
def Spells (s : List UInt8) (t : Tree) : Prop :=
  ∀ fuel rest, s.length ≤ fuel → Ends rest → scanValue fuel (s ++ rest) = some (t, rest)

/-- A text is read as the items of an array, up to its bracket. -/
def SpellsItems (s : List UInt8) (items : List Tree) : Prop :=
  ∀ fuel rest, s.length ≤ fuel → scanItems fuel (s ++ rest) = some (items, rest)

/-- A text is read as the members of an object, up to its brace. -/
def SpellsMembers (s : List UInt8) (members : List (List UInt8 × Tree)) : Prop :=
  ∀ fuel rest, s.length ≤ fuel → scanMembers fuel (s ++ rest) = some (members, rest)

/-- A spelling is read as its tree. -/
theorem Spells.parse {s : List UInt8} {t : Tree} (h : Spells s t) : parse s = some t := by
  have hscan := h (s.length + 1) [] (Nat.le_succ _) ends_nil
  rw [List.append_nil] at hscan
  unfold Json.parse
  rw [hscan]
  rfl

section

variable {gap s : List UInt8} {fuel : Nat}

/-- A text of at least one byte leaves fuel for one step. -/
theorem exists_fuel {c : UInt8} (h : (c :: s).length ≤ fuel) :
    ∃ n, fuel = n + 1 ∧ s.length ≤ n := by
  cases fuel with
  | zero => cases h
  | succ n => exact ⟨n, rfl, Nat.le_of_succ_le_succ h⟩

/-- White space before a value does not matter. -/
theorem spells_gap {t : Tree} (hgap : IsGap gap) (h : Spells s t) : Spells (gap ++ s) t := by
  intro fuel rest hfuel hrest
  rw [List.length_append] at hfuel
  rw [← scanValue_skipSpaces, List.append_assoc, skipSpaces_append hgap, scanValue_skipSpaces]
  exact h fuel rest (by omega) hrest

/-- White space before the items of an array does not matter. -/
theorem spellsItems_gap {items : List Tree} (hgap : IsGap gap) (h : SpellsItems s items) :
    SpellsItems (gap ++ s) items := by
  intro fuel rest hfuel
  rw [List.length_append] at hfuel
  rw [← scanItems_skipSpaces, List.append_assoc, skipSpaces_append hgap, scanItems_skipSpaces]
  exact h fuel rest (by omega)

/-- White space before the members of an object does not matter. -/
theorem spellsMembers_gap {members : List (List UInt8 × Tree)} (hgap : IsGap gap)
    (h : SpellsMembers s members) : SpellsMembers (gap ++ s) members := by
  intro fuel rest hfuel
  rw [List.length_append] at hfuel
  rw [← scanMembers_skipSpaces, List.append_assoc, skipSpaces_append hgap,
    scanMembers_skipSpaces]
  exact h fuel rest (by omega)

/-- The word for no value spells it. -/
theorem spells_null : Spells (Text.utf8 "null") .null := by
  intro fuel rest hfuel _
  obtain ⟨n, rfl, -⟩ := exists_fuel (s := Text.utf8 "ull") hfuel
  rfl

/-- The word for true spells it. -/
theorem spells_true : Spells (Text.utf8 "true") (.bool true) := by
  intro fuel rest hfuel _
  obtain ⟨n, rfl, -⟩ := exists_fuel (s := Text.utf8 "rue") hfuel
  rfl

/-- The word for false spells it. -/
theorem spells_false : Spells (Text.utf8 "false") (.bool false) := by
  intro fuel rest hfuel _
  obtain ⟨n, rfl, -⟩ := exists_fuel (s := Text.utf8 "alse") hfuel
  rfl

/-- A text in quotes, escaped, spells itself. -/
theorem spells_ofText (t : String) : Spells (quoteBytes (escape t)) (.ofText t) := by
  intro fuel rest hfuel _
  obtain ⟨n, rfl, -⟩ := exists_fuel hfuel
  have hscan := scanString_escape t rest
  simp only [quoteBytes, List.cons_append, List.append_assoc, List.nil_append, scanValue,
    skipSpaces_cons (show isSpace 0x22 = false from rfl), hscan]
  rfl

/-- A value that starts with a digit is a number. -/
theorem scanValue_digit {c : UInt8} (h : isDigit c = true) {literal : Literal}
    {rest : List UInt8} (hscan : scanNumber (c :: s) = some (literal, rest)) :
    scanValue (fuel + 1) (c :: s) = some (.number literal, rest) := by
  have hspace : isSpace c = false := by
    cases hc : isSpace c with
    | false => rfl
    | true => rcases eq_of_isSpace hc with rfl | rfl | rfl | rfl <;> cases h
  unfold scanValue
  rw [skipSpaces_cons hspace]
  split
  case h_7 => rw [hscan]; rfl
  all_goals
    rename_i heq
    rw [(List.cons.inj heq).1] at h
    cases h

/-- The digits of a number spell it. -/
theorem spells_ofNat (n : Nat) : Spells (Literal.ofNat n).bytes (.ofNat n) := by
  intro fuel rest hfuel hrest
  have hscan := scanNumber_ofNat n hrest
  obtain ⟨d, ds, hds⟩ := List.exists_cons_of_ne_nil (digits_ne_nil n)
  have hdigit := isDigit_digitByte d (lt_of_mem_digits (n := n) (hds ▸ List.mem_cons_self))
  have hbytes : (Literal.ofNat n).bytes = digitByte d :: ds.map digitByte := by
    simp [Literal.bytes, Literal.ofNat, hds]
  rw [hbytes] at hfuel hscan ⊢
  obtain ⟨m, rfl, -⟩ := exists_fuel hfuel
  exact scanValue_digit hdigit hscan

/-- The last item of an array. -/
theorem spellsItems_last {t : Tree} (h : Spells s t) (hgap : IsGap gap) :
    SpellsItems (s ++ (gap ++ [0x5d])) [t] := by
  intro fuel rest hfuel
  rw [← List.append_assoc, List.length_append, List.length_append] at hfuel
  obtain ⟨n, rfl⟩ : ∃ n, fuel = n + 1 := ⟨fuel - 1, by simp at hfuel; omega⟩
  have hrest : Ends (gap ++ 0x5d :: rest) := ends_gap hgap (ends_cons (by decide) _)
  have hscan := h n _ (by simp at hfuel; omega) hrest
  simp only [List.append_assoc, List.cons_append, List.nil_append, scanItems, hscan,
    skipSpaces_gap_cons hgap (show isSpace 0x5d = false from rfl)]

/-- An item of an array and those after it. -/
theorem spellsItems_cons {t : Tree} (h : Spells s t) (hgap : IsGap gap) {s' : List UInt8}
    {items : List Tree} (hitems : SpellsItems s' items) :
    SpellsItems (s ++ (gap ++ 0x2c :: s')) (t :: items) := by
  intro fuel rest hfuel
  simp only [List.length_append, List.length_cons] at hfuel
  obtain ⟨n, rfl⟩ : ∃ n, fuel = n + 1 := ⟨fuel - 1, by omega⟩
  have hrest : Ends (gap ++ 0x2c :: (s' ++ rest)) := ends_gap hgap (ends_cons (by decide) _)
  have hscan := h n _ (by omega) hrest
  simp only [List.append_assoc, List.cons_append, scanItems, hscan,
    skipSpaces_gap_cons hgap (show isSpace 0x2c = false from rfl), hitems n rest (by omega)]
  rfl

/-- Two brackets spell the empty array. -/
theorem spells_array_nil : Spells [0x5b, 0x5d] (.array []) := by
  intro fuel rest hfuel _
  obtain ⟨n, rfl, -⟩ := exists_fuel hfuel
  rfl

/-- No item starts with a closing bracket. -/
theorem scanItems_bracket (fuel : Nat) (s : List UInt8) : scanItems fuel (0x5d :: s) = none := by
  cases fuel with
  | zero => rfl
  | succ fuel =>
    have hvalue : scanValue fuel (0x5d :: s) = none := by
      cases fuel with
      | zero => rfl
      | succ fuel => rfl
    simp only [scanItems, hvalue]

/-- A bracket before the items of an array spells the array. -/
theorem spells_array {items : List Tree} (h : SpellsItems s items) :
    Spells (0x5b :: s) (.array items) := by
  intro fuel rest hfuel _
  obtain ⟨n, rfl, hn⟩ := exists_fuel hfuel
  have hscan := h n rest hn
  rw [← scanItems_skipSpaces] at hscan
  simp only [List.cons_append, scanValue, skipSpaces_cons (show isSpace 0x5b = false from rfl)]
  split
  · rename_i heq
    rw [heq, scanItems_bracket] at hscan
    cases hscan
  · rw [hscan]
    rfl

/-- The last member of an object. -/
theorem spellsMembers_last (name : String) {t : Tree} (h : Spells s t) (hgap : IsGap gap) :
    SpellsMembers (quoteBytes (escape name) ++ 0x3a :: (s ++ (gap ++ [0x7d])))
      [(escape name, t)] := by
  intro fuel rest hfuel
  simp only [List.length_append, List.length_cons] at hfuel
  obtain ⟨n, rfl⟩ : ∃ n, fuel = n + 1 := ⟨fuel - 1, by omega⟩
  have hrest : Ends (gap ++ 0x7d :: rest) := ends_gap hgap (ends_cons (by decide) _)
  have hscan := h n _ (by omega) hrest
  simp only [quoteBytes, List.append_assoc, List.cons_append, List.nil_append, scanMembers,
    skipSpaces_cons (show isSpace 0x22 = false from rfl), scanString_escape,
    skipSpaces_cons (show isSpace 0x3a = false from rfl), hscan,
    skipSpaces_gap_cons hgap (show isSpace 0x7d = false from rfl)]

/-- A member of an object and those after it. -/
theorem spellsMembers_cons (name : String) {t : Tree} (h : Spells s t) (hgap : IsGap gap)
    {s' : List UInt8} {members : List (List UInt8 × Tree)} (hmembers : SpellsMembers s' members) :
    SpellsMembers (quoteBytes (escape name) ++ 0x3a :: (s ++ (gap ++ 0x2c :: s')))
      ((escape name, t) :: members) := by
  intro fuel rest hfuel
  simp only [List.length_append, List.length_cons] at hfuel
  obtain ⟨n, rfl⟩ : ∃ n, fuel = n + 1 := ⟨fuel - 1, by omega⟩
  have hrest : Ends (gap ++ 0x2c :: (s' ++ rest)) := ends_gap hgap (ends_cons (by decide) _)
  have hscan := h n _ (by omega) hrest
  simp only [quoteBytes, List.append_assoc, List.cons_append, List.nil_append, scanMembers,
    skipSpaces_cons (show isSpace 0x22 = false from rfl), scanString_escape,
    skipSpaces_cons (show isSpace 0x3a = false from rfl), hscan,
    skipSpaces_gap_cons hgap (show isSpace 0x2c = false from rfl), hmembers n rest (by omega)]
  rfl

/-- Two braces spell the empty object. -/
theorem spells_object_nil : Spells [0x7b, 0x7d] (.object []) := by
  intro fuel rest hfuel _
  obtain ⟨n, rfl, -⟩ := exists_fuel hfuel
  rfl

/-- No member starts with a closing brace. -/
theorem scanMembers_brace (fuel : Nat) (s : List UInt8) :
    scanMembers fuel (0x7d :: s) = none := by
  cases fuel with
  | zero => rfl
  | succ fuel => rfl

/-- A brace before the members of an object spells the object. -/
theorem spells_object {members : List (List UInt8 × Tree)} (h : SpellsMembers s members) :
    Spells (0x7b :: s) (.object members) := by
  intro fuel rest hfuel _
  obtain ⟨n, rfl, hn⟩ := exists_fuel hfuel
  have hscan := h n rest hn
  rw [← scanMembers_skipSpaces] at hscan
  simp only [List.cons_append, scanValue, skipSpaces_cons (show isSpace 0x7b = false from rfl)]
  split
  · rename_i heq
    rw [heq, scanMembers_brace] at hscan
    cases hscan
  · rw [hscan]
    rfl

end

/-! ### Trees as they are written -/

/-- A tree of texts and natural numbers. -/
inductive Written : Tree → Prop
  | null : Written .null
  | bool (b : Bool) : Written (.bool b)
  | ofNat (n : Nat) : Written (.ofNat n)
  | ofText (s : String) : Written (.ofText s)
  | array {items : List Tree} (hitems : ∀ item ∈ items, Written item) : Written (.array items)
  | ofMembers {members : List (String × Tree)} (hmembers : ∀ m ∈ members, Written m.2) :
      Written (.ofMembers members)

/-- Items on lines of their own spell the array, when each of them spells itself at any depth. -/
theorem spells_prettyItems (level : Nat) {items : List Tree}
    (hitems : ∀ item ∈ items, ∀ level, Spells (pretty level item) item) {s : List UInt8}
    {item : Tree} (hitem : Spells s item) :
    SpellsItems (s ++ prettyItems level items) (item :: items) := by
  induction items generalizing s item with
  | nil => exact spellsItems_last hitem (isGap_newline level)
  | cons next items ih =>
    have hnext := hitems next List.mem_cons_self (level + 1)
    have hrest := ih (fun other hmem => hitems other (List.mem_cons_of_mem _ hmem)) hnext
    have hall := spellsItems_cons hitem isGap_nil
      (spellsItems_gap (isGap_newline (level + 1)) hrest)
    simpa only [prettyItems, List.cons_append, List.append_assoc, List.nil_append] using hall

/-- Members on lines of their own spell the object, when each value spells itself at any depth. -/
theorem spells_prettyMembers (level : Nat) {members : List (String × Tree)}
    (hmembers : ∀ m ∈ members, ∀ level, Spells (pretty level m.2) m.2) (name : String)
    {s : List UInt8} {value : Tree} (hvalue : Spells s value) :
    SpellsMembers
      (quoteBytes (escape name) ++ 0x3a :: (s ++ prettyMembers level
        (members.map fun (name, value) => (escape name, value))))
      ((escape name, value) :: members.map fun (name, value) => (escape name, value)) := by
  induction members generalizing name s value with
  | nil => exact spellsMembers_last name hvalue (isGap_newline level)
  | cons next members ih =>
    have hnext := spells_gap isGap_space (hmembers next List.mem_cons_self (level + 1))
    have hrest := ih (fun other hmem => hmembers other (List.mem_cons_of_mem _ hmem)) next.1 hnext
    have hall := spellsMembers_cons name hvalue isGap_nil
      (spellsMembers_gap (isGap_newline (level + 1)) hrest)
    simpa only [List.map_cons, prettyMembers, List.cons_append, List.append_assoc,
      List.nil_append] using hall

/-- A tree of texts and natural numbers is spelled by its lines, at every level of
nesting. -/
theorem Written.spells_pretty {t : Tree} (h : Written t) (level : Nat) :
    Spells (pretty level t) t := by
  induction h generalizing level with
  | null => exact spells_null
  | bool b =>
    cases b with
    | false => exact spells_false
    | true => exact spells_true
  | ofNat n => exact spells_ofNat n
  | ofText s => exact spells_ofText s
  | @array items hitems ih =>
    -- an empty array stays on its line; any other has a line for each item, one level further in
    cases items with
    | nil => exact spells_array_nil
    | cons item items =>
      have hitem := ih item List.mem_cons_self (level + 1)
      have hrest := spells_prettyItems level
        (fun other hmem => ih other (List.mem_cons_of_mem _ hmem)) hitem
      have hall := spells_array (spellsItems_gap (isGap_newline (level + 1)) hrest)
      simpa only [pretty, List.cons_append, List.append_assoc] using hall
  | @ofMembers members hmembers ih =>
    cases members with
    | nil => exact spells_object_nil
    | cons m members =>
      have hvalue := spells_gap isGap_space (ih m List.mem_cons_self (level + 1))
      have hrest := spells_prettyMembers level
        (fun other hmem => ih other (List.mem_cons_of_mem _ hmem)) m.1 hvalue
      have hall := spells_object (spellsMembers_gap (isGap_newline (level + 1)) hrest)
      simpa only [Tree.ofMembers, List.map_cons, pretty, List.cons_append, List.append_assoc,
        List.nil_append] using hall

end Tenure.Json
