import Remedy.Json.Reader
import Remedy.Json.Writer

/-!
Strings of JSON are read back from what they are written as, whichever characters are escaped, and nothing that follows the
closing quote can change that.
-/

namespace Remedy.Json

/-! ### Escapes of four digits -/

theorem hexValue?_hexDigit {n : Nat} (digit : n < 16) : hexValue? (hexDigit n) = some n := by
  revert n
  decide

theorem readHex4_hex4 {n : Nat} (short : n < 0x10000) (rest : List Char) : readHex4 (hex4 n ++ rest) = some (n, rest) := by
  have digit (m : Nat) : hexValue? (hexDigit (m % 16)) = some (m % 16) :=
    hexValue?_hexDigit (Nat.mod_lt m (by decide))
  have sum : ((n / 4096 % 16 * 16 + n / 256 % 16) * 16 + n / 16 % 16) * 16 + n % 16 = n := by omega
  simp only [hex4, List.cons_append, List.nil_append, readHex4, digit, Option.bind_eq_bind, Option.bind_some, sum,
    Option.pure_def]

/-- No character has the code of half a pair. -/
theorem not_half (c : Char) : ¬ (0xD800 ≤ c.toNat ∧ c.toNat < 0xE000) := by
  have valid : c.toNat < 0xD800 ∨ 0xDFFF < c.toNat ∧ c.toNat < 0x110000 := c.valid
  omega

theorem readUnicode_single {c : Char} (short : c.toNat < 0x10000) (rest : List Char) :
    readUnicode (hex4 c.toNat ++ rest) = some (c, rest) := by
  have whole := not_half c
  have high : ¬ (0xD800 ≤ c.toNat ∧ c.toNat < 0xDC00) := by omega
  have low : ¬ (0xDC00 ≤ c.toNat ∧ c.toNat < 0xE000) := by omega
  simp [readUnicode, readHex4_hex4 short, high, low, Char.ofNat_toNat]

theorem readUnicode_halves {high low : Nat} (isHigh : 0xD800 ≤ high ∧ high < 0xDC00) (isLow : 0xDC00 ≤ low ∧ low < 0xE000)
    (rest : List Char) :
    readUnicode (hex4 high ++ (unicodeEscape low ++ rest)) =
      some (Char.ofNat (0x10000 + (high - 0xD800) * 0x400 + (low - 0xDC00)), rest) := by
  rw [readUnicode, readHex4_hex4 (by omega)]
  simp only [Option.bind_eq_bind, Option.bind_some, isHigh, unicodeEscape, List.cons_append,
    readHex4_hex4 (show low < 0x10000 by omega), isLow, decide_true, Bool.and_self, if_true, Option.pure_def]

/-- Two escapes write one character beyond the first 65536. -/
theorem readUnicode_pair {c : Char} (long : 0x10000 ≤ c.toNat) (rest : List Char) :
    readUnicode (hex4 (0xD800 + (c.toNat - 0x10000) / 0x400) ++
      (unicodeEscape (0xDC00 + (c.toNat - 0x10000) % 0x400) ++ rest)) = some (c, rest) := by
  have valid : c.toNat < 0xD800 ∨ 0xDFFF < c.toNat ∧ c.toNat < 0x110000 := c.valid
  rw [readUnicode_halves (by omega) (by omega)]
  have code : 0x10000 + (0xD800 + (c.toNat - 0x10000) / 0x400 - 0xD800) * 0x400 +
      (0xDC00 + (c.toNat - 0x10000) % 0x400 - 0xDC00) = c.toNat := by omega
  rw [code, Char.ofNat_toNat]

/-! ### Characters -/

/-- The ways in which a character may be written inside a string. -/
inductive Escaped (ascii : Bool) (c : Char) : List Char → Prop
  /-- A letter behind a backslash stands for it. -/
  | letter {mark : Char} (known : ("\"\\/bfnrt".toList.zip "\"\\/\x08\x0c\n\r\t".toList).lookup mark = some c)
    (printable : 0x20 ≤ mark.toNat ∧ mark.toNat < 0x7F) : Escaped ascii c ['\\', mark]
  | plain (quote : c ≠ '"') (slash : c ≠ '\\') (control : ¬ c.toNat < 0x20) (short : ascii = true → c.toNat < 0x7F) :
    Escaped ascii c [c]
  | single (short : c.toNat < 0x10000) : Escaped ascii c (unicodeEscape c.toNat)
  | pair (long : 0x10000 ≤ c.toNat) :
    Escaped ascii c (unicodeEscape (0xD800 + (c.toNat - 0x10000) / 0x400) ++ unicodeEscape (0xDC00 + (c.toNat - 0x10000) % 0x400))

theorem escaped_escapeChar (ascii : Bool) (c : Char) : Escaped ascii c (escapeChar ascii c) := by
  by_cases quote : c = '"'
  · exact quote ▸ .letter rfl (by decide)
  by_cases slash : c = '\\'
  · exact slash ▸ .letter rfl (by decide)
  by_cases line : c = '\n'
  · exact line ▸ .letter rfl (by decide)
  by_cases turn : c = '\r'
  · exact turn ▸ .letter rfl (by decide)
  by_cases tab : c = '\t'
  · exact tab ▸ .letter rfl (by decide)
  by_cases back : c = '\x08'
  · exact back ▸ .letter rfl (by decide)
  by_cases feed : c = '\x0c'
  · exact feed ▸ .letter rfl (by decide)
  -- Of the others, control characters and those beyond ASCII are written by their codes.
  simp only [escapeChar, beq_iff_eq, quote, slash, line, turn, tab, back, feed, if_false, Bool.or_eq_true, Bool.not_eq_true',
    decide_eq_true_eq]
  split
  next low => exact .single (by omega)
  next low =>
    split
    next short => exact .plain quote slash low fun given => short.resolve_left (by simp [given])
    next =>
      split
      next short => exact .single short
      next long => exact .pair (by omega)

section

variable (fuel : Nat) (rest : List Char)

theorem readString_close : readString (fuel + 1) ('"' :: rest) = some ([], rest) := rfl

/-- What a character is read as, put before what is read behind it. -/
def prepend (c : Char) (read : Option (List Char × List Char)) : Option (List Char × List Char) :=
  read.map fun (text, rest) => (c :: text, rest)

theorem readString_unicode {c : Char} {cs : List Char} (read : readUnicode cs = some (c, rest)) :
    readString (fuel + 1) ('\\' :: 'u' :: cs) = prepend c (readString fuel rest) := by
  simp only [readString, read, Option.bind_eq_bind, Option.bind_some, prepend]
  cases readString fuel rest <;> rfl

theorem readString_letter {mark c : Char}
    (known : ("\"\\/bfnrt".toList.zip "\"\\/\x08\x0c\n\r\t".toList).lookup mark = some c) :
    readString (fuel + 1) ('\\' :: mark :: rest) = prepend c (readString fuel rest) := by
  rw [readString]
  · simp only [known, Option.bind_eq_bind, Option.bind_some, prepend]
    cases readString fuel rest <;> rfl
  · rintro rfl
    cases known

theorem readString_plain {c : Char} (quote : c ≠ '"') (slash : c ≠ '\\') (control : ¬ c.toNat < 0x20) :
    readString (fuel + 1) (c :: rest) = prepend c (readString fuel rest) := by
  rw [readString]
  · simp only [control, slash, prepend, decide_false, beq_iff_eq, Bool.false_or, if_false, Option.bind_eq_bind]
    cases readString fuel rest <;> rfl
  · exact fun same => quote same
  · exact fun _ same _ => slash same
  · exact fun _ _ same _ => slash same

/-- One character is read back, whatever comes behind it. -/
theorem readString_escapeChar (ascii : Bool) (c : Char) :
    readString (fuel + 1) (escapeChar ascii c ++ rest) = prepend c (readString fuel rest) := by
  have escaped := escaped_escapeChar ascii c
  generalize escapeChar ascii c = cs at escaped ⊢
  cases escaped with
  | letter known => exact readString_letter fuel rest known
  | plain quote slash control => exact readString_plain fuel rest quote slash control
  | single short => exact readString_unicode fuel rest (readUnicode_single short rest)
  | pair long =>
    rw [List.append_assoc]
    exact readString_unicode fuel rest (readUnicode_pair long rest)

end

theorem escapeChar_ne_nil (ascii : Bool) (c : Char) : escapeChar ascii c ≠ [] := by
  have escaped := escaped_escapeChar ascii c
  generalize escapeChar ascii c = cs at escaped ⊢
  cases escaped <;> exact List.cons_ne_nil _ _

theorem length_le_escaped (ascii : Bool) (cs : List Char) : cs.length ≤ (cs.flatMap (escapeChar ascii)).length := by
  induction cs with
  | nil => exact Nat.le_refl 0
  | cons c cs told =>
    have nonempty := List.length_pos_iff.mpr (escapeChar_ne_nil ascii c)
    rw [List.flatMap_cons, List.length_append, List.length_cons]
    omega

/-- The text of a string is read back up to its closing quote. -/
theorem readString_escaped (ascii : Bool) (cs rest : List Char) {fuel : Nat} (enough : cs.length < fuel) :
    readString fuel (cs.flatMap (escapeChar ascii) ++ '"' :: rest) = some (cs, rest) := by
  induction cs generalizing fuel with
  | nil =>
    obtain ⟨fuel, rfl⟩ := Nat.exists_eq_succ_of_ne_zero (Nat.ne_of_gt enough)
    exact readString_close fuel rest
  | cons c cs told =>
    obtain ⟨fuel, rfl⟩ := Nat.exists_eq_succ_of_ne_zero (Nat.ne_of_gt (Nat.zero_lt_of_lt enough))
    rw [List.flatMap_cons, List.append_assoc, readString_escapeChar, told (Nat.lt_of_succ_lt_succ enough)]
    rfl

end Remedy.Json
