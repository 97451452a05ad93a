import Remedy.Patch.Jsx
import Remedy.Proofs.Json.Strings
import Remedy.Proofs.Text.Escaping

/-!
Values as they are written in tags of scripts. Between quotes there are character references and no other escapes; in braces
there is a string of the script, with escapes of its own.

A value in braces stands for itself, whatever it is. One between quotes is written as it is, and so its references are
resolved where it is read.
-/

namespace Remedy

/-! ### Strings of scripts -/

namespace Script

/-- The letters that stand for another character behind a backslash. -/
def letterEscapes : List (Char × Char) :=
  [('b', '\x08'), ('f', '\x0c'), ('n', '\n'), ('r', '\r'), ('t', '\t'), ('v', '\x0b')]

/-- The code of an escape whose mark has been read; two escapes of four digits may write one character. -/
def unicode? : List Char → Option (Nat × List Char)
  | '\x7b' :: cs =>
    let digits := cs.takeWhile Text.isHexDigit
    match digits, cs.drop digits.length with
    | _ :: _, '\x7d' :: rest => some (Text.valueOf 16 digits, rest)
    | _, _ => none
  | cs =>
    match Json.readHex4 cs with
    | none => none
    | some (high, rest) =>
      if 0xD800 ≤ high && high < 0xDC00 then
        match rest with
        | '\\' :: 'u' :: more =>
          match Json.readHex4 more with
          | some (low, after) =>
            if 0xDC00 ≤ low && low < 0xE000 then some (0x10000 + (high - 0xD800) * 0x400 + (low - 0xDC00), after)
            else some (high, rest)
          | none => some (high, rest)
        | _ => some (high, rest)
      else some (high, rest)

/-- The escape that a text after a backslash begins with: what it stands for, and what follows. A broken line goes on. No
character stands for the half of a pair, and octal codes are none in strict scripts. -/
def escape? : List Char → Option (List Char × List Char)
  | [] => none
  | '\r' :: '\n' :: rest => some ([], rest)
  | 'u' :: rest =>
    match unicode? rest with
    | some (code, after) => if code.isValidChar then some ([Char.ofNat code], after) else none
    | none => none
  | 'x' :: rest =>
    match rest with
    | a :: b :: after =>
      match Json.hexValue? a, Json.hexValue? b with
      | some high, some low => some ([Char.ofNat (high * 16 + low)], after)
      | _, _ => none
    | _ => none
  | c :: rest =>
    if Scan.isLineBreak c || c == '\r' then some ([], rest)
    else if c.isDigit then
      if c == '0' && !rest.head?.any Char.isDigit then some (['\x00'], rest) else none
    else some ([(letterEscapes.lookup c).getD c], rest)

/-- The text of a string whose opening quote has been read; the closing quote ends it. -/
def readBody (quote : Char) : Nat → List Char → Option (List Char)
  | 0, _ => none
  | _, [] => none
  | fuel + 1, c :: rest =>
    if c == quote then if rest.isEmpty then some [] else none
    else if c == '\\' then
      match escape? rest with
      | some (text, after) => (readBody quote fuel after).map (text ++ ·)
      | none => none
    else if c == '\n' || c == '\r' then none
    else (readBody quote fuel rest).map (c :: ·)

/-- What a string of a script stands for. -/
def stringValue? : List Char → Option String
  | quote :: rest =>
    if quote == '"' || quote == '\'' then (readBody quote rest.length rest).map String.ofList else none
  | [] => none

/-- Four digits are the code of a character, if it is none of a pair. -/
theorem unicode?_hex4 {n : Nat} (single : n < 0xD800) (rest : List Char) :
    unicode? (Json.hex4 n ++ rest) = some (n, rest) := by
  have read := Json.readHex4_hex4 (Nat.lt_trans single (by decide)) rest
  have apart : (decide (0xD800 ≤ n) && decide (n < 0xDC00)) = false := by simp; omega
  rw [unicode?.eq_def]
  split
  next cs same =>
    -- A brace is no digit.
    have brace := (List.cons.inj same).1 ▸ Json.hexValue?_hexDigit (Nat.mod_lt (n / 4096) (by decide : 0 < 16))
    exact absurd brace (by simp [Json.hexValue?])
  next => simp [read, apart]

/-- An escaped character is itself, or an escape for it that nothing which follows can change. -/
theorem escapeChar_cases (c : Char) :
    (c ≠ '"' ∧ c ≠ '\\' ∧ c ≠ '\n' ∧ c ≠ '\r' ∧ Json.escapeChar false c = [c]) ∨
      ∃ body, Json.escapeChar false c = '\\' :: body ∧ ∀ rest, escape? (body ++ rest) = some ([c], rest) := by
  have known (mark : Char) (read : ∀ rest, escape? (mark :: rest) = some ([c], rest))
      (written : Json.escapeChar false c = ['\\', mark]) :
      ∃ body, Json.escapeChar false c = '\\' :: body ∧ ∀ rest, escape? (body ++ rest) = some ([c], rest) :=
    ⟨[mark], written, read⟩
  -- First the characters that have a letter for themselves, then what else is a control character.
  by_cases quote : c = '"'
  · subst quote
    exact Or.inr (known '"' (fun _ => rfl) rfl)
  by_cases slash : c = '\\'
  · subst slash
    exact Or.inr (known '\\' (fun _ => rfl) rfl)
  by_cases line : c = '\n'
  · subst line
    exact Or.inr (known 'n' (fun _ => rfl) rfl)
  by_cases back : c = '\r'
  · subst back
    exact Or.inr (known 'r' (fun _ => rfl) rfl)
  by_cases tab : c = '\t'
  · subst tab
    exact Or.inr (known 't' (fun _ => rfl) rfl)
  by_cases backspace : c = '\x08'
  · subst backspace
    exact Or.inr (known 'b' (fun _ => rfl) rfl)
  by_cases feed : c = '\x0c'
  · subst feed
    exact Or.inr (known 'f' (fun _ => rfl) rfl)
  simp only [Json.escapeChar, beq_iff_eq, quote, slash, line, back, tab, backspace, feed, if_false]
  split
  next control =>
    refine Or.inr ⟨'u' :: Json.hex4 c.toNat, rfl, fun rest => ?_⟩
    have code := unicode?_hex4 (Nat.lt_trans control (by decide)) rest
    have valid : c.toNat.isValidChar := c.valid
    rw [List.cons_append, escape?, code]
    simp [valid, Char.ofNat_toNat]
  next => exact Or.inl ⟨quote, slash, line, back, rfl⟩

/-- What has been escaped is read back up to the closing quote. -/
theorem readBody_escaped (cs : List Char) {fuel : Nat}
    (enough : (cs.flatMap (Json.escapeChar false) ++ ['"']).length ≤ fuel) :
    readBody '"' fuel (cs.flatMap (Json.escapeChar false) ++ ['"']) = some cs := by
  induction cs generalizing fuel with
  | nil =>
    obtain ⟨fuel, rfl⟩ : ∃ n, fuel = n + 1 := ⟨fuel - 1, by simp at enough; omega⟩
    rfl
  | cons c cs ih =>
    obtain ⟨quote, slash, line, back, alone⟩ | ⟨body, written, read⟩ := escapeChar_cases c
    · rw [List.flatMap_cons, alone, List.append_assoc, List.singleton_append] at enough ⊢
      obtain ⟨fuel, rfl⟩ : ∃ n, fuel = n + 1 := ⟨fuel - 1, by simp at enough; omega⟩
      rw [readBody, ih (Nat.le_of_succ_le_succ enough)]
      simp [quote, slash, line, back]
    · rw [List.flatMap_cons, written, List.append_assoc, List.cons_append] at enough ⊢
      obtain ⟨fuel, rfl⟩ : ∃ n, fuel = n + 1 := ⟨fuel - 1, by simp at enough; omega⟩
      rw [readBody, read]
      have onward := @ih fuel (by
        simp only [List.length_cons, List.length_append] at enough ⊢
        omega)
      simp [onward]

/-- **A string that is written is read back.** -/
theorem stringValue?_quoted (value : String) : stringValue? (Json.quoted false value) = some value := by
  rw [Json.quoted, stringValue?, readBody_escaped _ (Nat.le_refl _)]
  simp

end Script

/-! ### Values in tags -/

namespace Patch.Jsx

/-- What stands between a pair of marks. -/
def between? (opening closing : Char) : List Char → Option (List Char)
  | [] => none
  | c :: rest => if c == opening && rest.getLast? == some closing then some rest.dropLast else none

/-- What a value in a tag denotes: in braces what the string there stands for, and between double quotes, none of which is
inside, the text with its references resolved. -/
def denoted? (text : String) : Option String :=
  match between? '\x7b' '\x7d' text.toList with
  | some inside => Script.stringValue? inside
  | none =>
    match between? '"' '"' text.toList with
    | some inside => if inside.contains '"' then none else some (Text.unescape (String.ofList inside))
    | none => none

/-- What double quotes cannot hold. -/
def isBraced (value : String) : Bool := value.toList.any fun c => c == '"' || c == '\n'

theorem literal_eq (value : String) : literal value =
    if isBraced value then String.ofList ('\x7b' :: (Json.quoted false value ++ ['\x7d'])) else "\"" ++ value ++ "\"" := rfl

theorem between?_enclosed (opening closing : Char) (inside : List Char) :
    between? opening closing (opening :: (inside ++ [closing])) = some inside := by
  rw [between?, List.getLast?_concat, List.dropLast_concat]
  simp

theorem literal_plain {value : String} (plain : isBraced value = false) :
    (literal value).toList = '"' :: (value.toList ++ ['"']) := by
  rw [literal_eq, plain]
  simp

/-- **What a value denotes where it is written**: itself in braces, and between quotes what becomes of it when its references
are resolved. -/
theorem denoted?_literal (value : String) :
    denoted? (literal value) = some (if isBraced value then value else Text.unescape value) := by
  cases braced : isBraced value with
  | true =>
    have text : (literal value).toList = '\x7b' :: (Json.quoted false value ++ ['\x7d']) := by
      rw [literal_eq, braced, if_pos rfl, String.toList_ofList]
    rw [denoted?, text, between?_enclosed, if_pos rfl]
    exact Script.stringValue?_quoted value
  | false =>
    have noQuote : value.toList.contains '"' = false := by
      refine Bool.eq_false_iff.mpr fun quote => ?_
      exact List.any_eq_false.mp braced '"' (List.contains_iff_mem.mp quote) rfl
    rw [denoted?, literal_plain braced, between?_enclosed]
    simp only [between?, noQuote, String.ofList_toList]
    rfl

/-- The text between the quotes of a value that has been written. -/
theorem unquoted_literal {source : Text.Bytes} {s : Node} {value : String} (text : s.textIn source = literal value)
    (plain : isBraced value = false) : Remedy.Jsx.unquoted source s = value := by
  rw [Remedy.Jsx.unquoted, text, literal_plain plain, List.drop_one, List.tail_cons, List.dropLast_concat,
    String.ofList_toList]

/-- **What written values denote.** In braces a value stands for itself. Between quotes it is read with its references
resolved, both where it is read as markup and where attributes are reported, so it stands for itself exactly if nothing in it
is a reference. -/
theorem literals_denote (value : String) :
    denoted? (literal value) = some (if isBraced value then value else Text.unescape value) ∧
    (denoted? (literal value) = some value ↔ isBraced value = true ∨ Text.unescape value = value) ∧
    ('&' ∉ value.toList → denoted? (literal value) = some value) ∧
    ∀ (source : Text.Bytes) (s : Node), s.textIn source = literal value → isBraced value = false →
      denoted? (literal value) = some (Text.unescape (Remedy.Jsx.unquoted source s)) := by
  refine ⟨denoted?_literal value, ?_, fun free => ?_, fun source s text plain => ?_⟩
  · rw [denoted?_literal, Option.some.injEq]
    cases isBraced value <;> simp
  · rw [denoted?_literal, Text.unescape_of_not_mem free, ite_self]
  · rw [denoted?_literal, plain, unquoted_literal text plain, if_neg Bool.false_ne_true]

/-- A value with an apostrophe and a backslash is reported as it is. -/
theorem path_denoted : denoted? (literal "it's C:\\dir") =
    some (Text.unescape (Remedy.Jsx.unquoted (Text.encode "\"it's C:\\dir\"".toList)
      (.mk "string" true false false 0 13 none []))) :=
  (literals_denote "it's C:\\dir").2.2.2 _ _ (by decide +kernel) (by decide +kernel)

/-- A value that is the text of a reference comes out as what the reference stands for. -/
theorem reference_denoted : ¬ ∀ value : String, denoted? (literal value) = some value := by
  intro same
  have denoted := same (Text.escapeAttribute "&" .double)
  rw [denoted?_literal, if_neg (by decide), Text.unescape_escapeAttribute] at denoted
  exact absurd (Option.some.inj denoted) (by decide)

end Patch.Jsx

end Remedy
