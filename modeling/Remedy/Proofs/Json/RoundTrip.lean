import Remedy.Proofs.Json.Fields
import Remedy.Proofs.Json.Reals
import Remedy.Proofs.Json.Strings

/-!
Values are read back from what they are written as, with spaces or without, with all characters or with those of ASCII alone.

A value ends where what follows cannot go on with a number, and commas and brackets never do.
-/

namespace Remedy.Json

mutual

/-- A value as programs have it: no object has a key twice, and every real number has its one form. -/
def Proper : Json → Prop
  | .real x => x.Canonical
  | .arr items => ProperAll items
  | .obj fields => (fields.map (·.1)).Nodup ∧ ProperFields fields
  | _ => True

def ProperAll : List Json → Prop
  | [] => True
  | v :: rest => v.Proper ∧ ProperAll rest

def ProperFields : List (String × Json) → Prop
  | [] => True
  | (_, v) :: rest => v.Proper ∧ ProperFields rest

end

theorem properAll_iff {items : List Json} : ProperAll items ↔ ∀ v ∈ items, v.Proper := by
  induction items with
  | nil => simp [ProperAll]
  | cons v items told => rw [ProperAll, told, List.forall_mem_cons]

theorem properAll_texts (ss : List String) : ProperAll (ss.map .str) := by
  rw [properAll_iff, List.forall_mem_map]
  exact fun _ _ => trivial

theorem properFields_iff {fields : List (String × Json)} : ProperFields fields ↔ ∀ kv ∈ fields, kv.2.Proper := by
  induction fields with
  | nil => simp [ProperFields]
  | cons kv fields told => rw [ProperFields, told, List.forall_mem_cons]

/-! ### Blanks -/

theorem skipSpace_cons {c : Char} (other : isSpace c = false) (cs : List Char) : skipSpace (c :: cs) = c :: cs :=
  List.dropWhile_cons_of_neg (by simp [other])

theorem skipSpace_gap {c : Char} (other : isSpace c = false) (style : Style) (cs : List Char) :
    skipSpace (style.gap ++ c :: cs) = c :: cs := by
  rw [Style.gap]
  split
  · exact skipSpace_cons other cs
  · exact skipSpace_cons other cs

/-! ### How values begin -/

/-- What values other than numbers begin with, and the sign of a number. -/
def marks : List Char := ['"', '[', '\x7b', 'n', 't', 'f', 'N', 'I', '-']

theorem readValue_other (fuel : Nat) {c : Char} (other : c ∉ marks) (cs : List Char) :
    readValue (fuel + 1) (c :: cs) = readNumber false (c :: cs) := by
  rw [readValue]
  all_goals
    rintro _ ⟨⟩
    exact other (by decide)

theorem not_mem_marks {c : Char} (digit : c.isDigit = true) : c ∉ marks := by
  intro member
  simp only [marks, List.mem_cons, List.not_mem_nil, or_false] at member
  rcases member with rfl | rfl | rfl | rfl | rfl | rfl | rfl | rfl | rfl <;> exact absurd digit (by decide)

theorem readNumber_none {c : Char} (other : c.isDigit = false) (negative : Bool) (cs : List Char) :
    readNumber negative (c :: cs) = none := by
  simp [readNumber, readWhole, other]

/-- A value begins with no blank and with no bracket that ends one. -/
theorem begins_of_readValue {fuel : Nat} {cs : List Char} {read : Json × List Char} (h : readValue fuel cs = some read) :
    ∃ c more, cs = c :: more ∧ isSpace c = false ∧ c ≠ ']' ∧ c ≠ '\x7d' := by
  cases fuel with
  | zero => cases h
  | succ fuel =>
    cases cs with
    | nil => cases h
    | cons c more =>
      -- None of these is a mark or a digit, so there would be neither a value nor a number.
      have impossible (other : c ∉ marks) (letter : c.isDigit = false) : False := by
        rw [readValue_other fuel other, readNumber_none letter] at h
        cases h
      refine ⟨c, more, rfl, ?_, ?_, ?_⟩
      · by_contra space
        simp only [isSpace, Bool.not_eq_false, Bool.or_eq_true, beq_iff_eq] at space
        rcases space with ((rfl | rfl) | rfl) | rfl <;> exact impossible (by decide) (by decide)
      · rintro rfl
        exact impossible (by decide) (by decide)
      · rintro rfl
        exact impossible (by decide) (by decide)

/-! ### Single values -/

section

variable (fuel : Nat) (rest : List Char)

theorem readString_quoted (ascii : Bool) (s : String) :
    readString ((s.toList.flatMap (escapeChar ascii) ++ '"' :: rest).length + 1)
      (s.toList.flatMap (escapeChar ascii) ++ '"' :: rest) = some (s.toList, rest) := by
  refine readString_escaped ascii _ _ ?_
  have length := length_le_escaped ascii s.toList
  rw [List.length_append]
  omega

theorem readValue_quoted (ascii : Bool) (s : String) :
    readValue (fuel + 1) (quoted ascii s ++ rest) = some (.str s, rest) := by
  rw [quoted, List.cons_append, List.append_assoc, List.singleton_append, readValue, readString_quoted]
  simp

theorem afterWord_append (word : String) : afterWord word (word.toList ++ rest) = some rest := by
  rw [afterWord, if_pos (by simp), ← String.length_toList, List.drop_left]

theorem readValue_null : readValue (fuel + 1) ("null".toList ++ rest) = some (.null, rest) :=
  congrArg (Option.map _) (afterWord_append rest "null")

theorem readValue_bool (b : Bool) : readValue (fuel + 1) ((if b then "true" else "false").toList ++ rest) = some (.bool b, rest) := by
  cases b with
  | false => exact congrArg (Option.map _) (afterWord_append rest "false")
  | true => exact congrArg (Option.map _) (afterWord_append rest "true")

theorem readValue_numeral {n : Numeral} (valid : n.Valid) {rest : List Char} (ends : Ends isNumberPart rest) (negative : Bool) :
    readValue (fuel + 1) (signText negative ++ (n.text ++ rest)) = some (n.value negative, rest) := by
  have read := Numeral.readNumber_text valid ends negative
  obtain ⟨c, more, whole⟩ := List.exists_cons_of_ne_nil valid.nonempty
  have digit : c.isDigit = true := valid.whole c (whole ▸ List.mem_cons_self)
  obtain ⟨after, first⟩ : ∃ after, n.text ++ rest = c :: after := ⟨_, by rw [Numeral.text, whole]; rfl⟩
  rw [first] at read ⊢
  cases negative with
  | false => exact (readValue_other fuel (not_mem_marks digit) after).trans read
  | true =>
    have word : afterWord "Infinity" (c :: after) = none := by
      rw [afterWord, if_neg]
      intro begins
      obtain ⟨_, same⟩ := List.isPrefixOf_iff_prefix.mp begins
      obtain rfl := (List.cons.inj same).1
      exact absurd digit (by decide)
    rw [signText, if_pos rfl, List.singleton_append, readValue, word]
    exact read

theorem exists_toString (n : Int) :
    ∃ negative m, (toString n).toList = signText negative ++ (Numeral.ofNat m).text ∧ (Numeral.ofNat m).value negative = .int n := by
  have text (m : Nat) : (Numeral.ofNat m).text = Nat.toDigits 10 m := by simp [Numeral.text, Numeral.ofNat, Numeral.fractionText, Numeral.powerText]
  have value (m : Nat) (negative : Bool) : (Numeral.ofNat m).value negative = .int (if negative then -(m : Int) else m) := by
    simp [Numeral.value, Numeral.ofNat, digitsValue_toDigits]
  cases n with
  | ofNat m =>
    refine ⟨false, m, ?_, value m false⟩
    rw [text, ← toList_toString]
    rfl
  | negSucc m =>
    refine ⟨true, m + 1, ?_, value (m + 1) true⟩
    rw [text, ← toList_toString]
    exact String.toList_append (s := "-")

theorem readValue_int (n : Int) {rest : List Char} (ends : Ends isNumberPart rest) :
    readValue (fuel + 1) ((toString n).toList ++ rest) = some (.int n, rest) := by
  obtain ⟨negative, m, text, value⟩ := exists_toString n
  rw [text, List.append_assoc, readValue_numeral fuel (Numeral.valid_ofNat m) ends, value]

/-- **A real number is read back from its text**, which has as few digits as can be. -/
theorem readValue_real {x : Binary64} (canonical : x.Canonical) {rest : List Char} (ends : Ends isNumberPart rest) :
    readValue (fuel + 1) ((realText x).toList ++ rest) = some (.real x, rest) := by
  cases x with
  | nan => exact congrArg (Option.map _) (afterWord_append rest "NaN")
  | infinite negative =>
    cases negative with
    | false => exact congrArg (Option.map _) (afterWord_append rest "Infinity")
    | true =>
      change readValue (fuel + 1) ('-' :: ("Infinity".toList ++ rest)) = _
      rw [readValue, afterWord_append]
  | finite negative m e =>
    obtain ⟨n, text, valid, value⟩ := exists_numeral canonical
    rw [text, List.append_assoc, readValue_numeral fuel valid ends, value]

end

/-! ### Items and fields -/

section

variable {fuel : Nat} {cs rest tail : List Char} {v : Json}

theorem readItems_last (read : readValue fuel cs = some (v, ']' :: rest)) : readItems (fuel + 1) cs = some (.arr [v], rest) := by
  have bracket : skipSpace (']' :: rest) = ']' :: rest := skipSpace_cons (by decide) rest
  simp only [readItems, read, Option.bind_eq_bind, Option.bind_some, bracket]
  rfl

theorem begins_of_readItems {read : Json × List Char} (h : readItems fuel cs = some read) :
    ∃ c more, cs = c :: more ∧ isSpace c = false ∧ c ≠ ']' ∧ c ≠ '\x7d' := by
  cases fuel with
  | zero => cases h
  | succ fuel =>
    rw [readItems, Option.bind_eq_bind, Option.bind_eq_some_iff] at h
    obtain ⟨_, first, _⟩ := h
    exact begins_of_readValue first

/-- The items of an array are read behind its bracket, for they do not begin with the other one. -/
theorem readValue_items {items : Json} (read : readItems fuel cs = some (items, rest)) :
    readValue (fuel + 1) ('[' :: cs) = some (items, rest) := by
  obtain ⟨c, more, rfl, blank, bracket, _⟩ := begins_of_readItems read
  rw [readValue, skipSpace_cons blank]
  split
  next same => exact absurd (List.cons.inj same).1 bracket
  next => exact read

/-- The fields of an object likewise: they begin with a quote. -/
theorem readValue_fields {fields : List (String × Json)} (read : readFields fuel [] cs = some (fields, rest)) :
    readValue (fuel + 1) ('\x7b' :: cs) = some (.obj fields, rest) := by
  obtain ⟨more, rfl⟩ : ∃ more, cs = '"' :: more := by
    cases fuel with
    | zero => cases read
    | succ fuel =>
      by_contra other
      rw [readFields] at read
      · cases read
      · exact fun more same => other ⟨more, same⟩
  have quote : skipSpace ('"' :: more) = '"' :: more := skipSpace_cons (by decide) more
  rw [readValue, quote]
  exact congrArg (Option.map fun read => (Json.obj read.1, read.2)) read

theorem readItems_more (read : readValue fuel cs = some (v, ',' :: tail)) {items : List Json}
    (more : readItems fuel (skipSpace tail) = some (.arr items, rest)) : readItems (fuel + 1) cs = some (.arr (v :: items), rest) := by
  have comma : skipSpace (',' :: tail) = ',' :: tail := skipSpace_cons (by decide) tail
  simp only [readItems, read, Option.bind_eq_bind, Option.bind_some, comma, more]
  rfl

variable (style : Style) (k : String) (before : List (String × Json))

theorem readFields_last (read : readValue fuel cs = some (v, '\x7d' :: rest)) :
    readFields (fuel + 1) before (quoted style.ascii k ++ ':' :: (style.gap ++ cs)) = some (put before k v, rest) := by
  obtain ⟨c, more, rfl, blank, _⟩ := begins_of_readValue read
  have colon (xs : List Char) : skipSpace (':' :: xs) = ':' :: xs := skipSpace_cons (by decide) xs
  have brace : skipSpace ('\x7d' :: rest) = '\x7d' :: rest := skipSpace_cons (by decide) rest
  rw [quoted, List.cons_append, List.append_assoc, List.singleton_append, readFields]
  simp only [readString_quoted, Option.bind_eq_bind, Option.bind_some, colon, skipSpace_gap blank, read, brace, String.ofList_toList]
  rfl

theorem readFields_more (read : readValue fuel cs = some (v, ',' :: tail)) :
    readFields (fuel + 1) before (quoted style.ascii k ++ ':' :: (style.gap ++ cs)) =
      readFields fuel (put before k v) (skipSpace tail) := by
  obtain ⟨c, more, rfl, blank, _⟩ := begins_of_readValue read
  have colon (xs : List Char) : skipSpace (':' :: xs) = ':' :: xs := skipSpace_cons (by decide) xs
  have comma : skipSpace (',' :: tail) = ',' :: tail := skipSpace_cons (by decide) tail
  rw [quoted, List.cons_append, List.append_assoc, List.singleton_append, readFields]
  simp only [readString_quoted, Option.bind_eq_bind, Option.bind_some, colon, skipSpace_gap blank, read, comma, String.ofList_toList]

end

/-! ### All values

Two steps for each character are enough: one for a value, and one for the list of items or fields that it stands in. -/

theorem ends_comma (rest : List Char) : Ends isNumberPart (',' :: rest) := ends_cons (by decide)

theorem ends_bracket (rest : List Char) : Ends isNumberPart (']' :: rest) := ends_cons (by decide)

theorem ends_brace (rest : List Char) : Ends isNumberPart ('\x7d' :: rest) := ends_cons (by decide)

theorem new_of_nodup {before fields : List (String × Json)} {k : String} {v : Json}
    (differ : ((before ++ (k, v) :: fields).map (·.1)).Nodup) : ∀ kv ∈ before, kv.1 ≠ k := by
  intro kv member same
  rw [List.map_append, List.map_cons] at differ
  exact (List.nodup_append.mp differ).2.2 _ (List.mem_map_of_mem member) _ List.mem_cons_self same

mutual

/-- **What a value is written as is read as this value**, up to where it ends. -/
theorem readValue_write (style : Style) : (v : Json) → v.Proper → ∀ {fuel : Nat} {rest : List Char}, Ends isNumberPart rest →
    2 * (write style v).length ≤ fuel → readValue (fuel + 1) (write style v ++ rest) = some (v, rest)
  | .null, _, fuel, rest, _, _ => readValue_null fuel rest
  | .bool b, _, fuel, rest, _, _ => readValue_bool fuel rest b
  | .int n, _, fuel, _, ends, _ => readValue_int fuel n ends
  | .real _, proper, fuel, _, ends, _ => readValue_real fuel proper ends
  | .str s, _, fuel, rest, _, _ => readValue_quoted fuel rest style.ascii s
  | .arr [], _, fuel, rest, _, _ => by
    have bracket : skipSpace (']' :: rest) = ']' :: rest := skipSpace_cons (by decide) rest
    simp [write, writeItems, readValue, bracket]
  | .arr (v :: items), proper, fuel, rest, _, enough => by
    simp only [write, List.length_cons, List.length_append, List.length_nil] at enough
    obtain ⟨fuel, rfl⟩ := Nat.exists_eq_add_one.mpr (show 0 < fuel by omega)
    rw [write, List.cons_append, List.append_assoc, List.singleton_append]
    exact readValue_items (readItems_write style (v :: items) (List.cons_ne_nil v items) proper (by omega))
  | .obj [], _, fuel, rest, _, _ => by
    have brace : skipSpace ('\x7d' :: rest) = '\x7d' :: rest := skipSpace_cons (by decide) rest
    simp [write, writeFields, readValue, brace]
  | .obj ((k, v) :: fields), proper, fuel, rest, _, enough => by
    simp only [write, List.length_cons, List.length_append, List.length_nil] at enough
    obtain ⟨fuel, rfl⟩ := Nat.exists_eq_add_one.mpr (show 0 < fuel by omega)
    rw [write, List.cons_append, List.append_assoc, List.singleton_append]
    exact readValue_fields (readFields_write style ((k, v) :: fields) (List.cons_ne_nil _ _) proper.2 proper.1 (by omega))

theorem readItems_write (style : Style) : (items : List Json) → items ≠ [] → ProperAll items →
    ∀ {fuel : Nat} {rest : List Char}, 2 * (writeItems style items).length + 1 ≤ fuel →
    readItems (fuel + 1) (writeItems style items ++ ']' :: rest) = some (.arr items, rest)
  | [], nonempty, _, _, _, _ => absurd rfl nonempty
  | [v], _, proper, fuel, rest, enough => by
    obtain ⟨fuel, rfl⟩ := Nat.exists_eq_add_one.mpr (show 0 < fuel by omega)
    exact readItems_last (readValue_write style v proper.1 (ends_bracket rest) (by simp only [writeItems] at enough; omega))
  | v :: w :: items, _, proper, fuel, rest, enough => by
    simp only [writeItems, List.length_append, List.length_cons] at enough
    obtain ⟨fuel, rfl⟩ := Nat.exists_eq_add_one.mpr (show 0 < fuel by omega)
    -- What follows the comma begins with no blank, so only the gap is skipped.
    have more := @readItems_write style (w :: items) (List.cons_ne_nil w items) proper.2 fuel rest (by omega)
    obtain ⟨c, others, begins, blank, _⟩ := begins_of_readItems more
    have whole : writeItems style (v :: w :: items) ++ ']' :: rest =
        write style v ++ ',' :: (style.gap ++ (writeItems style (w :: items) ++ ']' :: rest)) := by
      simp only [writeItems, List.append_assoc, List.cons_append]
    rw [whole]
    refine readItems_more (readValue_write style v proper.1 (ends_comma _) (by omega)) ?_
    rw [begins, skipSpace_gap blank, ← begins]
    exact more

theorem readFields_write (style : Style) : (fields : List (String × Json)) → fields ≠ [] → ProperFields fields →
    ∀ {before : List (String × Json)}, ((before ++ fields).map (·.1)).Nodup →
    ∀ {fuel : Nat} {rest : List Char}, 2 * (writeFields style fields).length + 1 ≤ fuel →
    readFields (fuel + 1) before (writeFields style fields ++ '\x7d' :: rest) = some (before ++ fields, rest)
  | [], nonempty, _, _, _, _, _, _ => absurd rfl nonempty
  | [(k, v)], _, proper, before, differ, fuel, rest, enough => by
    simp only [writeFields, List.length_append, List.length_cons] at enough
    obtain ⟨fuel, rfl⟩ := Nat.exists_eq_add_one.mpr (show 0 < fuel by omega)
    have whole : writeFields style [(k, v)] ++ '\x7d' :: rest =
        quoted style.ascii k ++ ':' :: (style.gap ++ (write style v ++ '\x7d' :: rest)) := by
      simp only [writeFields, List.append_assoc, List.cons_append]
    rw [whole, readFields_last style k before (readValue_write style v proper.1 (ends_brace rest) (by omega)),
      put_of_ne (new_of_nodup differ)]
  | (k, v) :: (l, w) :: fields, _, proper, before, differ, fuel, rest, enough => by
    simp only [writeFields, List.length_append, List.length_cons] at enough
    obtain ⟨fuel, rfl⟩ := Nat.exists_eq_add_one.mpr (show 0 < fuel by omega)
    -- No key was there before, so each comes behind those that were read.
    have whole : writeFields style ((k, v) :: (l, w) :: fields) ++ '\x7d' :: rest =
        quoted style.ascii k ++ ':' :: (style.gap ++ (write style v ++ ',' ::
          (style.gap ++ (writeFields style ((l, w) :: fields) ++ '\x7d' :: rest)))) := by
      simp only [writeFields, List.append_assoc, List.cons_append]
    rw [whole, readFields_more style k before (readValue_write style v proper.1 (ends_comma _) (by omega)),
      put_of_ne (new_of_nodup differ)]
    have begins : ∃ more, writeFields style ((l, w) :: fields) = '"' :: more := by cases fields <;> exact ⟨_, rfl⟩
    obtain ⟨others, begins⟩ := begins
    rw [begins, List.cons_append, skipSpace_gap (by decide), ← List.cons_append, ← begins,
      readFields_write style ((l, w) :: fields) (List.cons_ne_nil _ _) proper.2
        (by rwa [List.append_assoc, List.singleton_append]) (by omega),
      List.append_assoc, List.singleton_append]

end

/-! ### Texts -/

section

variable {v w : Json}

/-- **The text of a value is read as this value.** -/
theorem parse?_write (style : Style) (proper : v.Proper) : parse? (String.ofList (write style v)) = some v := by
  have read := readValue_write style v proper ends_nil (Nat.le_succ (2 * (write style v).length))
  rw [List.append_nil] at read
  obtain ⟨c, more, begins, blank, _⟩ := begins_of_readValue read
  have whole : skipSpace (write style v) = write style v := by rw [begins, skipSpace_cons blank]
  simp only [parse?, String.toList_ofList, whole, read]
  rfl

theorem parse?_render (proper : v.Proper) : parse? v.render = some v := parse?_write ⟨true, true⟩ proper

theorem parse?_compact (proper : v.Proper) : parse? v.compact = some v := parse?_write ⟨false, false⟩ proper

/-- Two values have one text only if they are the same. -/
theorem compact_inj (proper : v.Proper) (proper' : w.Proper) : v.compact = w.compact ↔ v = w := by
  refine ⟨fun same => ?_, congrArg compact⟩
  have read := parse?_compact proper
  rw [same, parse?_compact proper'] at read
  exact (Option.some.inj read).symm

end

end Remedy.Json
