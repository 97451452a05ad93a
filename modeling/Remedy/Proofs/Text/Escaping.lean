import Remedy.Text.Unescape

/-!
Values between quotes. An escaped value holds none of the quotes that it is escaped for, and its references, once they are
resolved, give the value back.

Every ampersand that escaping leaves begins a reference with a semicolon of its own, so no name goes on into what follows,
whatever that is.
-/

namespace Remedy.Text

/-! ### References that end in a semicolon -/

/-- A known name with its semicolon stands for its text, whatever follows. -/
theorem reference?_named {name : List Char} (nonempty : name ≠ []) (short : name.length ≤ 32)
    (part : ∀ c ∈ name, isNameChar c = true) {text : List Char} (known : lookupReference (name ++ [';']) = some text)
    (rest : List Char) : reference? (name ++ ';' :: rest) = some (text, rest) := by
  have run : ((name ++ ';' :: rest).takeWhile isNameChar).take 32 = name := by
    have stops : (';' :: rest).takeWhile isNameChar = [] := List.takeWhile_cons_of_neg (by simp [isNameChar])
    rw [List.takeWhile_append_of_pos part, stops, List.append_nil, List.take_of_length_le short]
  have after : (name ++ ';' :: rest).drop (name ++ [';']).length = rest := by
    rw [List.append_cons name ';' rest, List.drop_left]
  rw [reference?.eq_def]
  split
  next digits same =>
    -- The first character is part of a name, so it is no number sign.
    cases name with
    | nil => exact absurd rfl nonempty
    | cons c more =>
      obtain rfl := (List.cons.inj same).1
      exact absurd (part '#' List.mem_cons_self) (by simp [isNameChar])
  next =>
    simp only [run, List.isEmpty_eq_false_iff.mpr nonempty, Bool.false_eq_true, if_false, List.drop_left, after, known]

/-- A number with its semicolon stands for its character, whatever follows. -/
theorem reference?_decimal {digits : List Char} (nonempty : digits ≠ []) (part : ∀ c ∈ digits, c.isDigit = true)
    (rest : List Char) : reference? ('#' :: (digits ++ ';' :: rest)) = some (ofCode (valueOf 10 digits), rest) := by
  have stops : (';' :: rest).takeWhile Char.isDigit = [] := List.takeWhile_cons_of_neg (by decide)
  have run : (digits ++ ';' :: rest).takeWhile Char.isDigit = digits := by
    rw [List.takeWhile_append_of_pos part, stops, List.append_nil]
  have after : (digits ++ ';' :: rest).dropWhile Char.isDigit = ';' :: rest := by
    rw [List.dropWhile_append_of_pos part, List.dropWhile_cons_of_neg (by decide)]
  simp only [reference?, run, after, List.isEmpty_eq_false_iff.mpr nonempty, Bool.not_false, if_true, dropSemicolon]

/-! ### Escaped characters -/

theorem reference?_amp (rest : List Char) : reference? ("amp;".toList ++ rest) = some (['&'], rest) :=
  reference?_named (by decide : "amp".toList ≠ []) (by decide) (by simp [isNameChar]) (by decide) rest

theorem reference?_quot (rest : List Char) : reference? ("quot;".toList ++ rest) = some (['"'], rest) :=
  reference?_named (by decide : "quot".toList ≠ []) (by decide) (by simp [isNameChar]) (by decide) rest

theorem reference?_apostrophe (rest : List Char) : reference? ("#39;".toList ++ rest) = some (['\''], rest) :=
  reference?_decimal (by decide : "39".toList ≠ []) (by simp) rest

/-- An escaped character is itself, or a reference to it that nothing which follows can change. -/
theorem escapeChar_cases (quote : Quote) (c : Char) :
    (c ≠ '&' ∧ c ≠ quote.char ∧ escapeChar quote c = [c]) ∨
      ∃ body, escapeChar quote c = '&' :: body ∧ quote.char ∉ '&' :: body ∧
        ∀ rest, reference? (body ++ rest) = some ([c], rest) := by
  rw [escapeChar.eq_def]
  by_cases ampersand : c = '&'
  · subst ampersand
    exact Or.inr ⟨"amp;".toList, rfl, by cases quote <;> decide, reference?_amp⟩
  · rw [if_neg (by simpa using ampersand)]
    by_cases same : c = quote.char
    · subst same
      cases quote with
      | double => exact Or.inr ⟨"quot;".toList, rfl, by decide, reference?_quot⟩
      | single => exact Or.inr ⟨"#39;".toList, rfl, by decide, reference?_apostrophe⟩
    · refine Or.inl ⟨ampersand, same, ?_⟩
      cases quote with
      | double => exact if_neg (by simpa [Quote.char] using same)
      | single => exact if_neg (by simpa [Quote.char] using same)

theorem toList_escapeAttribute (value : String) (quote : Quote) :
    (escapeAttribute value quote).toList = value.toList.flatMap (escapeChar quote) := String.toList_ofList

/-- An escaped value holds none of its quotes. -/
theorem quote_not_mem_escapeAttribute (value : String) (quote : Quote) :
    quote.char ∉ (escapeAttribute value quote).toList := by
  rw [toList_escapeAttribute, List.mem_flatMap]
  rintro ⟨c, _, inside⟩
  obtain ⟨_, other, alone⟩ | ⟨body, written, free, _⟩ := escapeChar_cases quote c
  · rw [alone, List.mem_singleton] at inside
    exact other inside.symm
  · rw [written] at inside
    exact free inside

/-! ### Resolving -/

theorem unescapeFrom_nil (fuel : Nat) : unescapeFrom fuel [] = [] := by
  cases fuel <;> rfl

/-- Without ampersands there is nothing to resolve. -/
theorem unescapeFrom_of_not_mem {cs : List Char} (plain : '&' ∉ cs) (fuel : Nat) : unescapeFrom fuel cs = cs := by
  induction cs generalizing fuel with
  | nil => exact unescapeFrom_nil fuel
  | cons c rest ih =>
    rw [List.mem_cons, not_or] at plain
    cases fuel with
    | zero => rfl
    | succ fuel => rw [unescapeFrom, if_neg (by simpa using Ne.symm plain.1), ih plain.2]

theorem unescape_of_not_mem {value : String} (plain : '&' ∉ value.toList) : unescape value = value := by
  rw [unescape, unescapeFrom_of_not_mem plain, String.ofList_toList]

/-- Resolving goes through escaped characters one by one. -/
theorem unescapeFrom_escaped (quote : Quote) (cs : List Char) {fuel : Nat}
    (enough : (cs.flatMap (escapeChar quote)).length ≤ fuel) : unescapeFrom fuel (cs.flatMap (escapeChar quote)) = cs := by
  -- The fuel pays for each character that is written, so there is enough for every reference.
  induction cs generalizing fuel with
  | nil => exact unescapeFrom_nil fuel
  | cons c rest ih =>
    rw [List.flatMap_cons] at enough ⊢
    cases fuel with
    | zero =>
      obtain ⟨_, _, alone⟩ | ⟨body, written, _⟩ := escapeChar_cases quote c
      · simp [alone] at enough
      · simp [written] at enough
    | succ fuel =>
      obtain ⟨plain, _, alone⟩ | ⟨body, written, _, stands⟩ := escapeChar_cases quote c
      · rw [alone, List.singleton_append, List.length_cons] at enough
        rw [alone, List.singleton_append, unescapeFrom, if_neg (by simpa using plain), ih (by omega)]
      · rw [written, List.cons_append, List.length_cons, List.length_append] at enough
        rw [written, List.cons_append, unescapeFrom, if_pos (beq_self_eq_true _), stands]
        exact congrArg (c :: ·) (ih (by omega))

/-- **Escaping is undone.** -/
theorem unescape_escapeAttribute (value : String) (quote : Quote) : unescape (escapeAttribute value quote) = value := by
  have enough : (value.toList.flatMap (escapeChar quote)).length = (escapeAttribute value quote).length := by
    rw [← toList_escapeAttribute, String.length_toList]
  rw [unescape, toList_escapeAttribute, unescapeFrom_escaped quote value.toList (Nat.le_of_eq enough), String.ofList_toList]

end Remedy.Text
