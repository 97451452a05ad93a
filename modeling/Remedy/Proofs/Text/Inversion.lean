import Remedy.Proofs.Edit.LineText
import Remedy.Proofs.Text.Decoding

/-!
The way back from the place of a byte, a line and a column, to the byte.

Places are told by going through a text byte by byte. They can as well be looked up: by the last beginning of a line up to the byte,
and by the number of characters that are read from there on, where one that is cut off is read as a replacement.
-/

namespace Remedy

namespace Text

/-- A byte that begins a character. -/
def beginsCharacter (b : UInt8) : Bool := !isContinuation b

theorem countP_utf8EncodeChar (c : Char) {n : Nat} (begun : 0 < n) :
    ((String.utf8EncodeChar c).take n).countP beginsCharacter = 1 := by
  obtain ⟨b, rest, bytes, begins, _, continues⟩ := exists_utf8EncodeChar c
  obtain ⟨n, rfl⟩ : ∃ m, n = m + 1 := ⟨n - 1, by omega⟩
  have nothing : (rest.take n).countP beginsCharacter = 0 := by
    rw [List.countP_eq_zero]
    intro d member
    simp [beginsCharacter, continues d (List.mem_of_mem_take member)]
  rw [bytes, List.take_succ_cons, List.countP_cons_of_pos (by simp [beginsCharacter, begins]), nothing]

theorem length_decodeLossyFrom_take {fuel : Nat} {cs : List Char} {n : Nat} (enough : ((encode cs).take n).length ≤ fuel) :
    (decodeLossyFrom fuel ((encode cs).take n)).length = ((encode cs).take n).countP beginsCharacter := by
  -- The induction is on the characters; the text is cut off before, within or behind the first one.
  induction cs generalizing fuel n with
  | nil => cases fuel <;> simp [encode, decodeLossyFrom]
  | cons c rest ih =>
    have split : encode (c :: rest) = String.utf8EncodeChar c ++ encode rest := rfl
    have size : 0 < (String.utf8EncodeChar c).length := by simpa using c.utf8Size_pos
    rw [split, List.take_append] at enough ⊢
    rcases Nat.eq_zero_or_pos n with rfl | begun
    · cases fuel <;> simp [decodeLossyFrom]
    · rw [List.countP_append, countP_utf8EncodeChar c begun]
      obtain ⟨more, rfl⟩ : ∃ more, fuel = more + 1 := by
        rw [List.length_append, List.length_take] at enough
        exact ⟨fuel - 1, by omega⟩
      by_cases cut : n < (String.utf8EncodeChar c).length
      · rw [Nat.sub_eq_zero_of_le (Nat.le_of_lt cut), List.take_zero, List.append_nil, decodeLossyFrom_cut _ _ begun cut]
        rfl
      · rw [List.take_of_length_le (Nat.le_of_not_lt cut)] at enough ⊢
        rw [decodeLossyFrom_char, List.length_cons, ih, Nat.add_comm]
        rw [List.length_append] at enough
        omega

/-- However a text is cut off, as many characters are read as have begun. -/
theorem length_decodeLossy_take (cs : List Char) (n : Nat) :
    (decodeLossy ((encode cs).take n)).length = ((encode cs).take n).countP beginsCharacter :=
  length_decodeLossyFrom_take (Nat.le_refl _)

end Text

namespace Position

open Text (Bytes encode IsBoundary beginsCharacter sliceBytes splitAtNewlines decodeLossy isContinuation)

/-! ### Line starts -/

/-- Whether a line begins at a byte: at the first one, and behind each line feed. -/
def beginsLine (bytes : Bytes) (i : Nat) : Bool := i == 0 || bytes[i - 1]? == some 10

/-- Where lines begin, up to a byte. -/
def lineStarts (bytes : Bytes) (offset : Nat) : List Nat := (List.range (offset + 1)).filter (beginsLine bytes)

/-- Where the line begins that a byte is on. -/
def lineStart (bytes : Bytes) (offset : Nat) : Nat := (lineStarts bytes offset).getLastD 0

/-- The place at a byte, looked up: as many lines as have begun, and as many characters as are read leniently from the
beginning of the last one. -/
def lookedUp (bytes : Bytes) (offset : Nat) : Position :=
  ⟨(lineStarts bytes offset).length, (decodeLossy (sliceBytes bytes (lineStart bytes offset) offset)).length⟩

section

variable (bytes : Bytes) (offset : Nat)

theorem lineStarts_succ :
    lineStarts bytes (offset + 1) = lineStarts bytes offset ++ if bytes[offset]? = some 10 then [offset + 1] else [] := by
  rw [lineStarts, List.range_succ, List.filter_append, ← lineStarts, List.filter_singleton]
  simp [beginsLine]

theorem lineStart_mem : lineStart bytes offset ∈ lineStarts bytes offset := by
  have nonempty : lineStarts bytes offset ≠ [] := by
    intro nothing
    have first : 0 ∈ lineStarts bytes offset := by simp [lineStarts, beginsLine]
    rw [nothing] at first
    cases first
  rw [lineStart, List.getLastD_eq_getLast?, List.getLast?_eq_some_getLast nonempty]
  exact List.getLast_mem nonempty

theorem lineStart_le : lineStart bytes offset ≤ offset := by
  have upTo := List.mem_range.mp (List.mem_filter.mp (lineStart_mem bytes offset)).1
  omega

theorem beginsLine_lineStart : beginsLine bytes (lineStart bytes offset) = true :=
  (List.mem_filter.mp (lineStart_mem bytes offset)).2

/-- Behind a line feed another line begins. -/
theorem lineStart_succ : lineStart bytes (offset + 1) = if bytes[offset]? = some 10 then offset + 1 else lineStart bytes offset := by
  rw [lineStart, lineStarts_succ, lineStart]
  split
  · rw [List.getLastD_concat]
  · rw [List.append_nil]

theorem sliceBytes_succ {start : Nat} (below : start ≤ offset) {b : UInt8} (here : bytes[offset]? = some b) :
    sliceBytes bytes start (offset + 1) = sliceBytes bytes start offset ++ [b] := by
  obtain ⟨inside, _⟩ := List.getElem?_eq_some_iff.mp here
  have reach : start ≤ (bytes.take offset).length := by
    rw [List.length_take]
    omega
  rw [sliceBytes, List.take_add_one, here, Option.toList_some, List.drop_append_of_le_length reach, sliceBytes]

/-- Going on byte by byte comes to the number of lines that have begun, and of characters that have begun on the last one. -/
theorem ofOffset_eq_counts :
    ofOffset bytes offset =
      ⟨(lineStarts bytes offset).length, (sliceBytes bytes (lineStart bytes offset) offset).countP beginsCharacter⟩ := by
  induction offset with
  | zero => rfl
  | succ n ih =>
    have onward : ofOffset bytes (n + 1) = bytes[n]?.toList.foldl step (ofOffset bytes n) := by
      rw [ofOffset, List.take_add_one, List.foldl_append, ← ofOffset]
    rw [onward, ih, lineStarts_succ, lineStart_succ]
    cases here : bytes[n]? with
    | none =>
      -- Past the end nothing changes.
      have short : sliceBytes bytes (lineStart bytes n) (n + 1) = sliceBytes bytes (lineStart bytes n) n := by
        rw [sliceBytes, List.take_add_one, here, Option.toList_none, List.append_nil, sliceBytes]
      have bare : (none : Option UInt8) ≠ some 10 := (Option.some_ne_none 10).symm
      rw [if_neg bare, if_neg bare, List.append_nil, short]
      rfl
    | some b =>
      rw [Option.toList_some, List.foldl_cons, List.foldl_nil, step]
      by_cases feed : b = 10
      · have nothing : sliceBytes bytes (n + 1) (n + 1) = [] := List.drop_eq_nil_of_le (List.length_take_le _ _)
        rw [if_pos (by simpa using feed), if_pos (congrArg some feed), if_pos (congrArg some feed), nothing]
        simp
      · have other : some b ≠ some 10 := fun same => feed (Option.some.inj same)
        rw [if_neg (by simpa using feed), if_neg other, if_neg other, List.append_nil,
          sliceBytes_succ bytes n (lineStart_le bytes n) here, List.countP_append, List.countP_singleton]
        by_cases continues : isContinuation b = true
        · simp [beginsCharacter, continues]
        · simp [beginsCharacter, continues]

end

/-- A line of a text begins where a character does. -/
theorem isBoundary_of_beginsLine {cs : List Char} {i : Nat} (h : beginsLine (encode cs) i = true) : IsBoundary cs i := by
  rw [beginsLine, Bool.or_eq_true, beq_iff_eq, beq_iff_eq] at h
  rcases Nat.eq_zero_or_pos i with rfl | positive
  · exact .start cs
  · have feed := h.resolve_left (Nat.pos_iff_ne_zero.mp positive)
    have behind := IsBoundary.succ_of_ascii feed (by decide)
    rwa [Nat.sub_add_cancel positive] at behind

/-- **Places can be looked up.** -/
theorem ofOffset_eq_lookedUp (cs : List Char) (offset : Nat) : ofOffset (encode cs) offset = lookedUp (encode cs) offset := by
  -- From the beginning of the line on there is a text, of which some bytes are read.
  obtain ⟨front, back, rfl, start⟩ := isBoundary_of_beginsLine (beginsLine_lineStart (encode cs) offset)
  have line : sliceBytes (encode (front ++ back)) (lineStart (encode (front ++ back)) offset) offset =
      (encode back).take (offset - lineStart (encode (front ++ back)) offset) := by
    rw [sliceBytes, List.drop_take, ← start, Text.encode_append, List.drop_left]
  rw [ofOffset_eq_counts, lookedUp, line, Text.length_decodeLossy_take]

/-! ### Order -/

theorem step_eq_or_before (p : Position) (b : UInt8) : p.step b = p ∨ p.Before (p.step b) := by
  rw [step]
  split
  · right
    left
    simp only
    omega
  · split
    · exact .inl rfl
    · right
      right
      exact ⟨rfl, by simp only; omega⟩

/-- Along bytes places never go back. -/
theorem foldl_step_eq_or_before (p : Position) (bytes : Bytes) : bytes.foldl step p = p ∨ p.Before (bytes.foldl step p) := by
  induction bytes generalizing p with
  | nil => exact .inl rfl
  | cons b rest ih =>
    rw [List.foldl_cons]
    rcases p.step_eq_or_before b with same | first
    · rw [same]
      exact ih p
    · right
      rcases ih (p.step b) with same | later
      · rwa [same]
      · exact first.trans later

theorem ofOffset_eq_or_before (bytes : Bytes) {m n : Nat} (h : m ≤ n) :
    ofOffset bytes n = ofOffset bytes m ∨ (ofOffset bytes m).Before (ofOffset bytes n) := by
  have split : ofOffset bytes n = ((bytes.drop m).take (n - m)).foldl step (ofOffset bytes m) := by
    rw [ofOffset, ofOffset, ← List.foldl_append, ← List.take_add, Nat.add_sub_cancel' h]
  rw [split]
  exact foldl_step_eq_or_before _ _

end Position

/-! ### Back from a place -/

open Component (Line)
open Text (encode splitAtNewlines IsBoundary)

/-- A line, counted from one, and a column of it lead to a byte of a text: what stands from there on, the rest of the line and
the lines below, are the bytes from that one on. -/
structure Text.LeadsTo (text : String) (line column offset : Nat) : Prop where
  line_pos : 1 ≤ line
  line_le : line ≤ (splitAtNewlines text.toList).length
  column_le : column ≤ ((splitAtNewlines text.toList).getD (line - 1) []).length
  rest : encode (textOfLines (((splitAtNewlines text.toList).getD (line - 1) []).drop column ::
      (splitAtNewlines text.toList).drop line)) = (encode text.toList).drop offset

/-- What stands from a column on is the rest of its line and the lines below. -/
theorem fromColumn_eq (lines : List Line) (i column : Nat) :
    fromColumn lines i column = textOfLines ((lines.getD i []).drop column :: lines.drop (i + 1)) := by
  have whole := Text.intercalate_middle [] ((lines.getD i []).drop column) (lines.drop (i + 1))
  rw [fromColumn, textOfLines, Int.toNat_natCast]
  exact whole.symm

theorem exists_leadsTo (text : String) {offset : Nat} (h : IsBoundary text.toList offset) :
    ∃ line column : Nat, Position.ofOffset (encode text.toList) offset = ⟨line, column⟩ ∧
      Text.LeadsTo text line column offset := by
  obtain ⟨front, back, split, rfl⟩ := h
  obtain ⟨i, column, cut, place⟩ := cutsAt_of_append front back
  rw [← split] at cut
  obtain ⟨line_lt, _, le_length⟩ := cut.column
  have rest := cut.back
  rw [fromColumn_eq] at rest
  refine ⟨i + 1, column, (Position.ofOffset_encode split).trans place, Nat.le_add_left 1 i, line_lt, Int.ofNat_le.mp le_length, ?_⟩
  rw [Nat.add_sub_cancel, rest, split, Text.encode_append, List.drop_left]

/-- **Places lead back to their bytes.** The place of a byte at which a character begins, or the text ends, names a line of the
text and a column of it, from where on the text is that from the byte on. Such places come in the order of their bytes, and of
any two bytes, even inside of a character or past the end, the later one has no earlier place. Each place is the one that is
looked up by the beginnings of lines. -/
theorem places_lead_back (text : String) :
    (∀ o, IsBoundary text.toList o → ∃ line column : Nat,
      Position.ofOffset (encode text.toList) o = ⟨line, column⟩ ∧ Text.LeadsTo text line column o) ∧
    (∀ m n, IsBoundary text.toList m → IsBoundary text.toList n → m < n →
      (Position.ofOffset (encode text.toList) m).Before (Position.ofOffset (encode text.toList) n)) ∧
    (∀ m n, m ≤ n → Position.ofOffset (encode text.toList) n = Position.ofOffset (encode text.toList) m ∨
      (Position.ofOffset (encode text.toList) m).Before (Position.ofOffset (encode text.toList) n)) ∧
    ∀ o, Position.ofOffset (encode text.toList) o = Position.lookedUp (encode text.toList) o := by
  refine ⟨fun o boundary => exists_leadsTo text boundary, fun m n first last => Position.ofOffset_before first last,
    fun m n => Position.ofOffset_eq_or_before _, Position.ofOffset_eq_lookedUp _⟩

/-- Before a line feed, behind a character of two bytes, inside of that one, and past the end. -/
theorem accented_line_leads_back :
    let text := "aé\nb"
    let place := Position.ofOffset (encode text.toList)
    IsBoundary text.toList 3 ∧ IsBoundary text.toList 4 ∧ place 3 = ⟨1, 2⟩ ∧ Text.LeadsTo text 1 2 3 ∧
      place 4 = ⟨2, 0⟩ ∧ (place 3).Before (place 4) ∧ place 2 = ⟨1, 2⟩ ∧ (place 3 = place 2 ∨ (place 2).Before (place 3)) ∧
      place 9 = ⟨2, 1⟩ ∧ (place 9 = place 4 ∨ (place 4).Before (place 9)) ∧
      Position.lookedUp (encode text.toList) 2 = ⟨1, 2⟩ := by
  intro text place
  have first : IsBoundary text.toList 3 := by decide
  have last : IsBoundary text.toList 4 := by decide
  obtain ⟨back, strict, weak, looked⟩ := places_lead_back text
  obtain ⟨line, column, here, leads⟩ := back 3 first
  have known : place 3 = ⟨1, 2⟩ := by decide
  rw [show Position.ofOffset (encode text.toList) 3 = ⟨1, 2⟩ from known, Position.mk.injEq] at here
  obtain ⟨rfl, rfl⟩ : line = 1 ∧ column = 2 := by omega
  have inside : place 2 = ⟨1, 2⟩ := by decide
  exact ⟨first, last, known, leads, by decide, strict 3 4 first last (by decide), inside, weak 2 3 (by decide), by decide,
    weak 4 9 (by decide), (looked 2).symm.trans inside⟩

end Remedy
