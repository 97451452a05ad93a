import Remedy.Proofs.Edit.Frame
import Remedy.Proofs.Edit.LinePlanOverlap
import Remedy.Proofs.Text.Lines

/-!
Line edits as replacements: editing lines and then putting them together comes to the same as putting them together and
then replacing bytes.

A column of a line is a byte of the text. One edit replaces the bytes between its columns, and leaves all the columns
before it where they are; so the edits of a plan can be turned into replacements one by one, from the last one on.
-/

namespace Remedy

open Component (Line columnIn)
open Text (Bytes encode)

/-- Lines as one text. -/
def textOfLines (lines : List Line) : List Char := ['\n'].intercalate lines

/-- The characters before a column of a line. -/
def beforeColumn (lines : List Line) (i : Nat) (column : Int) : List Char :=
  (lines.take i).flatMap (· ++ ['\n']) ++ (lines.getD i []).take column.toNat

/-- The byte at which a column of a line stands. -/
def byteOf (lines : List Line) (i : Nat) (column : Int) : Nat := (encode (beforeColumn lines i column)).length

/-- A column that is there, or the end of a line. -/
structure IsColumn (lines : List Line) (i : Nat) (column : Int) : Prop where
  line_lt : i < lines.length
  nonneg : 0 ≤ column
  le_length : column ≤ (lines.getD i []).length

namespace LineEdit

/-- An edit between columns that are there. -/
structure InRange (lines : List Line) (e : LineEdit) : Prop where
  start : IsColumn lines e.line e.start
  stop : IsColumn lines e.line e.stop
  forward : e.start ≤ e.stop

/-- The replacement that an edit is in the text of the lines. -/
def toReplacement (lines : List Line) (e : LineEdit) : Replacement :=
  ⟨byteOf lines e.line e.start, byteOf lines e.line e.stop, e.text⟩

/-- A place ends no later than an edit begins. -/
def Behind (i : Nat) (column : Int) (e : LineEdit) : Prop := i < e.line ∨ i = e.line ∧ column ≤ e.start

end LineEdit

/-! ### Columns and bytes -/

section

variable {lines : List Line} {i j : Nat} {c d : Int}

theorem IsColumn.columnIn_eq (h : IsColumn lines i c) : columnIn (lines.getD i []).length c = c.toNat := by
  have := h.nonneg
  have := h.le_length
  rw [columnIn, if_neg (by omega)]
  omega

theorem lines_eq (h : i < lines.length) : lines = lines.take i ++ lines.getD i [] :: lines.drop (i + 1) := by
  rw [List.getD_eq_getElem _ _ h, List.getElem_cons_drop, List.take_append_drop]

/-- A text up to a column of a line and from there on. -/
theorem textOfLines_eq (h : i < lines.length) (column : Int) :
    textOfLines lines = beforeColumn lines i column ++
      ((lines.getD i []).drop column.toNat ++ (lines.drop (i + 1)).flatMap ('\n' :: ·)) := by
  rw [textOfLines, beforeColumn, List.append_assoc, ← List.append_assoc (List.take column.toNat _),
    List.take_append_drop, ← Text.intercalate_middle, ← lines_eq h]

theorem byteOf_le_length (h : i < lines.length) (column : Int) :
    byteOf lines i column ≤ (encode (textOfLines lines)).length := by
  rw [textOfLines_eq h column, Text.encode_append, List.length_append, byteOf]
  exact Nat.le_add_right _ _

/-- Every character takes a byte at least. -/
theorem byteOf_lt_of_append {x : Char} {rest : List Char}
    (h : beforeColumn lines j d = beforeColumn lines i c ++ x :: rest) : byteOf lines i c < byteOf lines j d := by
  rw [byteOf, byteOf, h, Text.encode_append, List.length_append]
  have positive : 0 < (encode (x :: rest)).length :=
    List.length_pos_iff.mpr fun nothing => List.cons_ne_nil x rest (Text.encode_eq_nil nothing)
  omega

theorem byteOf_lt_of_line_lt (h : i < j) (inside : i < lines.length) (c d : Int) : byteOf lines i c < byteOf lines j d := by
  obtain ⟨between, split⟩ : ∃ between, lines.take j = lines.take i ++ lines.getD i [] :: between := by
    have cut := lines_eq (show i < (lines.take j).length by rw [List.length_take]; omega)
    rw [List.take_take, Nat.min_eq_left (Nat.le_of_lt h), List.getD_eq_getElem?_getD, List.getElem?_take_of_lt h,
      ← List.getD_eq_getElem?_getD] at cut
    exact ⟨_, cut⟩
  have line := List.take_append_drop c.toNat (lines.getD i [])
  -- At least the line feed comes behind the column.
  cases rest : (lines.getD i []).drop c.toNat ++ ['\n'] with
  | nil => simp at rest
  | cons x more =>
    have here : lines.getD i [] ++ ['\n'] = (lines.getD i []).take c.toNat ++ x :: more := by
      rw [← rest, ← List.append_assoc, line]
    apply byteOf_lt_of_append
    rw [beforeColumn, beforeColumn, split, List.flatMap_append, List.flatMap_cons, here]
    simp only [List.append_assoc, List.cons_append]
    rfl

theorem byteOf_lt_of_column_lt (h : c < d) (nonneg : 0 ≤ c) (inside : d ≤ (lines.getD i []).length) :
    byteOf lines i c < byteOf lines i d := by
  have split : (lines.getD i []).take d.toNat =
      (lines.getD i []).take c.toNat ++ ((lines.getD i []).take d.toNat).drop c.toNat := by
    have cut := (List.take_append_drop c.toNat ((lines.getD i []).take d.toNat)).symm
    rwa [List.take_take, Nat.min_eq_left (by omega)] at cut
  cases rest : ((lines.getD i []).take d.toNat).drop c.toNat with
  | nil =>
    have nothing := congrArg List.length rest
    rw [List.length_drop, List.length_take, List.length_nil] at nothing
    omega
  | cons x more =>
    apply byteOf_lt_of_append
    rw [beforeColumn, beforeColumn, split, rest, List.append_assoc]

/-- Bytes stand in the order of lines and columns. -/
theorem IsColumn.byteOf_lt_iff (h : IsColumn lines i c) (h' : IsColumn lines j d) :
    byteOf lines i c < byteOf lines j d ↔ i < j ∨ i = j ∧ c < d := by
  constructor
  · -- Were it the other way round, the bytes would stand the other way round too.
    intro bytes
    by_contra other
    rcases Nat.lt_trichotomy j i with later | rfl | earlier
    · have := byteOf_lt_of_line_lt later h'.line_lt d c
      omega
    · rcases Int.lt_trichotomy d c with behind | rfl | before
      · have := byteOf_lt_of_column_lt behind h'.nonneg h.le_length
        omega
      · omega
      · omega
    · omega
  · rintro (line | ⟨rfl, column⟩)
    · exact byteOf_lt_of_line_lt line h.line_lt c d
    · exact byteOf_lt_of_column_lt column h.nonneg h'.le_length

end

namespace LineEdit

/-! ### One edit -/

section

variable {lines : List Line} {e : LineEdit} (h : e.InRange lines)

include h

theorem InRange.applyToLine_eq :
    e.applyToLine (lines.getD e.line []) =
      (lines.getD e.line []).take e.start.toNat ++ e.text.toList ++ (lines.getD e.line []).drop e.stop.toNat := by
  rw [applyToLine, h.start.columnIn_eq, h.stop.columnIn_eq]

theorem InRange.applyTo_eq :
    e.applyTo lines = lines.take e.line ++ e.applyToLine (lines.getD e.line []) :: lines.drop (e.line + 1) := by
  rw [applyTo, List.modify_eq_take_cons_drop h.start.line_lt, List.getD_eq_getElem _ _ h.start.line_lt]

/-- An edit replaces the bytes between its columns. -/
theorem InRange.encode_applyTo :
    encode (textOfLines (e.applyTo lines)) = (e.toReplacement lines).applyTo (encode (textOfLines lines)) := by
  have front : (encode (textOfLines lines)).take (byteOf lines e.line e.start) =
      encode (beforeColumn lines e.line e.start) := by
    rw [textOfLines_eq h.start.line_lt e.start, Text.encode_append, byteOf, List.take_left]
  have back : (encode (textOfLines lines)).drop (byteOf lines e.line e.stop) =
      encode ((lines.getD e.line []).drop e.stop.toNat ++ (lines.drop (e.line + 1)).flatMap ('\n' :: ·)) := by
    rw [textOfLines_eq h.start.line_lt e.stop, Text.encode_append, byteOf, List.drop_left]
  rw [Replacement.applyTo, toReplacement, front, back, ← Text.encode_append, ← Text.encode_append, textOfLines,
    h.applyTo_eq, Text.intercalate_middle, h.applyToLine_eq, beforeColumn]
  simp only [List.append_assoc]

/-- Nothing changes before an edit. -/
theorem InRange.unchanged_before {i : Nat} {c : Int} (column : IsColumn lines i c) (before : e.Behind i c) :
    IsColumn (e.applyTo lines) i c ∧ beforeColumn (e.applyTo lines) i c = beforeColumn lines i c := by
  have length : (e.applyTo lines).length = lines.length := by rw [applyTo, List.length_modify]
  obtain ⟨line_lt, nonneg, le_length⟩ := column
  have size : (lines.take e.line).length = e.line := by
    rw [List.length_take, Nat.min_eq_left (Nat.le_of_lt h.start.line_lt)]
  rcases before with line | ⟨rfl, column⟩
  · -- The column is on a line above, which is not touched at all.
    have same : (e.applyTo lines).getD i [] = lines.getD i [] := by
      rw [h.applyTo_eq, List.getD_append _ _ _ _ (by omega), List.getD_eq_getElem?_getD, List.getElem?_take_of_lt line,
        ← List.getD_eq_getElem?_getD]
    have front : (e.applyTo lines).take i = lines.take i := by
      rw [h.applyTo_eq, List.take_append_of_le_length (by omega), List.take_take, Nat.min_eq_left (Nat.le_of_lt line)]
    exact ⟨⟨by omega, nonneg, by rw [same]; exact le_length⟩, by rw [beforeColumn, beforeColumn, same, front]⟩
  · -- The column is on the line of the edit, no further than what the edit keeps of it.
    have start_le := h.start.le_length
    have edited : (e.applyTo lines).getD e.line [] = e.applyToLine (lines.getD e.line []) := by
      rw [h.applyTo_eq, List.getD_append_right _ _ _ _ (by omega), size, Nat.sub_self, List.getD_cons_zero]
    have front : (e.applyTo lines).take e.line = lines.take e.line := by
      rw [h.applyTo_eq, List.take_left' size]
    have kept : (e.applyToLine (lines.getD e.line [])).take c.toNat = (lines.getD e.line []).take c.toNat := by
      rw [h.applyToLine_eq, List.append_assoc, List.take_append_of_le_length (by rw [List.length_take]; omega),
        List.take_take, Nat.min_eq_left (by omega)]
    refine ⟨⟨by omega, nonneg, ?_⟩, by rw [beforeColumn, beforeColumn, edited, front, kept]⟩
    rw [edited, h.applyToLine_eq, List.length_append, List.length_append, List.length_take]
    omega

end

/-! ### Many edits -/

section

variable {lines : List Line} {a b e : LineEdit}

theorem InRange.applyTo (h : a.InRange lines) (h' : e.InRange lines) (before : e.Behind a.line a.stop) :
    a.InRange (e.applyTo lines) ∧ a.toReplacement (e.applyTo lines) = a.toReplacement lines := by
  have earlier : e.Behind a.line a.start := by
    have := h.forward
    rcases before with line | ⟨line, column⟩
    · exact Or.inl line
    · exact Or.inr ⟨line, by omega⟩
  obtain ⟨start, first⟩ := h'.unchanged_before h.start earlier
  obtain ⟨stop, last⟩ := h'.unchanged_before h.stop before
  exact ⟨⟨start, stop, h.forward⟩, by rw [toReplacement, toReplacement, byteOf, byteOf, byteOf, byteOf, first, last]⟩

/-- Edits each of which ends before the next one begins can be made as replacements, the last one first. -/
theorem encode_foldr_applyTo (edits : List LineEdit) (inRange : ∀ e ∈ edits, e.InRange lines)
    (behind : edits.Pairwise fun a e => e.Behind a.line a.stop) :
    encode (textOfLines (edits.foldr LineEdit.applyTo lines)) =
      (edits.map (toReplacement lines)).foldr Replacement.applyTo (encode (textOfLines lines)) := by
  -- The last edit is made first, so the induction takes edits from the end. It moves none of the columns of the others,
  -- which are the same replacements in the new lines as in the old ones.
  induction edits using List.reverseRecOn generalizing lines with
  | nil => rfl
  | append_singleton front e ih =>
    have last := inRange e (by simp)
    obtain ⟨row, _, before⟩ := List.pairwise_append.mp behind
    have kept (a : LineEdit) (ha : a ∈ front) :=
      (inRange a (List.mem_append_left _ ha)).applyTo last (before a ha e (List.mem_singleton_self e))
    have same : front.map (toReplacement (e.applyTo lines)) = front.map (toReplacement lines) :=
      List.map_congr_left fun a ha => (kept a ha).2
    rw [List.foldr_append, List.map_append, List.foldr_append, List.foldr_cons, List.foldr_nil,
      ih (fun a ha => (kept a ha).1) row, same, last.encode_applyTo]
    rfl

theorem InRange.notAfter_iff (h : a.InRange lines) (h' : b.InRange lines) :
    (a.toReplacement lines).notAfter (b.toReplacement lines) = a.notAfter b := by
  apply Bool.eq_iff_iff.mpr
  rw [Replacement.notAfter_iff, LineEdit.notAfter_iff, toReplacement, toReplacement]
  have starts := h.start.byteOf_lt_iff h'.start
  have starts' := h'.start.byteOf_lt_iff h.start
  have stops := h'.stop.byteOf_lt_iff h.stop
  simp only
  omega

theorem InRange.overlaps_eq (h : a.InRange lines) (h' : b.InRange lines) :
    (a.toReplacement lines).overlaps (b.toReplacement lines) = a.overlaps b := by
  apply Bool.eq_iff_iff.mpr
  simp only [Replacement.overlaps, overlaps, toReplacement, Bool.and_eq_true, decide_eq_true_eq, beq_iff_eq,
    h.start.byteOf_lt_iff h'.stop, h'.start.byteOf_lt_iff h.stop]
  omega

/-- Of two edits that do not overlap the first one ends before the other begins. -/
theorem behind_of_notAfter (forward : b.start ≤ b.stop) (order : a.notAfter b = true) (apart : a.overlaps b = false) :
    b.Behind a.line a.stop := by
  rw [notAfter_iff] at order
  simp only [overlaps, Bool.and_eq_false_iff, beq_eq_false_iff_ne, decide_eq_false_iff_not] at apart
  rw [Behind]
  omega

end

end LineEdit

/-! ### A plan -/

section

variable {lines : List Line} {edits : List LineEdit} (inRange : ∀ e ∈ edits, e.InRange lines)

include inRange

/-- In order, edits are replacements in order. -/
theorem map_mergeSort_toReplacement :
    (edits.mergeSort LineEdit.notAfter).map (LineEdit.toReplacement lines) =
      (edits.map (LineEdit.toReplacement lines)).mergeSort Replacement.notAfter :=
  List.map_mergeSort fun a ha b hb => ((inRange a ha).notAfter_iff (inRange b hb)).symm

variable (apart : edits.Pairwise fun a b => a.overlaps b = false)

include apart

/-- **Editing lines is replacing bytes.** -/
theorem encode_apply (claims : List (Nat × Int × String)) :
    encode (textOfLines (LinePlan.apply ⟨edits, claims⟩ lines)) =
      spliceBytes (encode (textOfLines lines)) (edits.map (LineEdit.toReplacement lines)) := by
  have sorted := List.pairwise_mergeSort LineEdit.notAfter_trans LineEdit.notAfter_total edits
  have symmetric : ∀ {a b : LineEdit}, a.overlaps b = false → b.overlaps a = false := by
    intro a b h
    rwa [LineEdit.overlaps_comm]
  have separate := ((List.mergeSort_perm edits LineEdit.notAfter).pairwise_iff symmetric).mpr apart
  have inside (e : LineEdit) (he : e ∈ edits.mergeSort LineEdit.notAfter) := inRange e (List.mem_mergeSort.mp he)
  rw [LinePlan.apply, spliceBytes, ← map_mergeSort_toReplacement inRange]
  apply LineEdit.encode_foldr_applyTo _ inside
  apply List.Pairwise.imp_of_mem _ (sorted.and separate)
  intro a b _ hb both
  exact LineEdit.behind_of_notAfter (inside b hb).forward both.1 both.2

theorem coexist_toReplacement :
    Coexist (encode (textOfLines lines)).length (edits.map (LineEdit.toReplacement lines)) where
  forward := by
    refine List.forall_mem_map.mpr fun e he => ?_
    have before := (inRange e he).stop.byteOf_lt_iff (inRange e he).start
    have forward := (inRange e he).forward
    simp only [LineEdit.toReplacement]
    omega
  inside := List.forall_mem_map.mpr fun e he => byteOf_le_length (inRange e he).stop.line_lt e.stop
  compatible := by
    refine List.pairwise_map.mpr (apart.imp_of_mem fun ha hb separate => Or.inl ?_)
    rw [(inRange _ ha).overlaps_eq (inRange _ hb), separate]

end

end Remedy
