import Mathlib.Data.List.Forall2
import Remedy.Patch.Component
import Remedy.Proofs.Edit.LineSubstitution
import Remedy.Proofs.Text.Places

/-!
The two ways to edit a text agree. Lines are edited by columns and then put together, or the bytes of the whole text are
replaced: if each edit and its replacement stand at the same places of the text, the result is the same.
-/

namespace Remedy

open Component (Line)
open Patch.Component (joinLines)
open Text (encode splitAtNewlines IsBoundary)

/-- A byte at which a character stands that is on a line and in a column, both counted from zero; or the end of the line. -/
structure Text.StandsAt (text : String) (byte line : Nat) (column : Int) : Prop where
  boundary : IsBoundary text.toList byte
  position : Position.ofOffset (encode text.toList) byte = ⟨line + 1, column⟩

/-- A replacement that puts the text of an edit between the bytes of its columns. -/
structure LineEdit.Translates (text : String) (e : LineEdit) (r : Replacement) : Prop where
  content : r.content = e.text
  start : Text.StandsAt text r.start e.line e.start
  stop : Text.StandsAt text r.stop e.line e.stop

/-! ### Columns as places -/

section

variable {lines : List Line}

/-- Whole lines lead to the beginning of the line after them. -/
theorem foldl_stepChar_lines (plain : ∀ line ∈ lines, '\n' ∉ line) (number : Int) :
    (lines.flatMap (· ++ ['\n'])).foldl Position.stepChar ⟨number, 0⟩ = ⟨number + lines.length, 0⟩ := by
  induction lines generalizing number with
  | nil => simp
  | cons line rest ih =>
    have first := Position.foldl_stepChar_of_not_mem ⟨number, 0⟩ (plain line List.mem_cons_self)
    rw [List.flatMap_cons, List.foldl_append, List.foldl_append, first, List.foldl_cons, List.foldl_nil, Position.stepChar,
      if_pos rfl, ih fun l hl => plain l (List.mem_cons_of_mem line hl), List.length_cons]
    simp only [Position.mk.injEq, and_true]
    omega

theorem after_beforeColumn (plain : ∀ line ∈ lines, '\n' ∉ line) {i : Nat} {c : Int} (column : IsColumn lines i c) :
    Position.after (beforeColumn lines i c) = ⟨i + 1, c⟩ := by
  obtain ⟨line_lt, nonneg, le_length⟩ := column
  have before : ∀ line ∈ lines.take i, '\n' ∉ line := fun l hl => plain l (List.mem_of_mem_take hl)
  have above := foldl_stepChar_lines before 1
  have here : '\n' ∉ (lines.getD i []).take c.toNat := by
    rw [List.getD_eq_getElem _ _ line_lt]
    exact fun member => plain _ (List.getElem_mem line_lt) (List.mem_of_mem_take member)
  rw [Position.after, beforeColumn, List.foldl_append, above, Position.foldl_stepChar_of_not_mem _ here, List.length_take,
    List.length_take]
  simp only [Position.mk.injEq]
  omega

end

section

variable {text : String} {i : Nat} {c : Int}

theorem standsAt_byteOf (column : IsColumn (splitAtNewlines text.toList) i c) :
    Text.StandsAt text (byteOf (splitAtNewlines text.toList) i c) i c := by
  have whole := textOfLines_eq column.line_lt c
  rw [textOfLines, Text.intercalate_splitAtNewlines] at whole
  refine ⟨⟨_, _, whole, rfl⟩, ?_⟩
  rw [byteOf, Position.ofOffset_encode whole, after_beforeColumn (fun _ => Text.not_mem_of_mem_splitAtNewlines) column]

/-- There is no other byte at which that column stands. -/
theorem Text.StandsAt.eq_byteOf {byte : Nat} (h : Text.StandsAt text byte i c)
    (column : IsColumn (splitAtNewlines text.toList) i c) : byte = byteOf (splitAtNewlines text.toList) i c := by
  have known := standsAt_byteOf column
  exact (Position.ofOffset_inj h.boundary known.boundary).mp (h.position.trans known.position.symm)

end

namespace LineEdit

variable {text : String} {e : LineEdit}

theorem translates_toReplacement (h : e.InRange (splitAtNewlines text.toList)) :
    e.Translates text (e.toReplacement (splitAtNewlines text.toList)) :=
  ⟨rfl, standsAt_byteOf h.start, standsAt_byteOf h.stop⟩

/-- An edit has one translation only. -/
theorem Translates.eq_toReplacement {r : Replacement} (h : e.Translates text r)
    (inRange : e.InRange (splitAtNewlines text.toList)) : r = e.toReplacement (splitAtNewlines text.toList) := by
  obtain ⟨start, stop, content⟩ := r
  rw [toReplacement, ← h.start.eq_byteOf inRange.start, ← h.stop.eq_byteOf inRange.stop, ← h.content]

theorem eq_map_toReplacement {edits : List LineEdit} {rs : List Replacement}
    (inRange : ∀ e ∈ edits, e.InRange (splitAtNewlines text.toList)) (translated : List.Forall₂ (Translates text) edits rs) :
    rs = edits.map (toReplacement (splitAtNewlines text.toList)) := by
  induction translated with
  | nil => rfl
  | cons first _ ih =>
    obtain ⟨here, later⟩ := List.forall_mem_cons.mp inRange
    rw [List.map_cons, first.eq_toReplacement here, ih later]

end LineEdit

/-- **Editing lines and splicing bytes agree.** Take edits of a text between columns that its lines have, no two of which
overlap. There are replacements that put the same contents at the same places of the text, in the same order; and whichever
these are, they can be made, and the text after them is the edited lines put together. -/
theorem joined_lines_eq_splice (text : String) {edits : List LineEdit}
    (inRange : ∀ e ∈ edits, e.InRange (splitAtNewlines text.toList))
    (apart : edits.Pairwise fun a b => a.overlaps b = false) (claims : List (Nat × Int × String)) :
    (∃ rs, List.Forall₂ (LineEdit.Translates text) edits rs) ∧
      ∀ rs, List.Forall₂ (LineEdit.Translates text) edits rs →
        splice? (encode text.toList) rs = some (joinLines (LinePlan.apply ⟨edits, claims⟩ (splitAtNewlines text.toList))) := by
  constructor
  · refine ⟨edits.map (LineEdit.toReplacement (splitAtNewlines text.toList)), ?_⟩
    rw [List.forall₂_map_right_iff, List.forall₂_same]
    exact fun e he => LineEdit.translates_toReplacement (inRange e he)
  · intro rs translated
    -- There is no choice: whatever stands at the same places is what each edit replaces.
    have spliced := encode_apply inRange apart claims
    rw [textOfLines, textOfLines, Text.intercalate_splitAtNewlines,
      ← LineEdit.eq_map_toReplacement inRange translated] at spliced
    rw [splice?, ← spliced, Text.decode?_encode, Option.map_some, joinLines]

/-- A character of two bytes gives way to two lines, and on the line behind it two contents are inserted at one place, the
first of them before a stretch that is replaced. -/
theorem joined_lines_eq_splice_with_line_feed :
    let text := "aé\nbc"
    let edits : List LineEdit := [⟨1, 1, 2, "z", none⟩, ⟨0, 1, 2, "x\ny", none⟩, ⟨1, 1, 1, "p", none⟩, ⟨1, 1, 1, "q", none⟩]
    let rs : List Replacement := [⟨5, 6, "z"⟩, ⟨1, 3, "x\ny"⟩, ⟨5, 5, "p"⟩, ⟨5, 5, "q"⟩]
    (∀ e ∈ edits, e.InRange (splitAtNewlines text.toList)) ∧ (edits.Pairwise fun a b => a.overlaps b = false) ∧
      List.Forall₂ (LineEdit.Translates text) edits rs ∧ splice? (encode text.toList) rs = some "ax\ny\nbpqz" ∧
      joinLines (LinePlan.apply ⟨edits, []⟩ (splitAtNewlines text.toList)) = "ax\ny\nbpqz" := by
  intro text edits rs
  have lines : splitAtNewlines text.toList = [['a', 'é'], ['b', 'c']] := by decide
  have columns (i : Nat) (c : Int) (line : i < 2) (nonneg : 0 ≤ c) (inside : c ≤ 2) :
      IsColumn (splitAtNewlines text.toList) i c := by
    rw [lines]
    refine ⟨line, nonneg, ?_⟩
    match i with
    | 0 => exact inside
    | 1 => exact inside
  have inRange : ∀ e ∈ edits, e.InRange (splitAtNewlines text.toList) := by
    intro e he
    simp only [edits, List.mem_cons, List.not_mem_nil, or_false] at he
    rcases he with rfl | rfl | rfl | rfl
    all_goals exact ⟨columns _ _ (by decide) (by decide) (by decide), columns _ _ (by decide) (by decide) (by decide), by decide⟩
  have apart : edits.Pairwise fun a b => a.overlaps b = false := by decide
  obtain ⟨⟨_, spliced⟩, agree⟩ := joined_lines_eq_splice text inRange apart []
  have same : edits.map (LineEdit.toReplacement (splitAtNewlines text.toList)) = rs := by
    rw [lines]
    decide
  have translated : List.Forall₂ (LineEdit.Translates text) edits rs := by
    rwa [LineEdit.eq_map_toReplacement inRange spliced, same] at spliced
  have spliced : splice? (encode text.toList) rs = some "ax\ny\nbpqz" := by cbv
  exact ⟨inRange, apart, translated, spliced, Option.some.inj ((agree rs translated).symm.trans spliced)⟩

end Remedy
