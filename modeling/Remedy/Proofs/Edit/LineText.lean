import Remedy.Proofs.Edit.EngineAgreement

/-!
Cutting a text in two, and cutting its lines at a column, are the same thing.

What stands before a column of some lines and what stands from there on are together their text; and wherever a text is cut
in two, its lines have a column at which that happens. An edit puts its text between what stands before it and what stands
behind it.
-/

namespace Remedy

open Component (Line)
open Patch.Component (joinLines)
open Text (splitAtNewlines)

/-- The text from a column of a line on. -/
def fromColumn (lines : List Line) (i : Nat) (column : Int) : List Char :=
  (lines.getD i []).drop column.toNat ++ (lines.drop (i + 1)).flatMap ('\n' :: ·)

/-- A column of some lines stands between two parts of their text. -/
structure CutsAt (lines : List Line) (i : Nat) (c : Int) (front back : List Char) : Prop where
  column : IsColumn lines i c
  front : beforeColumn lines i c = front
  back : fromColumn lines i c = back

section

variable {lines : List Line} {i : Nat} {c : Int} {front back : List Char}

theorem IsColumn.textOfLines_eq (h : IsColumn lines i c) :
    textOfLines lines = beforeColumn lines i c ++ fromColumn lines i c :=
  Remedy.textOfLines_eq h.line_lt c

theorem CutsAt.text (h : CutsAt lines i c front back) : textOfLines lines = front ++ back := by
  rw [h.column.textOfLines_eq, h.front, h.back]

/-- What stands before a column settles what stands from there on. -/
theorem IsColumn.cutsAt_of_front (h : IsColumn lines i c) (before : beforeColumn lines i c = front)
    (text : textOfLines lines = front ++ back) : CutsAt lines i c front back := by
  refine ⟨h, before, ?_⟩
  rw [h.textOfLines_eq, before] at text
  exact List.append_cancel_left text

/-- **Wherever a text is cut in two, its lines have a column there**, and that is its place. -/
theorem cutsAt_of_append (front back : List Char) :
    ∃ i c : Nat, CutsAt (splitAtNewlines (front ++ back)) i c front back ∧ Position.after front = ⟨i + 1, c⟩ := by
  obtain ⟨above, last, first, below, lines, split, rest⟩ := Text.splitAtNewlines_append front back
  have here : (above ++ (last ++ first) :: below).getD above.length [] = last ++ first := by simp
  have column : IsColumn (splitAtNewlines (front ++ back)) above.length last.length := by
    rw [lines]
    refine ⟨by simp, by omega, ?_⟩
    rw [here, List.length_append]
    omega
  have before : beforeColumn (splitAtNewlines (front ++ back)) above.length last.length = front := by
    rw [lines, beforeColumn, here, List.take_left, Int.toNat_natCast, List.take_left, split]
  refine ⟨above.length, last.length, ⟨column, before, ?_⟩, ?_⟩
  · rw [lines, fromColumn, here, Int.toNat_natCast, List.drop_left, rest]
    simp
  · rw [← before]
    exact after_beforeColumn (fun _ => Text.not_mem_of_mem_splitAtNewlines) column

/-- What stands before a place settles where it is, whatever follows. -/
theorem CutsAt.behind_front (plain : ∀ line ∈ lines, '\n' ∉ line) (cut : CutsAt lines i c front back) (rest : List Char) :
    CutsAt (splitAtNewlines (front ++ rest)) i c front rest := by
  obtain ⟨j, d, cut', place⟩ := cutsAt_of_append front rest
  have place' := after_beforeColumn plain cut.column
  rw [cut.front, place, Position.mk.injEq] at place'
  obtain ⟨line, column⟩ := place'
  obtain rfl : j = i := by omega
  rwa [column] at cut'

end

namespace LineEdit

variable {lines : List Line} {e : LineEdit}

/-- An edit puts its text between what stands before it and what stands behind it. -/
theorem InRange.textOfLines_applyTo (h : e.InRange lines) :
    textOfLines (e.applyTo lines) =
      beforeColumn lines e.line e.start ++ (e.text.toList ++ fromColumn lines e.line e.stop) := by
  rw [textOfLines, h.applyTo_eq, Text.intercalate_middle, h.applyToLine_eq, beforeColumn, fromColumn]
  simp only [List.append_assoc]

/-- An edit stands where a part of the text of some lines is. -/
structure Replaces (lines : List Line) (e : LineEdit) (front old back : List Char) : Prop where
  start : CutsAt lines e.line e.start front (old ++ back)
  stop : CutsAt lines e.line e.stop (front ++ old) back
  forward : e.start ≤ e.stop

variable {front old back : List Char}

theorem Replaces.inRange (h : e.Replaces lines front old back) : e.InRange lines := ⟨h.start.column, h.stop.column, h.forward⟩

/-- That part gives way to the text of the edit. -/
theorem Replaces.text (h : e.Replaces lines front old back) :
    textOfLines (e.applyTo lines) = front ++ (e.text.toList ++ back) := by
  rw [h.inRange.textOfLines_applyTo, h.start.front, h.stop.back]

/-- An edit further back changes only what follows. -/
theorem Replaces.applyTo {later : LineEdit} {mid old' : List Char} (h : e.Replaces lines front old (mid ++ (old' ++ back)))
    (h' : later.Replaces lines (front ++ (old ++ mid)) old' back) (behind : later.Behind e.line e.stop) :
    e.Replaces (later.applyTo lines) front old (mid ++ (later.text.toList ++ back)) := by
  have text := h'.text
  have whole : front ++ (old ++ mid) ++ (later.text.toList ++ back) =
      front ++ (old ++ (mid ++ (later.text.toList ++ back))) := by simp
  rw [whole] at text
  have earlier : later.Behind e.line e.start := by
    have := h.forward
    rcases behind with line | ⟨line, column⟩
    · exact Or.inl line
    · exact Or.inr ⟨line, by omega⟩
  obtain ⟨start, first⟩ := h'.inRange.unchanged_before h.start.column earlier
  obtain ⟨stop, last⟩ := h'.inRange.unchanged_before h.stop.column behind
  refine ⟨start.cutsAt_of_front (first.trans h.start.front) text, stop.cutsAt_of_front (last.trans h.stop.front) ?_, h.forward⟩
  rw [text, List.append_assoc]

end LineEdit

end Remedy
