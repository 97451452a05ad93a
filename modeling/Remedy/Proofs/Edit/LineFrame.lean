import Remedy.Proofs.Edit.LinePlanOverlap
import Remedy.Proofs.Text.Lines

/-!
Edits seen line by line. What becomes of a line depends on the edits of that line alone, so edits of different lines may be
made together, or one after the other in either order.
-/

namespace Remedy

open Component (Line)

namespace LineEdit

/-- What becomes of a line under edits that are made from the last one on. -/
theorem getElem?_foldr_applyTo (edits : List LineEdit) (lines : List Line) (i : Nat) :
    (edits.foldr applyTo lines)[i]? = lines[i]?.map fun line => (edits.filter (·.line == i)).foldr applyToLine line := by
  induction edits with
  | nil => simp
  | cons e rest ih =>
    rw [List.foldr_cons, applyTo, List.getElem?_modify, ih]
    by_cases here : e.line = i
    · rw [List.filter_cons_of_pos (by simpa using here)]
      simp only [here, if_true, Option.map_eq_map, Option.map_map, Function.comp_def, List.foldr_cons]
    · rw [List.filter_cons_of_neg (by simpa using here)]
      simp only [here, if_false, Option.map_eq_map, Option.map_map, Function.comp_def]

end LineEdit

namespace LinePlan

variable {lines : List Line} {edits others : List LineEdit}

/-- What becomes of a line depends on the edits of that line. -/
theorem getElem?_apply (p : LinePlan) (lines : List Line) (i : Nat) :
    (p.apply lines)[i]? =
      lines[i]?.map fun line => ((p.edits.filter (·.line == i)).mergeSort LineEdit.notAfter).foldr LineEdit.applyToLine line := by
  rw [apply, LineEdit.getElem?_foldr_applyTo,
    StableOrder.filter_mergeSort_comm LineEdit.notAfter_trans LineEdit.notAfter_total]

theorem length_apply (p : LinePlan) (lines : List Line) : (p.apply lines).length = lines.length := by
  rw [apply]
  induction p.edits.mergeSort LineEdit.notAfter with
  | nil => rfl
  | cons e rest ih => rw [List.foldr_cons, LineEdit.applyTo, List.length_modify, ih]

/-- A line without edits stays as it is. -/
theorem getElem?_apply_of_forall_ne {p : LinePlan} {i : Nat} (h : ∀ e ∈ p.edits, e.line ≠ i) (lines : List Line) :
    (p.apply lines)[i]? = lines[i]? := by
  have nothing : p.edits.filter (·.line == i) = [] := List.filter_eq_nil_iff.mpr fun e he => by simpa using h e he
  rw [getElem?_apply, nothing]
  simp

theorem apply_congr {p q : LinePlan} (h : ∀ i, p.edits.filter (·.line == i) = q.edits.filter (·.line == i)) (lines : List Line) :
    p.apply lines = q.apply lines := by
  apply List.ext_getElem?
  intro i
  rw [getElem?_apply, getElem?_apply, h]

/-- Of edits on different lines some have nothing to do with a given line. -/
theorem filter_eq_nil_of_apart (apart : ∀ a ∈ edits, ∀ b ∈ others, a.line ≠ b.line) (i : Nat) :
    edits.filter (·.line == i) = [] ∨ others.filter (·.line == i) = [] := by
  by_cases here : ∃ a ∈ edits, a.line = i
  · obtain ⟨a, ha, rfl⟩ := here
    exact .inr (List.filter_eq_nil_iff.mpr fun b hb => by simpa using (apart a ha b hb).symm)
  · exact .inl (List.filter_eq_nil_iff.mpr fun a ha => by simpa using fun same => here ⟨a, ha, same⟩)

/-- Edits of different lines may be made one after the other. -/
theorem apply_append (apart : ∀ a ∈ edits, ∀ b ∈ others, a.line ≠ b.line) (claims claims' claims'' : List (Nat × Int × String)) :
    apply ⟨edits ++ others, claims⟩ lines = apply ⟨others, claims'⟩ (apply ⟨edits, claims''⟩ lines) := by
  apply List.ext_getElem?
  intro i
  rw [getElem?_apply, getElem?_apply, getElem?_apply, List.filter_append]
  -- Line by line only one of the two lists has edits.
  rcases filter_eq_nil_of_apart apart i with nothing | nothing
  · simp only [nothing, List.nil_append, List.mergeSort_nil, List.foldr_nil, Option.map_map, Function.comp_def]
  · simp only [nothing, List.append_nil, List.mergeSort_nil, List.foldr_nil, Option.map_map, Function.comp_def]

/-- Edits of different lines may be listed in either order. -/
theorem apply_append_comm (apart : ∀ a ∈ edits, ∀ b ∈ others, a.line ≠ b.line) (claims claims' : List (Nat × Int × String)) :
    apply ⟨edits ++ others, claims⟩ lines = apply ⟨others ++ edits, claims'⟩ lines := by
  apply apply_congr
  intro i
  rw [List.filter_append, List.filter_append]
  rcases filter_eq_nil_of_apart apart i with nothing | nothing
  · rw [nothing, List.nil_append, List.append_nil]
  · rw [nothing, List.nil_append, List.append_nil]

/-- Lines stay lines under edits that bring no line feed. -/
theorem plain_apply {p : LinePlan} (brought : ∀ e ∈ p.edits, '\n' ∉ e.text.toList) (plain : ∀ line ∈ lines, '\n' ∉ line) :
    ∀ line ∈ p.apply lines, '\n' ∉ line := by
  have sorted : ∀ e ∈ p.edits.mergeSort LineEdit.notAfter, '\n' ∉ e.text.toList :=
    fun e he => brought e (List.mem_mergeSort.mp he)
  rw [apply]
  generalize p.edits.mergeSort LineEdit.notAfter = edits at sorted ⊢
  induction edits with
  | nil => exact plain
  | cons e rest ih =>
    obtain ⟨here, later⟩ := List.forall_mem_cons.mp sorted
    intro line member
    obtain ⟨i, inside⟩ := List.mem_iff_getElem?.mp member
    rw [List.foldr_cons, LineEdit.applyTo, List.getElem?_modify] at inside
    obtain ⟨old, held, rfl⟩ := Option.map_eq_some_iff.mp inside
    have before := ih later old (List.mem_of_getElem? held)
    split
    · rw [LineEdit.applyToLine, List.mem_append, List.mem_append, not_or, not_or]
      exact ⟨⟨fun inside => before (List.mem_of_mem_take inside), here⟩, fun inside => before (List.mem_of_mem_drop inside)⟩
    · exact before

end LinePlan

end Remedy
