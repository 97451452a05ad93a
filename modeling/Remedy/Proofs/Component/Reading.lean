import Remedy.Proofs.Component.Bounds

/-!
Which lines the search for the end of a tag reads, and that it depends on no others.

A walk goes on to the next line only if a tag is still open at the end of one. So what is found, and where, is settled by the
lines up to the one on which the walk stops.
-/

namespace Remedy.Component

/-- How many of some whole lines a walk reads. -/
def linesRead (quote : Option Char) : List Line → Nat
  | [] => 0
  | line :: rest =>
    match walk quote none 0 line with
    | .open quote => linesRead quote rest + 1
    | _ => 1

/-- How many lines the search for the end of a tag reads, the line of the tag first. -/
def scanReads (lines : List Line) (number : Nat) (column : Int) : Nat :=
  match lines.drop number with
  | [] => 0
  | line :: rest =>
    if between line column (column + 1) != ['<'] then 1
    else match walk none none (column + 1) (walkFrom line (column + 1)) with
      | .open quote => linesRead quote rest + 1
      | _ => 1

/-- A tag lies on lines from one up to another: none of its stretches is behind the line where new attributes go. -/
structure OpenTag.Spans (t : OpenTag) (first last : Nat) : Prop where
  segments : ∀ s ∈ t.segments, first ≤ s.line ∧ s.line ≤ t.line
  first_le : first ≤ t.line
  lt_last : t.line < last

section

variable {quote : Option Char} {before : List Segment} {number first : Nat} {column : Int} {t : OpenTag}

/-! ### Only what is read counts -/

theorem scanLines_congr {lines others : List Line} (length : lines.length = others.length)
    (same : lines.take (linesRead quote lines) = others.take (linesRead quote lines)) :
    scanLines quote before number lines = scanLines quote before number others := by
  -- Where one walk runs out of lines the other one does too, for there are as many left.
  induction lines generalizing quote before number others with
  | nil => rw [List.eq_nil_of_length_eq_zero length.symm]
  | cons line rest ih =>
    cases others with
    | nil => cases length
    | cons other more =>
      rw [List.length_cons, List.length_cons, Nat.add_right_cancel_iff] at length
      cases step : walk quote none 0 line with
      | blocked =>
        simp only [linesRead, step] at same
        obtain ⟨rfl, _⟩ := List.cons.inj same
        simp only [scanLines, step]
      | ended last afterSlash =>
        simp only [linesRead, step] at same
        obtain ⟨rfl, _⟩ := List.cons.inj same
        simp only [scanLines, step]
      | «open» quote =>
        simp only [linesRead, step, List.take_succ_cons] at same
        obtain ⟨rfl, later⟩ := List.cons.inj same
        simp only [scanLines, step]
        exact ih length later

/-- Lines that agree with others as far as these are read lead to the same tag. -/
theorem scan_congr {lines others : List Line} (length : lines.length = others.length)
    (same : (lines.drop number).take (scanReads lines number column) =
      (others.drop number).take (scanReads lines number column)) :
    scan lines number column = scan others number column := by
  have length : (lines.drop number).length = (others.drop number).length := by
    rw [List.length_drop, List.length_drop, length]
  rw [scanReads] at same
  rw [scan, scan]
  -- Nothing above the line of the tag plays a part.
  generalize lines.drop number = left at *
  generalize others.drop number = left' at *
  cases left with
  | nil => rw [List.eq_nil_of_length_eq_zero length.symm]
  | cons line rest =>
    cases left' with
    | nil => cases length
    | cons other more =>
      rw [List.length_cons, List.length_cons, Nat.add_right_cancel_iff] at length
      simp only at same ⊢
      split at same
      next off =>
        obtain ⟨rfl, _⟩ := List.cons.inj same
        rw [if_pos off, if_pos off]
      next on =>
        cases step : walk none none (column + 1) (walkFrom line (column + 1)) with
        | blocked =>
          simp only [step] at same
          obtain ⟨rfl, _⟩ := List.cons.inj same
          simp only [step]
        | ended last afterSlash =>
          simp only [step] at same
          obtain ⟨rfl, _⟩ := List.cons.inj same
          simp only [step]
        | «open» quote =>
          simp only [step, List.take_succ_cons] at same
          obtain ⟨rfl, later⟩ := List.cons.inj same
          rw [if_neg on, if_neg on]
          simp only [step]
          exact scanLines_congr length later

/-! ### The lines of a tag -/

theorem one_le_scanReads {lines : List Line} (inside : number < lines.length) (column : Int) :
    1 ≤ scanReads lines number column := by
  rw [scanReads, List.drop_eq_getElem_cons inside]
  simp only
  split
  · exact Nat.le_refl 1
  · split
    · exact Nat.le_add_left 1 _
    · exact Nat.le_refl 1

/-- The stretches on lines gone by are carried along. -/
theorem scanLines_spans {lines : List Line} (first_le : first ≤ number)
    (behind : ∀ s ∈ before, first ≤ s.line ∧ s.line ≤ number) (h : scanLines quote before number lines = some t) :
    t.Spans first (number + linesRead quote lines) := by
  induction lines generalizing quote before number with
  | nil => cases h
  | cons line rest ih =>
    have next (s : Segment) (on : s.line = number) : first ≤ s.line ∧ s.line ≤ number := by omega
    rw [scanLines] at h
    rw [linesRead]
    cases step : walk quote none 0 line with
    | blocked => simp only [step, reduceCtorEq] at h
    | ended last afterSlash =>
      simp only [step, Option.some.injEq] at h
      subst h
      refine ⟨List.forall_mem_append.mpr ⟨behind, List.forall_mem_singleton.mpr (next _ rfl)⟩, first_le, ?_⟩
      exact Nat.lt_succ_self number
    | «open» quote =>
      simp only [step] at h
      -- The line is covered to its end, and the walk goes on below it.
      have later := ih (Nat.le_succ_of_le first_le) (fun s hs => by
        rcases List.mem_append.mp hs with old | new
        · exact ⟨(behind s old).1, Nat.le_succ_of_le (behind s old).2⟩
        · rw [List.mem_singleton.mp new]
          exact ⟨first_le, Nat.le_succ number⟩) h
      rwa [Nat.succ_add_eq_add_succ] at later

/-- The tag that is found lies on the lines that are read. -/
theorem scan_spans {lines : List Line} (h : scan lines number column = some t) :
    t.Spans number (number + scanReads lines number column) := by
  cases left : lines.drop number with
  | nil => simp [scan, left] at h
  | cons line rest =>
    simp only [scan, left] at h
    simp only [scanReads, left]
    -- Only at a `<` does the walk begin.
    by_cases off : (between line column (column + 1) != ['<']) = true
    · rw [if_pos off] at h
      cases h
    · rw [if_neg off] at h ⊢
      cases step : walk none none (column + 1) (walkFrom line (column + 1)) with
      | blocked => simp only [step, reduceCtorEq] at h
      | ended last afterSlash =>
        simp only [step, Option.some.injEq] at h
        subst h
        exact ⟨List.forall_mem_singleton.mpr ⟨Nat.le_refl _, Nat.le_refl _⟩, Nat.le_refl _, Nat.lt_succ_self number⟩
      | «open» quote =>
        simp only [step] at h
        have later := scanLines_spans (Nat.le_succ number)
          (List.forall_mem_singleton.mpr ⟨Nat.le_refl _, Nat.le_succ number⟩) h
        rwa [Nat.succ_add_eq_add_succ] at later

theorem fallback_spans {line : Line} (h : fallback line number = some t) : t.Spans number (number + 1) := by
  have here {column : Int} {slash : Bool} : OpenTag.Spans ⟨[⟨number, 0, line.length⟩], number, column, slash⟩ number (number + 1) :=
    ⟨List.forall_mem_singleton.mpr ⟨Nat.le_refl _, Nat.le_refl _⟩, Nat.le_refl _, Nat.lt_succ_self number⟩
  rw [fallback] at h
  split at h
  · cases h
  · simp only at h
    split at h
    · cases h
    · split at h
      next =>
        obtain rfl := Option.some.inj h
        exact here
      next =>
        obtain ⟨i, _, rfl⟩ := Option.map_eq_some_iff.mp h
        exact here

end

end Remedy.Component
