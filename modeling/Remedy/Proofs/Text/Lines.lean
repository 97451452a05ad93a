import Mathlib.Data.List.Basic
import Remedy.Proofs.Text.Encoding
import Remedy.Text.Blank

/-!
Lines of texts: a text is its lines put together again, and one without carriage returns is read as it is.
-/

namespace Remedy.Text

/-- A text without carriage returns is read as it is. -/
theorem universalNewlines_eq_self {cs : List Char} (h : '\r' ∉ cs) : universalNewlines cs = cs := by
  fun_induction universalNewlines cs with
  | case1 => rfl
  | case2 => simp at h
  | case3 => simp at h
  | case4 c rest _ _ ih => rw [ih fun member => h (List.mem_cons_of_mem c member)]

/-- The byte of a carriage return is there only where the character is. -/
theorem not_mem_of_encode {cs : List Char} (h : 13 ∉ encode cs) : '\r' ∉ cs := by
  intro member
  apply h
  rw [encode, List.mem_flatMap]
  exact ⟨'\r', member, by decide⟩

theorem splitAtNewlines_eq_splitOn (cs : List Char) : splitAtNewlines cs = cs.splitOn '\n' := by
  induction cs with
  | nil => rfl
  | cons c rest ih =>
    rw [splitAtNewlines, List.splitOn_cons_eq_if_modifyHead, ih]
    split
    · rfl
    · split
      next none => exact absurd none (List.splitOn_ne_nil _ _)
      next line more lines => rw [lines, List.modifyHead_cons]

/-- A text is its lines with line feeds between them. -/
theorem intercalate_splitAtNewlines (cs : List Char) : ['\n'].intercalate (splitAtNewlines cs) = cs := by
  rw [splitAtNewlines_eq_splitOn, List.intercalate_splitOn]

theorem splitAtNewlines_ne_nil (cs : List Char) : splitAtNewlines cs ≠ [] := by
  rw [splitAtNewlines_eq_splitOn]
  exact List.splitOn_ne_nil _ _

theorem not_mem_of_mem_splitAtNewlines {cs line : List Char} (h : line ∈ splitAtNewlines cs) : '\n' ∉ line := by
  -- A line feed begins a new line; any other character goes to the first line of the rest.
  induction cs generalizing line with
  | nil =>
    obtain rfl := List.mem_singleton.mp h
    simp
  | cons c rest ih =>
    rw [splitAtNewlines] at h
    split at h
    next =>
      rcases List.mem_cons.mp h with rfl | later
      · simp
      · exact ih later
    next other =>
      have differ : '\n' ≠ c := fun same => other (beq_iff_eq.mpr same.symm)
      split at h
      next none => exact absurd none (splitAtNewlines_ne_nil rest)
      next first more lines =>
        rw [lines] at ih
        rcases List.mem_cons.mp h with rfl | later
        · rw [List.mem_cons, not_or]
          exact ⟨differ, ih List.mem_cons_self⟩
        · exact ih (List.mem_cons_of_mem first later)

/-- Lines put together are the lines of the text that they make. -/
theorem splitAtNewlines_intercalate {lines : List (List Char)} (nonempty : lines ≠ []) (plain : ∀ line ∈ lines, '\n' ∉ line) :
    splitAtNewlines (['\n'].intercalate lines) = lines := by
  rw [splitAtNewlines_eq_splitOn, List.splitOn_intercalate _ plain nonempty]

/-- Lines put together around one of them. -/
theorem intercalate_middle (before : List (List Char)) (line : List Char) (after : List (List Char)) :
    ['\n'].intercalate (before ++ line :: after) =
      before.flatMap (· ++ ['\n']) ++ (line ++ after.flatMap ('\n' :: ·)) := by
  induction before with
  | nil =>
    rw [List.nil_append, List.flatMap_nil, List.nil_append]
    induction after generalizing line with
    | nil => simp
    | cons next rest ih =>
      rw [List.intercalate_cons_cons, ih, List.flatMap_cons]
      simp
  | cons first rest ih =>
    rw [List.cons_append, List.intercalate_cons_of_ne_nil (by simp), ih, List.flatMap_cons]
    simp only [List.append_assoc]

theorem intercalate_concat {pieces : List (List Char)} (nonempty : pieces ≠ []) (last : List Char) :
    ['\n'].intercalate (pieces ++ [last]) = ['\n'].intercalate pieces ++ '\n' :: last := by
  obtain ⟨first, rest, rfl⟩ := List.exists_cons_of_ne_nil nonempty
  have whole (pieces : List (List Char)) := intercalate_middle [] first pieces
  simp only [List.nil_append] at whole
  rw [List.cons_append, whole, whole]
  simp

/-- The lines of a text that is put together from two: the last line of the first part goes on with the first one of the
second part. -/
theorem splitAtNewlines_append (front back : List Char) :
    ∃ above last first below, splitAtNewlines (front ++ back) = above ++ (last ++ first) :: below ∧
      front = above.flatMap (· ++ ['\n']) ++ last ∧ back = first ++ below.flatMap ('\n' :: ·) := by
  induction front with
  | nil =>
    obtain ⟨first, below, lines⟩ := List.exists_cons_of_ne_nil (splitAtNewlines_ne_nil back)
    have whole := intercalate_splitAtNewlines back
    rw [lines] at whole
    refine ⟨[], [], first, below, lines, rfl, ?_⟩
    rw [← whole]
    simpa using intercalate_middle [] first below
  | cons c front ih =>
    obtain ⟨above, last, first, below, lines, rfl, rest⟩ := ih
    by_cases feed : c = '\n'
    · refine ⟨[] :: above, last, first, below, ?_, ?_, rest⟩
      · rw [List.cons_append, splitAtNewlines, lines, feed]
        rfl
      · simp [feed]
    · -- Any other character goes to the first of all lines, and that may be the one that is cut.
      cases above with
      | nil =>
        refine ⟨[], c :: last, first, below, ?_, by simp, rest⟩
        rw [List.cons_append, splitAtNewlines, lines]
        simp [feed]
      | cons line above =>
        refine ⟨(c :: line) :: above, last, first, below, ?_, by simp, rest⟩
        rw [List.cons_append, splitAtNewlines, lines]
        simp [feed]

end Remedy.Text
