import Remedy.Text.Blank
import Remedy.Text.Word

/-!
Words and blanks: no blank is part of a word.
-/

namespace Remedy.Text

/-- A code point that the search finds lies in one of the ranges. -/
theorem exists_of_searchRanges {ranges : Array (Nat × Nat)} {n fuel lo hi : Nat} (nonzero : n ≠ 0)
    (h : searchRanges ranges n fuel lo hi = true) : ∃ r ∈ ranges.toList, r.1 ≤ n ∧ n ≤ r.2 := by
  induction fuel generalizing lo hi with
  | zero => cases h
  | succ fuel ih =>
    rw [searchRanges] at h
    split at h
    · generalize mid : (lo + hi) / 2 = i at h
      by_cases inside : i < ranges.size
      · have range : ranges.getD i (0, 0) = ranges[i] := by
          rw [Array.getD_eq_getD_getElem?, Array.getElem?_eq_getElem inside, Option.getD_some]
        simp only [range] at h
        split at h
        · exact ih h
        · split at h
          · exact ih h
          · exact ⟨ranges[i], by simp, by omega, by omega⟩
      · have range : ranges.getD i (0, 0) = (0, 0) := by
          rw [Array.getD_eq_getD_getElem?, Array.getElem?_eq_none (by omega), Option.getD_none]
        simp only [range] at h
        rw [if_neg (by omega), if_pos (by omega)] at h
        exact ih h
    · cases h

/-- The code points of blanks, as ranges. -/
def blankRanges : List (Nat × Nat) :=
  [(9, 13), (28, 32), (133, 133), (160, 160), (5760, 5760), (8192, 8202), (8232, 8233), (8239, 8239), (8287, 8287),
    (12288, 12288)]

theorem exists_blankRange {c : Char} (h : isBlank c = true) : ∃ r ∈ blankRanges, r.1 ≤ c.toNat ∧ c.toNat ≤ r.2 := by
  simp only [isBlank, Bool.or_eq_true, Bool.and_eq_true, decide_eq_true_eq, beq_iff_eq] at h
  simp only [blankRanges, List.mem_cons, List.not_mem_nil, or_false, exists_eq_or_imp, exists_eq_left]
  omega

/-- The ranges of word characters leave out those of blanks. -/
theorem wordRanges_apart :
    (wordRanges.toList.all fun w => blankRanges.all fun b => b.2 < w.1 || w.2 < b.1) = true := by
  -- Table by table, as the tables are put together from the left.
  simp only [wordRanges, Array.toList_append, List.all_append, Bool.and_eq_true]
  refine ⟨⟨⟨⟨⟨⟨⟨?_, ?_⟩, ?_⟩, ?_⟩, ?_⟩, ?_⟩, ?_⟩, ?_⟩ <;> decide +kernel

theorem isWord_of_isBlank {c : Char} (h : isBlank c = true) : isWord c = false := by
  obtain ⟨b, blank, low, high⟩ := exists_blankRange h
  have nonzero : c.toNat ≠ 0 := by
    intro zero
    rw [isBlank, zero] at h
    contradiction
  rw [isWord]
  split
  next ascii =>
    simp only [blankRanges, List.mem_cons, List.not_mem_nil, or_false] at blank
    have control : c.val.toNat ≤ 32 := by
      change c.toNat ≤ 32
      rcases blank with rfl | rfl | rfl | rfl | rfl | rfl | rfl | rfl | rfl | rfl <;> simp only at low high <;> omega
    have other : c ≠ '_' := by
      rintro rfl
      exact absurd control (by decide)
    delta Char.isAlphanum Char.isAlpha Char.isUpper Char.isLower Char.isDigit
    simp only [UInt32.le_iff_toNat_le, Bool.or_eq_false_iff, Bool.and_eq_false_iff, decide_eq_false_iff_not,
      beq_eq_false_iff_ne, Char.reduceVal, UInt32.reduceToNat]
    exact ⟨⟨⟨by omega, by omega⟩, by omega⟩, other⟩
  next =>
    rw [Bool.eq_false_iff]
    intro found
    obtain ⟨w, word, first, last⟩ := exists_of_searchRanges nonzero found
    have apart := List.all_eq_true.mp (List.all_eq_true.mp wordRanges_apart w word) b blank
    simp only [Bool.or_eq_true, decide_eq_true_eq] at apart
    omega

end Remedy.Text
