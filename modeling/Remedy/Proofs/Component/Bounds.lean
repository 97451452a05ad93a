import Mathlib.Data.List.Basic
import Remedy.Component.AttributeText

/-!
Where the parts of a tag are found: at columns that its lines have, and a value between its quotes.
-/

namespace Remedy.Component

/-! ### Open tags -/

/-- The place for new attributes stands before a character of a line. -/
structure OpenTag.Stands (lines : List Line) (t : OpenTag) : Prop where
  line_lt : t.line < lines.length
  nonneg : 0 ≤ t.column
  lt_length : t.column < (lines.getD t.line []).length

/-- A tag ends at a character that was walked over, and a slash before it is behind the first column. -/
theorem walk_ended {quote previous : Option Char} {column last : Int} {cs : Line} {afterSlash : Bool}
    (h : walk quote previous column cs = .ended last afterSlash) :
    column ≤ last ∧ last < column + cs.length ∧ (afterSlash = true → 0 < last) := by
  induction cs generalizing quote previous column with
  | nil => rw [walk] at h; contradiction
  | cons c rest ih =>
    have onward {quote previous : Option Char} (h : walk quote previous (column + 1) rest = .ended last afterSlash) :
        column ≤ last ∧ last < column + (c :: rest).length ∧ (afterSlash = true → 0 < last) := by
      obtain ⟨from_, before, slash⟩ := ih h
      rw [List.length_cons]
      exact ⟨by omega, by omega, slash⟩
    cases quote with
    | some q => exact onward (by simpa only [walk] using h)
    | none =>
      simp only [walk] at h
      split at h
      · exact onward h
      · split at h
        · contradiction
        · split at h
          · obtain ⟨rfl, slash⟩ := Walk.ended.inj h
            refine ⟨Int.le_refl _, by rw [List.length_cons]; omega, fun after => ?_⟩
            rw [after, Bool.and_eq_true, decide_eq_true_eq] at slash
            exact slash.1
          · exact onward h

/-- The last character of a tag, or the slash before it, is where new attributes go. -/
theorem stands_of_ended {lines : List Line} {number : Nat} {last : Int} {afterSlash : Bool} {segments : List Segment}
    (line_lt : number < lines.length) (nonneg : 0 ≤ last) (inside : last < (lines.getD number []).length)
    (slash : afterSlash = true → 0 < last) :
    OpenTag.Stands lines ⟨segments, number, if afterSlash then last - 1 else last, afterSlash⟩ := by
  refine ⟨line_lt, ?_, ?_⟩
  · split
    next after => have := slash after; simp only; omega
    next => exact nonneg
  · split
    · simp only; omega
    · exact inside

theorem getD_of_drop {lines : List Line} {number : Nat} {line : Line} {rest : List Line}
    (h : lines.drop number = line :: rest) :
    number < lines.length ∧ lines.getD number [] = line ∧ lines.drop (number + 1) = rest := by
  have inside : number < lines.length := by
    by_contra outside
    rw [List.drop_of_length_le (by omega)] at h
    contradiction
  rw [List.drop_eq_getElem_cons inside] at h
  obtain ⟨first, more⟩ := List.cons.inj h
  refine ⟨inside, ?_, more⟩
  rw [List.getD_eq_getElem?_getD, List.getElem?_eq_getElem inside, first, Option.getD_some]

theorem scanLines_stands {lines : List Line} {quote : Option Char} {before : List Segment} {number : Nat} {t : OpenTag}
    (h : scanLines quote before number (lines.drop number) = some t) : t.Stands lines := by
  -- The induction is on the lines that are left.
  generalize left : lines.drop number = rest at h
  induction rest generalizing quote before number with
  | nil => rw [scanLines] at h; contradiction
  | cons line rest ih =>
    obtain ⟨inside, here, later⟩ := getD_of_drop left
    rw [scanLines] at h
    split at h
    · contradiction
    next last afterSlash ended =>
      obtain rfl := Option.some.inj h
      obtain ⟨nonneg, before_end, slash⟩ := walk_ended ended
      exact stands_of_ended inside nonneg (by rw [here]; omega) slash
    · exact ih later h

/-- A tag that is found from a column counted from the left stands in the lines. -/
theorem scan_stands {lines : List Line} {number : Nat} {column : Int} {t : OpenTag} (nonneg : 0 ≤ column)
    (h : scan lines number column = some t) : t.Stands lines := by
  rw [scan] at h
  split at h
  · contradiction
  next line rest left =>
    obtain ⟨inside, here, later⟩ := getD_of_drop left
    split at h
    · contradiction
    · split at h
      · contradiction
      next last afterSlash ended =>
        obtain rfl := Option.some.inj h
        obtain ⟨from_, before_end, slash⟩ := walk_ended ended
        rw [walkFrom, if_neg (by omega), List.length_drop] at before_end
        exact stands_of_ended inside (by omega) (by rw [here]; omega) slash
      · rw [← later] at h
        exact scanLines_stands h

theorem fallback_stands {lines : List Line} {number : Nat} {t : OpenTag} (inside : number < lines.length)
    (h : fallback (lines.getD number []) number = some t) : t.Stands lines := by
  have ranged {test : Nat → Bool} {i : Nat} (h : ((List.range (lines.getD number []).length).reverse).find? test = some i) :
      i < (lines.getD number []).length :=
    List.mem_range.mp (List.mem_reverse.mp (List.mem_of_find?_eq_some h))
  rw [fallback] at h
  split at h
  · contradiction
  · simp only at h
    split at h
    · contradiction
    · split at h
      next i slash =>
        obtain rfl := Option.some.inj h
        have found := ranged (Option.mem_filter_iff.mp slash).1
        exact ⟨inside, by simp only; omega, by simp only; omega⟩
      next =>
        obtain ⟨column, plain, rfl⟩ := Option.map_eq_some_iff.mp h
        obtain ⟨i, last, same⟩ := Option.bind_eq_some_iff.mp plain
        obtain rfl := Option.some.inj same
        have found := ranged last
        exact ⟨inside, by simp only; omega, by simp only; omega⟩

/-! ### Values of attributes -/

/-- A quoted value stands between two of its quotes. -/
theorem staticValue?_split {name cs : List Char} {column : Nat} {v : QuotedValue}
    (h : staticValue? name column cs = some v) :
    ∃ front value rest, cs = front ++ v.quote :: (value ++ v.quote :: rest) ∧ (v.quote = '"' ∨ v.quote = '\'') ∧
      v.start = column + front.length + 1 ∧ v.stop = v.start + value.length := by
  rw [staticValue?] at h
  split at h
  · contradiction
  · simp only at h
    split at h
    next rest equals =>
      split at h
      next q body opening =>
        split at h
        · next closed =>
          obtain rfl := Option.some.inj h
          rw [Bool.and_eq_true, Bool.or_eq_true, beq_iff_eq, beq_iff_eq, List.contains_iff_mem] at closed
          -- What is left behind the name, the equals sign and the blanks is an end of the text.
          have behind_sign : '=' :: rest <:+ cs := equals ▸ (List.dropWhile_suffix _).trans (List.drop_suffix _ _)
          have behind_quote : q :: body <:+ cs :=
            (opening ▸ List.dropWhile_suffix _).trans ((List.suffix_cons '=' rest).trans behind_sign)
          obtain ⟨front, rfl⟩ := behind_quote
          obtain ⟨value, more, rfl, first⟩ := List.eq_append_cons_of_mem closed.2
          have text : (value ++ q :: more).takeWhile (fun c => c != q) = value := by
            have others : ∀ c ∈ value, (c != q) = true := fun c hc => by
              simpa using fun same : c = q => first (same ▸ hc)
            rw [List.takeWhile_append_of_pos others, List.takeWhile_cons_of_neg (by simp), List.append_nil]
          refine ⟨front, value, more, rfl, closed.1, ?_, by rw [text]⟩
          simp only [List.length_append, List.length_cons]
          omega
        · contradiction
      · contradiction
    · contradiction

/-- The value of an attribute stands between two quotes in the line that it is found in. -/
theorem findStatic?_split {name : List Char} {line : Line} {s : Segment} {v : QuotedValue}
    (h : findStatic? name line s = some v) :
    ∃ front value rest, line = front ++ v.quote :: (value ++ v.quote :: rest) ∧ (v.quote = '"' ∨ v.quote = '\'') ∧
      v.start = front.length + 1 ∧ v.stop = v.start + value.length := by
  obtain ⟨⟨i, cs⟩, member, value⟩ := List.exists_of_findSome?_eq_some h
  simp only [nameStarts, List.mem_filterMap] at member
  obtain ⟨j, _, found⟩ := member
  split at found
  next =>
    obtain ⟨rfl, cut⟩ := Prod.mk.inj (Option.some.inj found)
    obtain ⟨front, value, rest, split, quote, start, stop⟩ := staticValue?_split value
    generalize (if s.stop < 0 then 0 else min s.stop.toNat line.length) = last at cut
    -- A stretch that holds a value begins within the line.
    have inside : j ≤ (line.take last).length := by
      by_contra outside
      rw [List.drop_of_length_le (by omega)] at cut
      rw [← cut] at split
      simp at split
    have whole := List.take_append_drop last line
    rw [← List.take_append_drop j (line.take last), cut, split] at whole
    refine ⟨(line.take last).take j ++ front, value, rest ++ line.drop last, by simpa using whole.symm, quote, ?_, stop⟩
    rw [start, List.length_append, List.length_take_of_le inside]
  next => contradiction

/-- The value of an attribute stands in the line that it is found in. -/
theorem findStatic?_within {name : List Char} {line : Line} {s : Segment} {v : QuotedValue}
    (h : findStatic? name line s = some v) : 0 < v.start ∧ v.start ≤ v.stop ∧ v.stop ≤ line.length := by
  obtain ⟨front, value, rest, rfl, _, start, stop⟩ := findStatic?_split h
  simp only [List.length_append, List.length_cons]
  omega

end Remedy.Component
