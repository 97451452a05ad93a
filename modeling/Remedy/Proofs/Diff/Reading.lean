import Remedy.Proofs.Diff.Application

/-!
What is written as a difference is read as the same lines again.

The lines of a text end wherever Unicode lets a line end, and a difference is read by lines that end at line feeds. For a text
both are the same if and only if no other character ends a line inside it (`EndsByFeeds`). A difference is made in such a way
that it never matters there: each of its lines is closed by a line feed, and by a remark if the line feed is not its own.
-/

namespace Remedy.Diff

/-- Whether lines end at line feeds only. Any other character that ends a line is the last of the text, or is a carriage return
with a line feed behind it. -/
def EndsByFeeds : List Char → Prop
  | [] => True
  | c :: rest =>
    (Text.endsLine c = true → c = '\n' ∨ rest = [] ∨ c = '\r' ∧ rest.head? = some '\n') ∧ EndsByFeeds rest

instance decidableEndsByFeeds : (cs : List Char) → Decidable (EndsByFeeds cs)
  | [] => isTrue trivial
  | c :: rest =>
    have := decidableEndsByFeeds rest
    inferInstanceAs (Decidable ((Text.endsLine c = true → c = '\n' ∨ rest = [] ∨ c = '\r' ∧ rest.head? = some '\n') ∧
      EndsByFeeds rest))

/-! ### Lines of texts -/

/-- Puts characters in front of the first line. -/
def glue (front : List Char) : List Line → List Line
  | [] => if front.isEmpty then [] else [front]
  | line :: more => (front ++ line) :: more

@[simp] theorem glue_nil (lines : List Line) : glue [] lines = lines := by
  cases lines <;> rfl

theorem feedLines_cons {c : Char} (h : c ≠ '\n') (rest : List Char) : feedLines (c :: rest) = glue [c] (feedLines rest) := by
  rw [feedLines, if_neg h]
  cases feedLines rest <;> rfl

theorem glue_glue (front middle : List Char) (lines : List Line) (h : middle ≠ []) :
    glue front (glue middle lines) = glue (front ++ middle) lines := by
  cases lines with
  | nil => simp [glue, h]
  | cons line more => simp [glue]

theorem exists_feedLines_cons (c : Char) (rest : List Char) :
    ∃ first more, feedLines (c :: rest) = (c :: first) :: more := by
  rw [feedLines]
  split
  next => exact ⟨[], _, rfl⟩
  next => split <;> exact ⟨_, _, rfl⟩

theorem feedLines_append {line : List Char} (h : '\n' ∉ line) (rest : List Char) :
    feedLines (line ++ '\n' :: rest) = (line ++ ['\n']) :: feedLines rest := by
  induction line with
  | nil => rw [List.nil_append, feedLines, if_pos rfl, List.nil_append]
  | cons c line ih =>
    rw [List.mem_cons, not_or] at h
    rw [List.cons_append, feedLines_cons (Ne.symm h.1), ih h.2]
    rfl

theorem flatten_linesFrom (line cs : List Char) : (Text.linesFrom line cs).flatten = line.reverse ++ cs := by
  fun_induction Text.linesFrom line cs with
  | case1 line empty => simp [List.isEmpty_iff.mp empty]
  | case2 line => simp
  | case3 line rest ih => simp [ih]
  | case4 line c rest _ ends ih => simp [ih]
  | case5 line c rest _ inside ih => simp [ih]

/-- A text is its lines. -/
theorem flatten_lines (cs : List Char) : (Text.lines cs).flatten = cs := flatten_linesFrom [] cs

/-- Where lines end at line feeds only, they are the lines that are read. -/
theorem linesFrom_eq_glue {line cs : List Char} (h : EndsByFeeds cs) :
    Text.linesFrom line cs = glue line.reverse (feedLines cs) := by
  fun_induction Text.linesFrom line cs with
  | case1 line empty => simp [feedLines, glue, List.isEmpty_iff.mp empty]
  | case2 line nonempty => simp [feedLines, glue, nonempty]
  | case3 line rest ih =>
    rw [ih h.2.2, feedLines_cons (by decide), feedLines, if_pos rfl, List.reverse_nil, glue_nil]
    simp [glue]
  | case4 line c rest other ends ih =>
    rw [ih h.2, List.reverse_nil, glue_nil]
    -- The carriage return with a line feed behind it was the case before, so it is a line feed or the end.
    rcases h.1 ends with rfl | rfl | ⟨rfl, next⟩
    · rw [feedLines, if_pos rfl]
      simp [glue]
    · by_cases feed : c = '\n'
      · simp [feedLines, glue, feed]
      · simp [feedLines, glue, feed]
    · cases rest with
      | nil => cases next
      | cons d rest =>
        obtain rfl := Option.some.inj next
        exact absurd rfl (other rest rfl)
  | case5 line c rest _ inside ih =>
    have other : c ≠ '\n' := by
      rintro rfl
      exact inside rfl
    rw [ih h.2, feedLines_cons other, glue_glue _ _ _ (List.cons_ne_nil c []), List.reverse_cons]

theorem endsByFeeds_of_linesFrom {line cs : List Char} (h : Text.linesFrom line cs = glue line.reverse (feedLines cs)) :
    EndsByFeeds cs := by
  fun_induction Text.linesFrom line cs with
  | case1 => trivial
  | case2 => trivial
  | case3 line rest ih =>
    rw [feedLines_cons (by decide), feedLines, if_pos rfl] at h
    have later : Text.linesFrom [] rest = feedLines rest := (List.cons.inj h).2
    refine ⟨fun _ => Or.inr (Or.inr ⟨rfl, rfl⟩), fun _ => Or.inl rfl, ih ?_⟩
    rw [later, List.reverse_nil, glue_nil]
  | case4 line c rest other ends ih =>
    by_cases feed : c = '\n'
    · subst feed
      rw [feedLines, if_pos rfl] at h
      have later : Text.linesFrom [] rest = feedLines rest := (List.cons.inj h).2
      refine ⟨fun _ => Or.inl rfl, ih ?_⟩
      rw [later, List.reverse_nil, glue_nil]
    · cases rest with
      | nil => exact ⟨fun _ => Or.inr (Or.inl rfl), trivial⟩
      | cons d rest =>
        -- The line that is read goes on, but the one that was cut ends here.
        rw [feedLines_cons feed, glue_glue _ _ _ (List.cons_ne_nil c [])] at h
        obtain ⟨first, more, read⟩ := exists_feedLines_cons d rest
        rw [read, List.reverse_cons] at h
        exact absurd (List.cons.inj h).1 (by simp)
  | case5 line c rest _ inside ih =>
    have other : c ≠ '\n' := by
      rintro rfl
      exact inside rfl
    rw [feedLines_cons other, glue_glue _ _ _ (List.cons_ne_nil c []), ← List.reverse_cons] at h
    exact ⟨fun ends => absurd ends inside, ih h⟩

/-- The lines that are cut are those that are read if and only if line feeds alone end lines. -/
theorem lines_eq_feedLines_iff {cs : List Char} : Text.lines cs = feedLines cs ↔ EndsByFeeds cs := by
  constructor
  · intro same
    exact @endsByFeeds_of_linesFrom [] cs (by rw [← Text.lines, same, List.reverse_nil, glue_nil])
  · intro h
    rw [Text.lines, linesFrom_eq_glue h, List.reverse_nil, glue_nil]

/-- A line as it is cut from a text: a line feed can only be its end. -/
def IsLine (line : Line) : Prop := line ≠ [] ∧ '\n' ∉ line.dropLast

theorem isLine_of_mem_linesFrom {line cs : List Char} (plain : '\n' ∉ line) :
    ∀ l ∈ Text.linesFrom line cs, IsLine l := by
  fun_induction Text.linesFrom line cs with
  | case1 => simp
  | case2 line nonempty =>
    intro l member
    rw [List.mem_singleton.mp member]
    refine ⟨by simpa using nonempty, fun feed => plain ?_⟩
    exact List.mem_reverse.mp (List.dropLast_subset _ feed)
  | case3 line rest ih =>
    intro l member
    rcases List.mem_cons.mp member with rfl | later
    · refine ⟨by simp, ?_⟩
      rw [List.reverse_cons, List.dropLast_concat]
      simpa using plain
    · exact ih List.not_mem_nil l later
  | case4 line c rest _ ends ih =>
    intro l member
    rcases List.mem_cons.mp member with rfl | later
    · refine ⟨by simp, ?_⟩
      rw [List.reverse_cons, List.dropLast_concat]
      simpa using plain
    · exact ih List.not_mem_nil l later
  | case5 line c rest _ inside ih =>
    -- A line feed would have ended the line, so the line goes on without one.
    refine ih fun member => ?_
    rcases List.mem_cons.mp member with rfl | old
    · exact inside rfl
    · exact plain old

/-! ### The lines of a difference -/

theorem withoutRemarks_cons {line : Line} {lines : List Line} (next : ∀ l ∈ lines.head?, l ≠ remark) :
    withoutRemarks (line :: lines) = line :: withoutRemarks lines := by
  cases lines with
  | nil => rfl
  | cons l lines => rw [withoutRemarks, if_neg (next l rfl)]

/-- A line is read as it was written, with or without a remark below it. -/
theorem withoutRemarks_closedLine {line : Line} {rest : List Char} (h : IsLine line)
    (next : ∀ l ∈ (feedLines rest).head?, l ≠ remark) :
    withoutRemarks (feedLines (closedLine line ++ rest)) = line :: withoutRemarks (feedLines rest) := by
  rw [closedLine]
  split
  next closed =>
    -- The line feed is its own.
    obtain ⟨front, rfl⟩ := List.getLast?_eq_some_iff.mp (beq_iff_eq.mp closed)
    have plain := h.2
    rw [List.dropLast_concat] at plain
    rw [List.append_assoc, List.singleton_append, feedLines_append plain, withoutRemarks_cons next]
  next opened =>
    -- A line feed is put behind it, and the remark below takes that away again.
    obtain ⟨nonempty, front⟩ := h
    have plain : '\n' ∉ line := by
      intro member
      rw [← List.dropLast_concat_getLast nonempty] at member
      rcases List.mem_append.mp member with before | last
      · exact front before
      · refine opened (beq_iff_eq.mpr ?_)
        exact (List.getLast?_eq_some_getLast nonempty).trans (congrArg some (List.mem_singleton.mp last).symm)
    have below : line ++ "\n\\ No newline at end of file\n".toList ++ rest =
        line ++ '\n' :: ("\\ No newline at end of file".toList ++ '\n' :: rest) := by
      rw [List.append_assoc]
      rfl
    rw [below, feedLines_append plain, feedLines_append (by decide)]
    change withoutRemarks ((line ++ ['\n']) :: remark :: feedLines rest) = _
    rw [withoutRemarks, if_pos rfl, List.dropLast_concat]

theorem exists_closedLine_cons (c : Char) (line : Line) : ∃ more, closedLine (c :: line) = c :: more := by
  rw [closedLine]
  split
  next => exact ⟨_, rfl⟩
  next => exact ⟨_, rfl⟩

/-- A line that begins with something else than a remark does. -/
def Readable (line : Line) : Prop := IsLine line ∧ line.head? ≠ some '\\'

/-- What is read of a difference are the lines that were written. -/
theorem withoutRemarks_flatMap {lines : List Line} (h : ∀ l ∈ lines, Readable l) :
    withoutRemarks (feedLines (lines.flatMap closedLine)) = lines := by
  induction lines with
  | nil => rfl
  | cons line lines ih =>
    have later := fun l member => h l (List.mem_cons_of_mem line member)
    rw [List.flatMap_cons, withoutRemarks_closedLine (h line List.mem_cons_self).1 ?_, ih later]
    -- What is read next begins as the next line does, and that is not how a remark begins.
    intro l member same
    cases lines with
    | nil => cases member
    | cons next lines =>
      obtain ⟨isLine, other⟩ := later next List.mem_cons_self
      cases next with
      | nil => exact isLine.1 rfl
      | cons c tail =>
        obtain ⟨more, written⟩ := exists_closedLine_cons c tail
        obtain ⟨first, others, read⟩ := exists_feedLines_cons c (more ++ lines.flatMap closedLine)
        rw [List.flatMap_cons, written, List.cons_append, read, Option.mem_def, List.head?_cons, Option.some.injEq] at member
        rw [← member] at same
        exact other (congrArg List.head? same)

/-! ### The lines that are written -/

theorem not_mem_toString (n : Nat) : '\n' ∉ (toString n).toList := by
  rw [Nat.toString_eq_repr, Nat.repr_eq_ofList_toDigits, String.toList_ofList]
  intro member
  exact absurd (Nat.isDigit_of_mem_toDigits (by decide) (by decide) member) (by decide)

theorem not_mem_rangeText (low high : Nat) : '\n' ∉ (rangeText low high).toList := by
  have digits := not_mem_toString
  rw [rangeText]
  split
  · exact digits _
  · split
    · simpa using digits low
    · simpa using And.intro (digits (low + 1)) (digits (high - low))

theorem isLine_marked {mark : Char} (plain : mark ≠ '\n') {line : Line} (h : IsLine line) : IsLine (mark :: line) := by
  obtain ⟨nonempty, front⟩ := h
  refine ⟨List.cons_ne_nil mark line, ?_⟩
  rw [List.dropLast_cons_of_ne_nil nonempty, List.mem_cons, not_or]
  exact ⟨plain.symm, front⟩

theorem readable_closed {c : Char} {front : List Char} (other : c ≠ '\\') (plain : '\n' ∉ c :: front) :
    Readable (c :: front ++ ['\n']) := by
  refine ⟨⟨by simp, ?_⟩, ?_⟩
  · rw [List.dropLast_concat]
    exact plain
  · simpa using other

theorem readable_place (low high otherLow otherHigh : Nat) :
    Readable (s!"@@ -{rangeText low high} +{rangeText otherLow otherHigh} @@\n").toList := by
  have written : (s!"@@ -{rangeText low high} +{rangeText otherLow otherHigh} @@\n").toList =
      '@' :: ("@ -".toList ++ ((rangeText low high).toList ++ (" +".toList ++
        ((rangeText otherLow otherHigh).toList ++ " @@".toList)))) ++ ['\n'] := by
    simp
  rw [written]
  refine readable_closed (by decide) ?_
  simpa using And.intro (not_mem_rangeText low high) (not_mem_rangeText otherLow otherHigh)

variable {p : Pair}

theorem readable_stretchLines (first : ∀ l ∈ p.first.toList, IsLine l) (second : ∀ l ∈ p.second.toList, IsLine l)
    (s : Stretch) : ∀ l ∈ stretchLines p s, Readable l := by
  have part {lines : Array Line} (h : ∀ l ∈ lines.toList, IsLine l) {mark : Char} (plain : mark ≠ '\n')
      (other : mark ≠ '\\') (low high : Nat) : ∀ l ∈ marked mark (slice lines low high), Readable l := by
    intro l member
    obtain ⟨line, inside, rfl⟩ := List.mem_map.mp member
    exact ⟨isLine_marked plain (h line (List.take_subset _ _ (List.drop_subset _ _ inside))), by simpa using other⟩
  intro l member
  rw [stretchLines] at member
  split at member
  next => exact part first (by decide) (by decide) _ _ l member
  next =>
    rcases List.mem_append.mp member with old | new
    · exact part first (by decide) (by decide) _ _ l old
    · exact part second (by decide) (by decide) _ _ l new

theorem readable_unifiedLines (first : ∀ l ∈ p.first.toList, IsLine l) (second : ∀ l ∈ p.second.toList, IsLine l)
    {file : String} (name : '\n' ∉ file.toList) : ∀ l ∈ unifiedLines p file, Readable l := by
  intro l member
  rw [unifiedLines] at member
  split at member
  next => cases member
  next gs _ =>
    rcases List.mem_cons.mp member with rfl | member
    · have written : (s!"--- a/{file}\n").toList = '-' :: ("-- a/".toList ++ file.toList) ++ ['\n'] := by simp
      rw [written]
      exact readable_closed (by decide) (by simpa using name)
    · rcases List.mem_cons.mp member with rfl | member
      · have written : (s!"+++ b/{file}\n").toList = '+' :: ("++ b/".toList ++ file.toList) ++ ['\n'] := by simp
        rw [written]
        exact readable_closed (by decide) (by simpa using name)
      · obtain ⟨g, -, member⟩ := List.mem_flatMap.mp member
        rw [groupLines] at member
        rcases List.mem_cons.mp member with rfl | member
        · exact readable_place _ _ _ _
        · obtain ⟨s, -, member⟩ := List.mem_flatMap.mp member
          exact readable_stretchLines first second s l member

end Remedy.Diff
