import Remedy.Proofs.Diff.Reading

/-!
The difference of two texts is empty if and only if they are the same, and applied to the first text it gives the second, as
long as line feeds alone end lines in both.

If a text has, say, a form feed inside a line, the line is cut there, and a remark stands below the part before it although
more follows. Such a difference does not fit the text that it was made from.
-/

namespace Remedy.Diff

/-! ### Applying a difference -/

theorem closedLine_ne_nil (line : Line) : closedLine line ≠ [] := by
  cases line with
  | nil => decide
  | cons c line =>
    obtain ⟨more, written⟩ := exists_closedLine_cons c line
    rw [written]
    exact List.cons_ne_nil c more

theorem getLast?_closedLine (line : Line) : (closedLine line).getLast? = some '\n' := by
  rw [closedLine]
  split
  next closed => exact beq_iff_eq.mp closed
  next => rw [List.getLast?_append]; rfl

theorem getLast?_flatMap_closedLine {lines : List Line} (nonempty : lines ≠ []) :
    (lines.flatMap closedLine).getLast? = some '\n' := by
  rw [← List.dropLast_concat_getLast nonempty, List.flatMap_append, List.flatMap_singleton, List.getLast?_append,
    getLast?_closedLine]
  rfl

theorem unifiedLines_eq_nil_iff (p : Pair) (file : String) : unifiedLines p file = [] ↔ p.first = p.second := by
  rw [← groups_eq_nil_iff, unifiedLines]
  split
  next none => exact ⟨fun _ => none, fun _ => rfl⟩
  next gs nonempty =>
    constructor
    · intro nothing
      cases nothing
    · intro nothing
      exact absurd nothing nonempty

theorem lines_injective : Function.Injective Text.lines := by
  intro cs ds same
  rw [← flatten_lines cs, same, flatten_lines]

theorem unified_eq_empty_iff (source changed file : String) : unified source changed file = "" ↔ source = changed := by
  have nothing (lines : List Line) : String.ofList (lines.flatMap closedLine) = "" ↔ lines = [] := by
    rw [← String.toList_eq_nil_iff, String.toList_ofList, List.flatMap_eq_nil_iff]
    constructor
    · intro empty
      rw [List.eq_nil_iff_forall_not_mem]
      exact fun line member => closedLine_ne_nil line (empty line member)
    · rintro rfl line member
      cases member
  rw [unified, nothing, unifiedLines_eq_nil_iff]
  constructor
  · intro same
    exact String.toList_inj.mp (lines_injective (List.toArray_inj same))
  · rintro rfl
    rfl

theorem all_closed_dropLast_feedLines (cs : List Char) :
    (feedLines cs).dropLast.all (fun line => line.getLast? == some '\n') = true := by
  -- Every line but the last is followed by another one, so it was a line feed that ended it.
  induction cs with
  | nil => rfl
  | cons c rest ih =>
    by_cases feed : c = '\n'
    · rw [feedLines, if_pos feed]
      cases lines : feedLines rest with
      | nil => rfl
      | cons line more =>
        rw [lines] at ih
        rw [List.dropLast_cons_cons, List.all_cons, ih, feed]
        rfl
    · rw [feedLines_cons feed]
      cases lines : feedLines rest with
      | nil => rfl
      | cons line more =>
        rw [lines] at ih
        cases more with
        | nil => rfl
        | cons next more =>
          rw [List.dropLast_cons_cons, List.all_cons, Bool.and_eq_true, beq_iff_eq] at ih
          rw [glue, List.dropLast_cons_cons, List.all_cons, ih.2, Bool.and_true, beq_iff_eq, List.getLast?_append, ih.1]
          rfl

/-- Between sequences that differ there are hunks, below the two names of the file. -/
theorem unifiedLines_of_ne {p : Pair} (other : p.first ≠ p.second) (file : String) :
    ∃ hunk hunks, (groups (stretches p)).flatMap (groupLines p) = hunk :: hunks ∧
      unifiedLines p file = s!"--- a/{file}\n".toList :: s!"+++ b/{file}\n".toList :: hunk :: hunks := by
  cases gs : groups (stretches p) with
  | nil => exact absurd ((groups_eq_nil_iff p).mp gs) other
  | cons g rest =>
    rw [unifiedLines, gs]
    exact ⟨_, _, rfl, rfl⟩

/-- A difference that is read as the two names of the file and hunks does what the hunks do. -/
theorem applied?_eq {file difference source : String} {hunks made : List Line} {done : Progress}
    (ends : difference.toList.getLast? = some '\n')
    (read : withoutRemarks (feedLines difference.toList) = s!"--- a/{file}\n".toList :: s!"+++ b/{file}\n".toList :: hunks)
    (nonempty : hunks ≠ []) (run : hunks.foldlM Progress.step ⟨0, feedLines source.toList, [], 0, 0⟩ = some done)
    (result : done.result? = some made) : applied? file difference source = some (String.ofList made.flatten) := by
  have given : difference ≠ "" := by
    rintro rfl
    cases ends
  rw [applied?, if_neg given, if_neg (not_not_intro ends), read]
  simp only
  rw [if_pos ⟨trivial, trivial, nonempty⟩, run]
  simp only [bind, Option.bind, result]
  rfl

/-- Where line feeds alone end lines, a difference makes the second text of the first. -/
theorem applied?_unified {source changed file : String} (name : '\n' ∉ file.toList) (h : EndsByFeeds source.toList)
    (h' : EndsByFeeds changed.toList) : applied? file (unified source changed file) source = some changed := by
  by_cases same : source = changed
  · rw [applied?, if_pos ((unified_eq_empty_iff source changed file).mpr same), same]
  · generalize defined : Pair.of (Text.lines source.toList) (Text.lines changed.toList) = p
    have first : p.first.toList = Text.lines source.toList := by rw [← defined]; rfl
    have second : p.second.toList = Text.lines changed.toList := by rw [← defined]; rfl
    have written : (unified source changed file).toList = (unifiedLines p file).flatMap closedLine := by
      rw [unified, defined, String.toList_ofList]
    have other : p.first ≠ p.second := by
      intro equal
      exact same (String.toList_inj.mp (lines_injective (by rw [← first, ← second, equal])))
    have readable : ∀ l ∈ unifiedLines p file, Readable l := by
      refine readable_unifiedLines (fun l member => ?_) (fun l member => ?_) name
      · exact isLine_of_mem_linesFrom List.not_mem_nil l (first ▸ member)
      · exact isLine_of_mem_linesFrom List.not_mem_nil l (second ▸ member)
    -- The hunks are run on the lines of the texts, which are those that are read.
    have closed := all_closed_dropLast_feedLines changed.toList
    rw [← lines_eq_feedLines_iff.mpr h', ← second] at closed
    obtain ⟨done, run, result⟩ := run_groups p closed
    obtain ⟨hunk, hunks, found, shown⟩ := unifiedLines_of_ne other file
    rw [first, lines_eq_feedLines_iff.mpr h, found] at run
    have ends : (unified source changed file).toList.getLast? = some '\n' := by
      rw [written, shown]
      exact getLast?_flatMap_closedLine (List.cons_ne_nil _ _)
    have read : withoutRemarks (feedLines (unified source changed file).toList) =
        s!"--- a/{file}\n".toList :: s!"+++ b/{file}\n".toList :: hunk :: hunks := by
      rw [written, withoutRemarks_flatMap readable, shown]
    rw [applied?_eq ends read (List.cons_ne_nil hunk hunks) run result, second, flatten_lines, String.ofList_toList]

/-- A difference is empty if and only if the texts are the same. Where line feeds alone end lines, it makes the second text of
the first. -/
theorem unified_round_trip (source changed file : String) :
    (unified source changed file = "" ↔ source = changed) ∧
      ('\n' ∉ file.toList → EndsByFeeds source.toList → EndsByFeeds changed.toList →
        applied? file (unified source changed file) source = some changed) :=
  ⟨unified_eq_empty_iff source changed file, applied?_unified⟩

theorem last_line_closed :
    '\n' ∉ "f.html".toList ∧ EndsByFeeds "a\r\nb".toList ∧ EndsByFeeds "a\r\nb\n".toList ∧
      applied? "f.html" (unified "a\r\nb" "a\r\nb\n" "f.html") "a\r\nb" = some "a\r\nb\n" := by
  have name : '\n' ∉ "f.html".toList := by decide
  have source : EndsByFeeds "a\r\nb".toList := by decide
  have changed : EndsByFeeds "a\r\nb\n".toList := by decide
  exact ⟨name, source, changed, (unified_round_trip _ _ _).2 name source changed⟩

/-- A form feed inside a line cuts it, and the part before it is said to be the end of the text. -/
theorem form_feed_not_applied :
    '\n' ∉ "f.html".toList ∧
      unified "a\x0cb\n" "a\x0cc\n" "f.html" =
        "--- a/f.html\n+++ b/f.html\n@@ -1,2 +1,2 @@\n a\x0c\n\\ No newline at end of file\n-b\n+c\n" ∧
      applied? "f.html" (unified "a\x0cb\n" "a\x0cc\n" "f.html") "a\x0cb\n" = none := by
  decide +kernel

end Remedy.Diff
