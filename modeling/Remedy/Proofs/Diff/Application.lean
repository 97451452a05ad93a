import Remedy.Proofs.Diff.Grouping
import Remedy.Proofs.Text.Runs

/-!
What a difference in the unified format does to a text, read as strictly as can be.

Lines end at line feeds and nowhere else. The difference names the file on both sides. Every hunk stands where its first line
says it does, in the text and in the result, and has as many lines of both as that line says; all lines that are kept or taken
away must be those of the text. A line without a line feed is one that a remark follows, and only the last line of a text can
be without.

The hunks are read by a machine that goes through them line by line. What it does with each kind of line is said for a whole
stretch of such lines, then for a group of stretches, then for all groups.
-/

namespace Remedy.Diff

/-- Cuts a text after every line feed. -/
def feedLines : List Char → List Line
  | [] => []
  | c :: rest =>
    if c = '\n' then [c] :: feedLines rest
    else match feedLines rest with
      | [] => [[c]]
      | line :: more => (c :: line) :: more

/-- What stands below a line that has no line feed. -/
def remark : Line := "\\ No newline at end of file\n".toList

/-- The lines of a difference without the remarks: the line feed before a remark does not belong to the line. -/
def withoutRemarks : List Line → List Line
  | line :: next :: rest =>
    if next = remark then line.dropLast :: withoutRemarks rest else line :: withoutRemarks (next :: rest)
  | lines => lines

/-! ### Where a hunk stands -/

/-- A number at the front, and what follows it. -/
def number? (cs : List Char) : Option (Nat × List Char) :=
  let digits := cs.takeWhile Char.isDigit
  if digits.isEmpty then none else some (Nat.ofDigitChars 10 digits 0, cs.dropWhile Char.isDigit)

/-- From which line up to which. The first one counts as one; of no lines, the one before them is named. -/
def bounds? (start size : Nat) : Option (Nat × Nat) :=
  if size = 0 then some (start, start) else if start = 0 then none else some (start - 1, start - 1 + size)

/-- Which lines are meant, and what follows that; if it does not say how many they are, it is one. -/
def range? (cs : List Char) : Option ((Nat × Nat) × List Char) := do
  let (start, rest) ← number? cs
  match rest with
  | ',' :: rest =>
    let (size, rest) ← number? rest
    return (← bounds? start size, rest)
  | _ => return (← bounds? start 1, rest)

/-- What follows a word. -/
def after? (word : String) (cs : List Char) : Option (List Char) :=
  if word.toList <+: cs then some (cs.drop word.length) else none

/-- Where the first line of a hunk says that it stands. -/
def place? (line : Line) : Option Window := do
  let rest ← after? "@@ -" line
  let ((low, high), rest) ← range? rest
  let rest ← after? " +" rest
  let ((otherLow, otherHigh), rest) ← range? rest
  if rest = " @@\n".toList then some ⟨low, high, otherLow, otherHigh⟩ else none

/-! ### Hunks -/

/-- How far a difference has been applied. -/
structure Progress where
  /-- How many lines of the text are behind. -/
  behind : Nat
  ahead : List Line
  made : List Line
  /-- How many lines of the text the hunk still has. -/
  old : Nat
  /-- How many lines of the result the hunk still has. -/
  new : Nat
  deriving DecidableEq

/-- Begins a hunk: lines before it are kept as they are. -/
def Progress.enter (s : Progress) (w : Window) : Option Progress :=
  let gap := w.low - s.behind
  if s.behind ≤ w.low ∧ gap ≤ s.ahead.length ∧ s.made.length + gap = w.otherLow then
    some ⟨w.low, s.ahead.drop gap, s.made ++ s.ahead.take gap, w.high - w.low, w.otherHigh - w.otherLow⟩
  else none

/-- Keeps the next line. -/
def Progress.keep (s : Progress) (line : Line) : Option Progress :=
  match s with
  | ⟨behind, next :: ahead, made, old + 1, new + 1⟩ =>
    if next = line then some ⟨behind + 1, ahead, made ++ [line], old, new⟩ else none
  | _ => none

/-- Takes the next line away. -/
def Progress.remove (s : Progress) (line : Line) : Option Progress :=
  match s with
  | ⟨behind, next :: ahead, made, old + 1, new⟩ => if next = line then some ⟨behind + 1, ahead, made, old, new⟩ else none
  | _ => none

/-- Puts a line in. -/
def Progress.insert (s : Progress) (line : Line) : Option Progress :=
  match s with
  | ⟨behind, ahead, made, old, new + 1⟩ => some ⟨behind, ahead, made ++ [line], old, new⟩
  | _ => none

/-- Goes on by one line of the difference. -/
def Progress.step (s : Progress) (line : Line) : Option Progress :=
  if s.old = 0 ∧ s.new = 0 then (place? line).bind s.enter
  else match line with
    | ' ' :: line => s.keep line
    | '-' :: line => s.remove line
    | '+' :: line => s.insert line
    | _ => none

/-- The lines of the result when all hunks are done. Only the last of them can be without a line feed. -/
def Progress.result? (s : Progress) : Option (List Line) :=
  let lines := s.made ++ s.ahead
  if s.old = 0 ∧ s.new = 0 ∧ lines.dropLast.all (fun line => line.getLast? == some '\n') then some lines else none

/-- What a difference makes of a text; nothing if it cannot be read or does not fit. An empty difference changes nothing. -/
def applied? (file difference source : String) : Option String :=
  if difference = "" then some source
  else if difference.toList.getLast? ≠ some '\n' then none
  else match withoutRemarks (feedLines difference.toList) with
    | old :: new :: hunks =>
      if old = s!"--- a/{file}\n".toList ∧ new = s!"+++ b/{file}\n".toList ∧ hunks ≠ [] then do
        let done ← hunks.foldlM Progress.step ⟨0, feedLines source.toList, [], 0, 0⟩
        return String.ofList (← done.result?).flatten
      else none
    | _ => none

example : applied? "f" "--- a/f\n+++ b/f\n@@ -1,2 +1,2 @@\n a\n-b\n\\ No newline at end of file\n+c\n" "a\nb" = some "a\nc\n" := by
  decide +kernel

/-! ### Reading numbers and places -/

@[simp] theorem toString_string (s : String) : toString s = s := rfl

theorem number?_append (n : Nat) {c : Char} (other : c.isDigit = false) (rest : List Char) :
    number? ((toString n).toList ++ c :: rest) = some (n, c :: rest) := by
  have digits (c : Char) (member : c ∈ Nat.toDigits 10 n) : c.isDigit = true := isDigit_of_mem_toDigits member
  have nonempty : (Nat.toDigits 10 n).isEmpty = false := List.isEmpty_eq_false_iff.mpr Nat.toDigits_ne_nil
  rw [number?, toList_toString, takeWhile_ends digits (ends_cons other), dropWhile_ends digits (ends_cons other)]
  simp only [nonempty, Bool.false_eq_true, if_false]
  rw [Nat.ofDigitChars_toDigits (by decide) (by decide)]

theorem range?_counted (start size : Nat) {c : Char} (other : c.isDigit = false) (rest : List Char) :
    range? ((toString start).toList ++ ',' :: ((toString size).toList ++ c :: rest)) =
      (bounds? start size).map fun bounds => (bounds, c :: rest) := by
  rw [range?, number?_append start (by decide)]
  simp only [bind, Option.bind, number?_append size other]
  cases bounds? start size with
  | none => rfl
  | some bounds => rfl

theorem range?_single (start : Nat) {c : Char} (other : c.isDigit = false) (comma : c ≠ ',')
    (rest : List Char) :
    range? ((toString start).toList ++ c :: rest) = (bounds? start 1).map fun bounds => (bounds, c :: rest) := by
  rw [range?, number?_append start other]
  simp only [bind, Option.bind]
  split
  next same => exact absurd (List.cons.inj same).1 comma
  next =>
    cases bounds? start 1 with
    | none => rfl
    | some bounds => rfl

/-- The lines that a hunk is said to have are read as they were meant. -/
theorem range?_rangeText {low high : Nat} (h : low ≤ high) {c : Char} (other : c.isDigit = false) (comma : c ≠ ',')
    (rest : List Char) : range? ((rangeText low high).toList ++ c :: rest) = some ((low, high), c :: rest) := by
  obtain ⟨size, rfl⟩ := Nat.exists_eq_add_of_le h
  rw [rangeText, Nat.add_sub_cancel_left]
  match size with
  | 0 =>
    have read := range?_counted low 0 other rest
    simpa [bounds?] using read
  | 1 =>
    have read := range?_single (low + 1) other comma rest
    simpa [bounds?] using read
  | size + 2 =>
    have read := range?_counted (low + 1) (size + 2) other rest
    simpa [bounds?] using read

theorem after?_append (word : String) (rest : List Char) : after? word (word.toList ++ rest) = some rest := by
  rw [after?, if_pos (List.prefix_append _ _), ← String.length_toList, List.drop_left]

/-- The first line of a hunk is read as it was meant. -/
theorem place?_written {w : Window} (low : w.low ≤ w.high) (otherLow : w.otherLow ≤ w.otherHigh) :
    place? (s!"@@ -{rangeText w.low w.high} +{rangeText w.otherLow w.otherHigh} @@\n").toList = some w := by
  have written : (s!"@@ -{rangeText w.low w.high} +{rangeText w.otherLow w.otherHigh} @@\n").toList =
      "@@ -".toList ++ ((rangeText w.low w.high).toList ++ (" +".toList ++
        ((rangeText w.otherLow w.otherHigh).toList ++ " @@\n".toList))) := by
    simp
  have first : range? ((rangeText w.low w.high).toList ++ (" +".toList ++
      ((rangeText w.otherLow w.otherHigh).toList ++ " @@\n".toList))) =
        some ((w.low, w.high), " +".toList ++ ((rangeText w.otherLow w.otherHigh).toList ++ " @@\n".toList)) :=
    range?_rangeText low (c := ' ') (by decide) (by decide) _
  have second : range? ((rangeText w.otherLow w.otherHigh).toList ++ " @@\n".toList) =
      some ((w.otherLow, w.otherHigh), " @@\n".toList) :=
    range?_rangeText otherLow (c := ' ') (by decide) (by decide) _
  rw [written, place?, after?_append]
  simp only [bind, Option.bind, first, after?_append, second, if_true]

/-! ### One stretch after the other -/

/-- Where the machine is when it has made so many lines of the second sequence from so many of the first. -/
def Pair.progress (p : Pair) (i j old new : Nat) : Progress :=
  ⟨i, slice p.first i p.first.size, slice p.second 0 j, old, new⟩

theorem keep_lines (behind : Nat) (lines ahead made : List Line) (old new : Nat) :
    (marked ' ' lines).foldlM Progress.step ⟨behind, lines ++ ahead, made, lines.length + old, lines.length + new⟩ =
      some ⟨behind + lines.length, ahead, made ++ lines, old, new⟩ := by
  induction lines generalizing behind made with
  | nil => simp [marked]
  | cons line rest ih =>
    have step : Progress.step
        ⟨behind, line :: (rest ++ ahead), made, rest.length + old + 1, rest.length + new + 1⟩ (' ' :: line) =
          some ⟨behind + 1, rest ++ ahead, made ++ [line], rest.length + old, rest.length + new⟩ := by
      simp [Progress.step, Progress.keep]
    have next := ih (behind + 1) (made ++ [line])
    rw [marked] at next ⊢
    rw [List.map_cons, List.foldlM_cons, List.cons_append, List.length_cons, Nat.add_right_comm, Nat.add_right_comm _ 1 new,
      step]
    simp only [bind, Option.bind]
    rw [next, List.append_assoc, Nat.add_assoc, Nat.add_comm 1]
    rfl

theorem remove_lines (behind : Nat) (lines ahead made : List Line) (old new : Nat) :
    (marked '-' lines).foldlM Progress.step ⟨behind, lines ++ ahead, made, lines.length + old, new⟩ =
      some ⟨behind + lines.length, ahead, made, old, new⟩ := by
  induction lines generalizing behind with
  | nil => simp [marked]
  | cons line rest ih =>
    have step : Progress.step ⟨behind, line :: (rest ++ ahead), made, rest.length + old + 1, new⟩ ('-' :: line) =
        some ⟨behind + 1, rest ++ ahead, made, rest.length + old, new⟩ := by
      simp [Progress.step, Progress.remove]
    have next := ih (behind + 1)
    rw [marked] at next ⊢
    rw [List.map_cons, List.foldlM_cons, List.cons_append, List.length_cons, Nat.add_right_comm, step]
    simp only [bind, Option.bind]
    rw [next, Nat.add_assoc, Nat.add_comm 1]

theorem insert_lines (behind : Nat) (lines ahead made : List Line) (old new : Nat) :
    (marked '+' lines).foldlM Progress.step ⟨behind, ahead, made, old, lines.length + new⟩ =
      some ⟨behind, ahead, made ++ lines, old, new⟩ := by
  induction lines generalizing made with
  | nil => simp [marked]
  | cons line rest ih =>
    have step : Progress.step ⟨behind, ahead, made, old, rest.length + new + 1⟩ ('+' :: line) =
        some ⟨behind, ahead, made ++ [line], old, rest.length + new⟩ := by
      simp [Progress.step, Progress.insert]
    have next := ih (made ++ [line])
    rw [marked] at next ⊢
    rw [List.map_cons, List.foldlM_cons, List.length_cons, Nat.add_right_comm, step]
    simp only [bind, Option.bind]
    rw [next, List.append_assoc]
    rfl

variable {p : Pair}

theorem step_stretch {s : Stretch} (h : s.Fits p) (old new : Nat) :
    (stretchLines p s).foldlM Progress.step
      (p.progress s.window.low s.window.otherLow (s.window.high - s.window.low + old)
        (s.window.otherHigh - s.window.otherLow + new)) =
      some (p.progress s.window.high s.window.otherHigh old new) := by
  -- The lines of the stretch are the first of those ahead, and what has been made ends where they come in.
  have ahead := (slice_append p.first h.low h.high).symm
  have made := slice_append p.second (Nat.zero_le _) h.otherLow
  have length := length_slice p.first s.window.low h.high
  have otherLength := length_slice p.second s.window.otherLow h.otherHigh
  have low := Nat.add_sub_cancel' h.low
  rw [stretchLines, Pair.progress, Pair.progress, ahead, ← made]
  split
  next same =>
    have unchanged := h.same same
    have kept := keep_lines s.window.low (slice p.first s.window.low s.window.high)
      (slice p.first s.window.high p.first.size) (slice p.second 0 s.window.otherLow) old new
    rw [length] at kept
    rw [← unchanged.size_eq, kept, low, unchanged.equal]
  next =>
    -- What is taken away is written first, so all that is inserted stands at the end of it in the first sequence.
    have removed := remove_lines s.window.low (slice p.first s.window.low s.window.high)
      (slice p.first s.window.high p.first.size) (slice p.second 0 s.window.otherLow) old
      (s.window.otherHigh - s.window.otherLow + new)
    have inserted := insert_lines s.window.high (slice p.second s.window.otherLow s.window.otherHigh)
      (slice p.first s.window.high p.first.size) (slice p.second 0 s.window.otherLow) old new
    rw [length, low] at removed
    rw [otherLength] at inserted
    rw [List.foldlM_append, removed]
    exact inserted

/-- What is left of a hunk after some of its stretches is what the others have. -/
theorem step_tiles {i j k l : Nat} {ss : List Stretch} (h : Tiles p k l i j ss) (first : i ≤ p.first.size)
    (second : j ≤ p.second.size) :
    (ss.flatMap (stretchLines p)).foldlM Progress.step (p.progress i j (k - i) (l - j)) = some (p.progress k l 0 0) := by
  induction ss generalizing i j with
  | nil =>
    obtain ⟨rfl, rfl⟩ := h
    rw [Nat.sub_self, Nat.sub_self]
    rfl
  | cons s rest ih =>
    obtain ⟨fits, rfl, rfl, tiles⟩ := h
    obtain ⟨low, -, otherLow, -⟩ := tiles.bounds fits.high fits.otherHigh
    have here := step_stretch fits (k - s.window.high) (l - s.window.otherHigh)
    -- A hunk counts the lines that are left of it down to its end, which lies behind the stretches to come.
    have old : s.window.high - s.window.low + (k - s.window.high) = k - s.window.low := by
      have := fits.low
      omega
    have new : s.window.otherHigh - s.window.otherLow + (l - s.window.otherHigh) = l - s.window.otherLow := by
      have := fits.otherLow
      omega
    rw [old, new] at here
    rw [List.flatMap_cons, List.foldlM_append, here]
    exact ih tiles fits.high fits.otherHigh

/-! ### One group after the other -/

theorem Progress.step_between {s : Progress} (h : s.old = 0 ∧ s.new = 0) (line : Line) :
    s.step line = (place? line).bind s.enter := by
  unfold Progress.step
  exact if_pos h

theorem enter_group {i a c j b d : Nat} (front : Unchanged p ⟨i, a, j, b⟩) :
    (p.progress i j 0 0).enter ⟨a, c, b, d⟩ = some (p.progress a b (c - a) (d - b)) := by
  have low : i ≤ a := front.low
  have high : a ≤ p.first.size := front.high
  have otherLow : j ≤ b := front.otherLow
  have otherHigh : b ≤ p.second.size := front.otherHigh
  have size : a - i = b - j := front.size_eq
  have equal : slice p.first i a = slice p.second j b := front.equal
  have ahead := length_slice p.first i (Nat.le_refl p.first.size)
  have made := length_slice p.second 0 (Nat.le_trans otherLow otherHigh)
  have gap := Nat.add_sub_cancel' low
  have fits : i ≤ a ∧ a - i ≤ (slice p.first i p.first.size).length ∧ (slice p.second 0 j).length + (a - i) = b := by
    omega
  -- The gap before the group is kept without being looked at. It is unchanged, so that makes the same lines of the second
  -- sequence.
  have kept : (slice p.first i p.first.size).take (a - i) = slice p.second j b := by
    rw [take_slice p.first (by omega), gap, equal]
  have left : (slice p.first i p.first.size).drop (a - i) = slice p.first a p.first.size := by
    rw [drop_slice, gap]
  rw [Progress.enter]
  refine (if_pos fits).trans ?_
  simp only [Pair.progress]
  rw [kept, left, slice_append p.second (Nat.zero_le j) otherLow]

theorem step_group {g : List Stretch} {i a c j b d : Nat} (nonempty : g ≠ []) (front : Unchanged p ⟨i, a, j, b⟩)
    (h : Tiles p c d a b g) :
    (groupLines p g).foldlM Progress.step (p.progress i j 0 0) = some (p.progress c d 0 0) := by
  obtain ⟨low, -, otherLow, -⟩ := h.bounds front.high front.otherHigh
  have run := step_tiles h front.high front.otherHigh
  have ends := List.getLast?_eq_some_getLast nonempty
  obtain ⟨high, otherHigh⟩ := h.last ends
  cases g with
  | nil => exact absurd rfl nonempty
  | cons s rest =>
    obtain ⟨-, start, otherStart, -⟩ := h
    have place := place?_written (w := ⟨a, c, b, d⟩) low otherLow
    have step := enter_group (c := c) (d := d) front
    rw [groupLines, ends]
    simp only [List.head?_cons, Option.map_some, Option.getD_some, start, otherStart, high, otherHigh]
    rw [List.foldlM_cons, Progress.step_between ⟨rfl, rfl⟩, place]
    simp only [Option.bind, bind, step]
    exact run

/-- The hunks that are made from groups make the second sequence from the first. -/
theorem step_groups {gs : List (List Stretch)} {i j : Nat} (h : Grouped p p.first.size p.second.size i j gs)
    (nonempty : ∀ g ∈ gs, g ≠ []) :
    ∃ c d, (gs.flatMap (groupLines p)).foldlM Progress.step (p.progress i j 0 0) = some (p.progress c d 0 0) ∧
      Unchanged p ⟨c, p.first.size, d, p.second.size⟩ := by
  induction gs generalizing i j with
  | nil => exact ⟨i, j, rfl, h⟩
  | cons g gs ih =>
    obtain ⟨a, b, c, d, front, tiles, grouped⟩ := h
    obtain ⟨k, l, run, back⟩ := ih grouped fun g later => nonempty g (List.mem_cons_of_mem _ later)
    refine ⟨k, l, ?_, back⟩
    rw [List.flatMap_cons, List.foldlM_append, step_group (nonempty g List.mem_cons_self) front tiles]
    exact run

theorem progress_start (p : Pair) : p.progress 0 0 0 0 = ⟨0, p.first.toList, [], 0, 0⟩ := by
  rw [Pair.progress, slice_all]
  rfl

/-- When all groups are through, what is made is the second sequence. -/
theorem result?_progress {c d : Nat} (back : Unchanged p ⟨c, p.first.size, d, p.second.size⟩)
    (closed : p.second.toList.dropLast.all (fun line => line.getLast? == some '\n') = true) :
    (p.progress c d 0 0).result? = some p.second.toList := by
  have otherLow : d ≤ p.second.size := back.otherLow
  have equal : slice p.first c p.first.size = slice p.second d p.second.size := back.equal
  have whole : slice p.second 0 d ++ slice p.first c p.first.size = p.second.toList := by
    rw [equal, slice_append _ (Nat.zero_le d) otherLow, slice_all]
  rw [Progress.result?, Pair.progress]
  exact (if_pos ⟨rfl, rfl, by rw [whole]; exact closed⟩).trans (congrArg some whole)

/-- The hunks of a difference make the second sequence from the first. -/
theorem run_groups (p : Pair) (closed : p.second.toList.dropLast.all (fun line => line.getLast? == some '\n') = true) :
    ∃ done, ((groups (stretches p)).flatMap (groupLines p)).foldlM Progress.step ⟨0, p.first.toList, [], 0, 0⟩ = some done ∧
      done.result? = some p.second.toList := by
  have nonempty : ∀ g ∈ groups (stretches p), g ≠ [] := by
    rintro g member rfl
    obtain ⟨s, inside, -⟩ := exists_change member
    cases inside
  obtain ⟨c, d, run, back⟩ := step_groups p.grouped_groups nonempty
  rw [progress_start] at run
  exact ⟨_, run, result?_progress back closed⟩

end Remedy.Diff
