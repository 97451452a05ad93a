import Remedy.Proofs.Component.TagText
import Remedy.Proofs.Edit.LineText
import Remedy.Proofs.Markup.Quotes

/-!
The search for the end of a tag, as a search of the text.

Line by line, the walk from a `<` does what a reader of the whole text would do: it ends at the first angle bracket outside of
quotes, line feeds or not. A tag is found exactly if that bracket is a `>`. Its text is that from the one bracket to the other,
and new attributes go before the last one, or before a slash right in front of it.
-/

namespace Remedy

open Component (Line)

/-! ### Columns along a text -/

section

variable {lines : List Line} {i : Nat} {c : Int} {front xs back : List Char}

theorem not_mem_getD (plain : ∀ line ∈ lines, '\n' ∉ line) (n : Nat) : '\n' ∉ lines.getD n [] := by
  rw [List.getD_eq_getElem?_getD]
  cases line : lines[n]? with
  | none => simp
  | some l => exact plain l (List.mem_of_getElem? line)

/-- What stands on the line of a column, and what follows on the lines below. -/
theorem CutsAt.onLine (cut : CutsAt lines i c front (xs ++ back)) (plain : '\n' ∉ xs) :
    ∃ ys, (lines.getD i []).drop c.toNat = xs ++ ys ∧ back = ys ++ (lines.drop (i + 1)).flatMap ('\n' :: ·) := by
  rcases List.append_eq_append_iff.mp cut.back with ⟨more, longer, below⟩ | ⟨ys, line, rest⟩
  · cases more with
    | nil => exact ⟨[], by simpa using longer.symm, by simpa using below.symm⟩
    | cons d more =>
      -- Whatever follows a line begins with a line feed.
      cases later : lines.drop (i + 1) with
      | nil => simp [later] at below
      | cons line rest =>
        rw [later, List.flatMap_cons, List.cons_append] at below
        obtain ⟨rfl, _⟩ := List.cons.inj below
        exact absurd (by simp [longer]) plain
  · exact ⟨ys, line, rest⟩

/-- A column moves along what stands behind it on its line. -/
theorem CutsAt.along_line (cut : CutsAt lines i c front (xs ++ back)) {ys : List Char}
    (line : (lines.getD i []).drop c.toNat = xs ++ ys) : CutsAt lines i (c + xs.length) (front ++ xs) back := by
  obtain ⟨line_lt, nonneg, le_length⟩ := cut.column
  have rest := cut.back
  rw [fromColumn, line, List.append_assoc] at rest
  have width := congrArg List.length line
  rw [List.length_drop, List.length_append] at width
  have column : (c + xs.length).toNat = c.toNat + xs.length := by omega
  refine ⟨⟨line_lt, by omega, by omega⟩, ?_, ?_⟩
  · rw [← cut.front, beforeColumn, beforeColumn, column, List.take_add, line, List.take_left, List.append_assoc]
  · rw [fromColumn, column, ← List.drop_drop, line, List.drop_left, List.append_cancel_left rest]

/-- A column moves along a text without line feeds. -/
theorem CutsAt.along (cut : CutsAt lines i c front (xs ++ back)) (plain : '\n' ∉ xs) :
    CutsAt lines i (c + xs.length) (front ++ xs) back := by
  obtain ⟨ys, line, _⟩ := cut.onLine plain
  exact cut.along_line line

/-- Behind the rest of a line the next one begins. -/
theorem CutsAt.nextLine (cut : CutsAt lines i c front (xs ++ '\n' :: back)) (line : (lines.getD i []).drop c.toNat = xs) :
    CutsAt lines (i + 1) 0 (front ++ xs ++ ['\n']) back := by
  have ended : (lines.getD i []).drop c.toNat = xs ++ [] := by rw [line, List.append_nil]
  have behind := cut.along_line ended
  obtain ⟨line_lt, nonneg, _⟩ := cut.column
  have column : (c + xs.length).toNat = c.toNat + xs.length := by omega
  have last : (lines.getD i []).drop (c + xs.length).toNat = [] := by
    rw [column, ← List.drop_drop, line, List.drop_length]
  have rest := behind.back
  rw [fromColumn, last, List.nil_append] at rest
  have next : i + 1 < lines.length := by
    by_contra outside
    rw [List.drop_of_length_le (by omega)] at rest
    cases rest
  refine ⟨⟨next, Int.le_refl 0, by omega⟩, ?_, ?_⟩
  · have whole : (lines.getD i []).take (c + xs.length).toNat = lines.getD i [] :=
      List.take_of_length_le (List.drop_eq_nil_iff.mp last)
    rw [← behind.front, beforeColumn, beforeColumn, whole, List.take_add_one, List.flatMap_append,
      List.getElem?_eq_getElem line_lt, List.getD_eq_getElem _ _ line_lt]
    simp
  · rw [List.drop_eq_getElem_cons next, List.flatMap_cons, List.cons_append] at rest
    rw [fromColumn, List.getD_eq_getElem _ _ next]
    exact (List.cons.inj rest).2

end

namespace Component

open Markup (IsInside IsMarks quoteAfter? quoteBehind?)

/-! ### One line -/

/-- What stands right before what follows a stretch of a line. -/
def lastOf (previous : Option Char) (cs : List Char) : Option Char := cs.getLast?.or previous

theorem lastOf_cons (previous : Option Char) (c : Char) (cs : List Char) : lastOf previous (c :: cs) = lastOf (some c) cs := by
  rw [lastOf, lastOf, List.getLast?_cons]
  cases cs.getLast? <;> rfl

section

variable {quote behind previous : Option Char} {column : Int} {xs : Line}

/-- A walk goes on behind a stretch without a bracket outside of quotes. -/
theorem walk_append (passed : quoteAfter? quote xs = some behind) (ys : Line) :
    walk quote previous column (xs ++ ys) = walk behind (lastOf previous xs) (column + xs.length) ys := by
  induction xs generalizing quote previous column with
  | nil =>
    obtain rfl := Option.some.inj passed
    simp [lastOf]
  | cons c xs ih =>
    rw [Markup.quoteAfter?_cons] at passed
    obtain ⟨next, first, passed⟩ := Option.bind_eq_some_iff.mp passed
    have onward : walk next (some c) (column + 1) (xs ++ ys) = walk behind (lastOf (some c) xs) (column + 1 + xs.length) ys :=
      ih passed
    have further : column + 1 + (xs.length : Int) = column + (c :: xs).length := by
      rw [List.length_cons]
      omega
    rw [← lastOf_cons previous, further] at onward
    rw [← onward]
    -- In each case the walk and the count of quotes take the same step.
    cases quote with
    | some q =>
      obtain rfl := Option.some.inj first
      simp [walk]
    | none =>
      simp only [quoteBehind?] at first
      split at first
      next mark =>
        obtain rfl := Option.some.inj first
        simp [walk, mark]
      next mark =>
        split at first
        · cases first
        next bracket =>
          obtain rfl := Option.some.inj first
          simp only [not_or] at mark bracket
          simp [walk, mark, bracket]

theorem walk_open (passed : quoteAfter? quote xs = some behind) : walk quote previous column xs = .open behind := by
  have onward : walk quote previous column (xs ++ []) = _ := walk_append passed []
  rwa [List.append_nil] at onward

theorem walk_blocked (closed : quoteAfter? quote xs = some none) (ys : Line) :
    walk quote previous column (xs ++ '<' :: ys) = .blocked := by
  rw [walk_append closed]
  rfl

theorem walk_closed (closed : quoteAfter? quote xs = some none) (ys : Line) :
    walk quote previous column (xs ++ '>' :: ys) =
      .ended (column + xs.length) (0 < column + xs.length && lastOf previous xs == some '/') := by
  rw [walk_append closed]
  rfl

end

/-! ### The text of a tag -/

/-- The slash that a tag ends in, if it closes itself. -/
def OpenTag.slash (t : OpenTag) : List Char := if t.selfClosing then ['/'] else []

/-- A tag takes up a part of the text of some lines, from its `<` up to its `>`, and new attributes go before what ends it. -/
structure OpenTag.Covers (lines : List Line) (t : OpenTag) (front opened tail : List Char) : Prop where
  text : t.text lines = opened ++ ['>']
  slash : t.selfClosing = (opened.getLast? == some '/')
  place : ∃ body, opened = body ++ t.slash ∧ CutsAt lines t.line t.column (front ++ body) (t.slash ++ '>' :: tail)

section

variable {lines : List Line} {number : Nat} {front inside tail : List Char}

/-- Where a tag ends on a line. -/
theorem place_of_closed {c : Nat} {xs ys : List Char} (cut : CutsAt lines number c front (xs ++ '>' :: tail))
    (line : (lines.getD number []).drop c = xs ++ '>' :: ys) {afterSlash : Bool}
    (slash : afterSlash = (xs.getLast? == some '/')) :
    (⟨number, c, c + xs.length + 1⟩ : Segment).text lines = xs ++ ['>'] ∧
      ∃ body, xs = body ++ (if afterSlash then ['/'] else []) ∧
        CutsAt lines number (if afterSlash then c + xs.length - 1 else c + xs.length) (front ++ body)
          ((if afterSlash then ['/'] else []) ++ '>' :: tail) := by
  constructor
  · have stop : (c : Int) + xs.length + 1 = ((c + (xs ++ ['>']).length : Nat) : Int) := by
      rw [List.length_append, List.length_singleton]
      omega
    have inside : c ≤ (lines.getD number []).length := Int.ofNat_le.mp cut.column.le_length
    have split : xs ++ '>' :: ys = (xs ++ ['>']) ++ ys := by simp
    rw [Segment.text, stop, between_natCast _ _ _ inside, List.drop_take, Nat.add_sub_cancel_left, line, split,
      List.take_left]
  · cases afterSlash with
    | false => exact ⟨xs, by simp, cut.along_line line⟩
    | true =>
      -- The slash belongs to what ends the tag, so the place is one column further to the left.
      obtain ⟨body, rfl⟩ := List.getLast?_eq_some_iff.mp (beq_iff_eq.mp slash.symm)
      rw [List.append_assoc] at cut line
      have moved := cut.along_line line
      refine ⟨body, by simp, ?_⟩
      have column : (c : Int) + (body ++ ['/']).length - 1 = c + body.length := by
        rw [List.length_append, List.length_singleton]
        omega
      rw [if_pos rfl, if_pos rfl, column]
      exact moved

/-- A text that goes on to its first bracket outside of quotes begins with a line that has none, or with all of it. -/
theorem line_cases {quote : Option Char} {line : Line} {more : List Line}
    (closed : quoteAfter? quote inside = some none) (text : line ++ more.flatMap ('\n' :: ·) = inside ++ '>' :: tail) :
    (∃ behind below, quoteAfter? quote line = some behind ∧ inside = line ++ '\n' :: below ∧
        quoteAfter? behind ('\n' :: below) = some none) ∨
      ∃ ys, line = inside ++ '>' :: ys := by
  cases passed : quoteAfter? quote line with
  | some behind =>
    left
    rcases List.append_eq_append_iff.mp text with ⟨below, rfl, rest⟩ | ⟨ys, split, rest⟩
    · rw [Markup.quoteAfter?_append, passed, Option.bind_some] at closed
      cases more with
      | nil => cases below <;> cases rest
      | cons next more =>
        rw [List.flatMap_cons, List.cons_append] at rest
        cases below with
        | nil =>
          obtain ⟨feed, _⟩ := List.cons.inj rest
          exact absurd feed (by decide)
        | cons c below =>
          obtain ⟨rfl, _⟩ := List.cons.inj rest
          exact ⟨behind, below, rfl, rfl, closed⟩
    · cases ys with
      | nil =>
        -- The lines below do not begin with a bracket.
        cases more with
        | nil => cases rest
        | cons next more => exact absurd (List.cons.inj rest).1 (by decide)
      | cons c ys =>
        obtain ⟨rfl, _⟩ := List.cons.inj rest
        rw [split, Markup.quoteAfter?_bracket closed (Or.inr rfl)] at passed
        cases passed
  | none =>
    right
    -- The first bracket of the line is the first one of the text.
    obtain ⟨front, b, back, rfl, bracket, closed'⟩ := Markup.exists_bracket passed
    rw [List.append_assoc, List.cons_append] at text
    obtain ⟨rfl, rfl, _⟩ := Markup.bracket_unique bracket (Or.inr rfl) closed' closed text
    exact ⟨back, rfl⟩

/-- Line feeds do not matter to quotes. -/
theorem quoteAfter?_feed {quote : Option Char} (marks : IsMarks quote) (xs : List Char) :
    quoteAfter? quote ('\n' :: xs) = quoteAfter? quote xs := by
  have same : quoteAfter? quote ['\n'] = some quote := Markup.quoteAfter?_plain marks (by simp [Markup.isPlain])
  rw [← List.singleton_append, Markup.quoteAfter?_append, same, Option.bind_some]

/-- Before what ends in no slash by itself, no slash counts. -/
theorem getLast?_behind {c : Char} (other : c ≠ '/') (xs ys : List Char) :
    ((xs ++ c :: ys).getLast? == some '/') = (ys.getLast? == some '/') := by
  rw [List.getLast?_append, List.getLast?_cons]
  cases ys.getLast? with
  | none => simpa using other
  | some d => rfl

/-- Whether a slash stands before the bracket that ends a tag. -/
theorem afterSlash_eq {column : Int} (nonneg : 0 ≤ column) (xs : Line) :
    (0 < column + xs.length && lastOf none xs == some '/') = (xs.getLast? == some '/') := by
  cases xs with
  | nil => simp [lastOf]
  | cons c xs =>
    have positive : 0 < column + (c :: xs).length := by
      rw [List.length_cons]
      omega
    rw [decide_eq_true positive, Bool.true_and, lastOf, Option.or_none]

/-- From the beginning of a line on, the walk ends where the text of the tag does. -/
theorem scanLines_covers {quote : Option Char} (marks : IsMarks quote) {before : List Segment} (nonempty : before ≠ [])
    {covered : List Char} (text : ['\n'].intercalate (before.map (·.text lines)) = covered)
    (cut : CutsAt lines number 0 (front ++ (covered ++ ['\n'])) (inside ++ '>' :: tail))
    (closed : quoteAfter? quote inside = some none) :
    ∃ t, scanLines quote before number (lines.drop number) = some t ∧ t.Covers lines front (covered ++ '\n' :: inside) tail := by
  -- The induction is on the lines that are left.
  generalize left : lines.drop number = rest
  induction rest generalizing quote before number covered inside with
  | nil => exact absurd cut.column.line_lt (by simpa using left)
  | cons line rest ih =>
    obtain ⟨line_lt, here, later⟩ := getD_of_drop left
    have back := cut.back
    rw [fromColumn, here, later, Int.toNat_zero, List.drop_zero] at back
    have covers : before.map (·.text lines) ≠ [] := by simpa using nonempty
    rw [scanLines]
    rcases line_cases closed back with ⟨behind, below, passed, rfl, onward⟩ | ⟨ys, rfl⟩
    · have marks' := marks.behind passed
      rw [quoteAfter?_feed marks'] at onward
      -- All of the line belongs to the tag.
      let whole : Segment := ⟨number, 0, line.length⟩
      have stretch : whole.text lines = line := by
        have all := between_natCast line 0 line.length (Nat.zero_le _)
        rw [List.take_length, List.drop_zero] at all
        rw [Segment.text, here]
        exact all
      have next : ['\n'].intercalate ((before ++ [whole]).map (·.text lines)) = covered ++ '\n' :: line := by
        rw [List.map_append, List.map_singleton, Text.intercalate_concat covers, text, stretch]
      rw [List.append_assoc] at cut
      have moved := cut.nextLine here
      have same : front ++ (covered ++ ['\n']) ++ line ++ ['\n'] = front ++ ((covered ++ '\n' :: line) ++ ['\n']) := by simp
      rw [same] at moved
      have nonempty' := List.append_ne_nil_of_right_ne_nil before (List.cons_ne_nil whole [])
      obtain ⟨t, found, covered⟩ := ih marks' nonempty' next moved onward later
      rw [walk_open passed]
      exact ⟨t, found, by simpa using covered⟩
    · -- The tag ends on this line.
      have slash := afterSlash_eq (Int.le_refl 0) inside
      obtain ⟨stretch, body, split, place⟩ := place_of_closed (c := 0) cut here slash
      rw [Nat.cast_zero] at stretch
      rw [walk_closed closed]
      refine ⟨_, rfl, ?_, ?_, covered ++ '\n' :: body, ?_, ?_⟩
      · rw [OpenTag.text, List.map_append, List.map_singleton, Text.intercalate_concat covers, text, stretch]
        simp
      · exact slash.trans (getLast?_behind (by decide) covered inside).symm
      · rw [OpenTag.slash, List.append_assoc, List.cons_append, ← split]
      · have same : front ++ (covered ++ '\n' :: body) = front ++ (covered ++ ['\n']) ++ body := by simp
        rw [same]
        exact place

/-- **A bracket that ends the tag is found**, wherever it stands: from a `<` on, the tag is the text up to there. -/
theorem scan_covers {column : Nat} (cut : CutsAt lines number column front ('<' :: (inside ++ '>' :: tail)))
    (closed : IsInside inside) :
    ∃ t, scan lines number column = some t ∧ t.Covers lines front ('<' :: inside) tail := by
  have split : '<' :: (inside ++ '>' :: tail) = ['<'] ++ (inside ++ '>' :: tail) := rfl
  obtain ⟨ys, line, back⟩ := CutsAt.onLine (split ▸ cut) (by decide)
  obtain ⟨line_lt, _, le_length⟩ := cut.column
  rw [Int.toNat_natCast, List.singleton_append] at line
  have behindIt : (lines.getD number []).drop (column + 1) = ys := by rw [← List.drop_drop, line]; rfl
  have bracket : between (lines.getD number []) column (column + 1) = ['<'] := by
    have stretch := between_natCast (lines.getD number []) column (column + 1) (Int.ofNat_le.mp le_length)
    rwa [List.drop_take, Nat.add_sub_cancel_left, line, List.take_succ_cons, List.take_zero] at stretch
  have onward : walkFrom (lines.getD number []) (column + 1) = ys := by
    rw [walkFrom, if_neg (by omega)]
    exact behindIt
  have left : lines.drop number = lines.getD number [] :: lines.drop (number + 1) := by
    rw [List.drop_eq_getElem_cons line_lt, List.getD_eq_getElem _ _ line_lt]
  rw [scan, left]
  simp only [bracket, onward, bne_self_eq_false, Bool.false_eq_true, if_false]
  -- The first line is walked from behind the bracket on, all further ones from their beginning.
  rcases line_cases closed back.symm with ⟨behind, below, passed, rfl, onward⟩ | ⟨ys, rfl⟩
  · have marks := Markup.isMarks_none.behind passed
    rw [quoteAfter?_feed marks] at onward
    have stretch : (⟨number, column, (lines.getD number []).length⟩ : Segment).text lines = '<' :: ys := by
      have rest := between_natCast (lines.getD number []) column (lines.getD number []).length (Int.ofNat_le.mp le_length)
      rwa [List.take_length, line] at rest
    have split : '<' :: (ys ++ '\n' :: below ++ '>' :: tail) = ('<' :: ys) ++ '\n' :: (below ++ '>' :: tail) := by simp
    rw [split] at cut
    have moved := cut.nextLine line
    rw [List.append_assoc] at moved
    obtain ⟨t, found, covers⟩ := scanLines_covers marks (List.cons_ne_nil _ []) (by simpa using stretch) moved onward
    rw [walk_open passed]
    exact ⟨t, found, by simpa using covers⟩
  · have bare : (('<' :: inside).getLast? == some '/') = (inside.getLast? == some '/') := getLast?_behind (by decide) [] inside
    have nonneg : (0 : Int) ≤ column + 1 := by omega
    have slash := (afterSlash_eq nonneg inside).trans bare.symm
    obtain ⟨stretch, body, split, place⟩ := place_of_closed cut line slash
    have last : (column : Int) + ('<' :: inside).length = column + 1 + inside.length := by
      rw [List.length_cons]
      omega
    rw [last] at stretch place
    rw [walk_closed closed]
    refine ⟨_, rfl, ?_, slash, body, split, place⟩
    rw [OpenTag.text, List.map_singleton, List.intercalate_singleton, stretch]

/-- From the beginning of a line on, a tag ends at the first bracket outside of quotes. -/
theorem inside_of_scanLines {quote : Option Char} (marks : IsMarks quote) {before : List Segment} {rest : List Line}
    {t : OpenTag} (h : scanLines quote before number rest = some t) :
    ∃ inside tail, quoteAfter? quote inside = some none ∧ rest.flatMap ('\n' :: ·) = inside ++ '>' :: tail := by
  -- The induction is on the lines; a line without a bracket hands its quotes on to the next one.
  induction rest generalizing quote before number with
  | nil => cases h
  | cons line rest ih =>
    rw [scanLines] at h
    cases passed : quoteAfter? quote line with
    | some behind =>
      rw [walk_open passed] at h
      obtain ⟨inside, tail, closed, below⟩ := ih (marks.behind passed) h
      refine ⟨'\n' :: (line ++ inside), tail, ?_, by simp [below]⟩
      rw [quoteAfter?_feed marks, Markup.quoteAfter?_append, passed, Option.bind_some, closed]
    | none =>
      obtain ⟨front, b, back, rfl, bracket, closed⟩ := Markup.exists_bracket passed
      rcases bracket with rfl | rfl
      · rw [walk_blocked closed] at h
        cases h
      · refine ⟨'\n' :: front, back ++ rest.flatMap ('\n' :: ·), ?_, by simp⟩
        rw [quoteAfter?_feed marks, closed]

/-- What is read at a column stands there. -/
theorem drop_of_between {line mark : Line} (nonempty : mark ≠ []) {column : Nat}
    (h : between line column (column + mark.length) = mark) : line.drop column = mark ++ line.drop (column + mark.length) := by
  by_cases inside : column ≤ line.length
  · have stretch := between_natCast line column (column + mark.length) inside
    rw [Nat.cast_add, h, List.drop_take, Nat.add_sub_cancel_left] at stretch
    rw [← List.drop_drop]
    nth_rewrite 1 [stretch]
    rw [List.take_append_drop]
  · -- Beyond the end of a line nothing is read.
    rw [between, columnIn_natCast, Nat.min_eq_right (by omega), List.drop_of_length_le (List.length_take_le' _ _)] at h
    exact absurd h.symm nonempty

/-- **A tag that is found ends at the first bracket outside of quotes**, and that is a `>`. -/
theorem inside_of_scan {column : Nat} {t : OpenTag} (h : scan lines number column = some t) :
    ∃ inside tail, IsInside inside ∧
      CutsAt lines number column (beforeColumn lines number column) ('<' :: (inside ++ '>' :: tail)) := by
  rw [scan] at h
  split at h
  · cases h
  next line rest left =>
    obtain ⟨line_lt, here, later⟩ := getD_of_drop left
    split at h
    · cases h
    next bracket =>
      have angle : line.drop column = '<' :: line.drop (column + 1) :=
        drop_of_between (List.cons_ne_nil '<' []) (by simpa using bracket)
      have inside : column < line.length := by
        have width := congrArg List.length angle
        rw [List.length_drop, List.length_cons] at width
        omega
      have place : IsColumn lines number column := ⟨line_lt, by omega, by rw [here]; omega⟩
      have text : fromColumn lines number column = '<' :: (line.drop (column + 1) ++ rest.flatMap ('\n' :: ·)) := by
        rw [fromColumn, here, later, Int.toNat_natCast, angle, List.cons_append]
      have onward : walkFrom line (column + 1) = line.drop (column + 1) := if_neg (by omega)
      rw [onward] at h
      cases passed : quoteAfter? none (line.drop (column + 1)) with
      | some behind =>
        rw [walk_open passed] at h
        obtain ⟨inside, tail, closed, below⟩ := inside_of_scanLines (Markup.isMarks_none.behind passed) h
        refine ⟨line.drop (column + 1) ++ inside, tail, ?_, place, rfl, by rw [text, below, List.append_assoc]⟩
        rw [IsInside, Markup.quoteAfter?_append, passed, Option.bind_some, closed]
      | none =>
        obtain ⟨front, b, back, split, bracket, closed⟩ := Markup.exists_bracket passed
        rw [split] at h
        rcases bracket with rfl | rfl
        · rw [walk_blocked closed] at h
          cases h
        · refine ⟨front, back ++ rest.flatMap ('\n' :: ·), closed, place, rfl, ?_⟩
          rw [text, split, List.append_assoc, List.cons_append]

/-! ### The search and the text -/

/-- Where a character stands on a line, the text goes on with it. -/
theorem exists_cutsAt {b : Char} {column : Nat} (here : (lines.getD number [])[column]? = some b) :
    ∃ rest, CutsAt lines number column (beforeColumn lines number column) (b :: rest) := by
  obtain ⟨inside, same⟩ := List.getElem?_eq_some_iff.mp here
  have line_lt : number < lines.length := by
    by_contra outside
    rw [List.getD_eq_default _ _ (Nat.le_of_not_lt outside)] at inside
    cases inside
  refine ⟨(lines.getD number []).drop (column + 1) ++ (lines.drop (number + 1)).flatMap ('\n' :: ·),
    ⟨line_lt, by omega, by omega⟩, rfl, ?_⟩
  rw [fromColumn, Int.toNat_natCast, List.drop_eq_getElem_cons inside, same, List.cons_append]

/-- **The search over the lines is a search of the text they make.** From a `<` on, a tag is found exactly if the first angle
bracket outside of quotes is a `>`, line feeds or not. Its stretches are then the text from the one bracket to the other, and new
attributes go before that `>`, or before a slash right in front of it on its line, which is there exactly if the tag closes
itself. -/
theorem scan_reads_text {column : Nat} (here : (lines.getD number [])[column]? = some '<') :
    ((scan lines number column).isSome ↔ ∃ inside tail, IsInside inside ∧
      textOfLines lines = beforeColumn lines number column ++ '<' :: (inside ++ '>' :: tail)) ∧
    ∀ t, scan lines number column = some t → ∀ inside tail, IsInside inside →
      textOfLines lines = beforeColumn lines number column ++ '<' :: (inside ++ '>' :: tail) →
        Stretches lines number column t.segments ∧
          t.Covers lines (beforeColumn lines number column) ('<' :: inside) tail ∧
          ∃ ys, (lines.getD t.line []).drop t.column.toNat = t.slash ++ '>' :: ys := by
  obtain ⟨_, start⟩ := exists_cutsAt here
  have cut {back : List Char} (text : textOfLines lines = beforeColumn lines number column ++ back) :
      CutsAt lines number column (beforeColumn lines number column) back := start.column.cutsAt_of_front rfl text
  constructor
  · constructor
    · intro found
      obtain ⟨t, found⟩ := Option.isSome_iff_exists.mp found
      obtain ⟨inside, tail, closed, cut⟩ := inside_of_scan found
      exact ⟨inside, tail, closed, cut.text⟩
    · rintro ⟨inside, tail, closed, text⟩
      obtain ⟨t, found, _⟩ := scan_covers (cut text) closed
      rw [found]
      rfl
  · intro t found inside tail closed text
    obtain ⟨t', again, covers⟩ := scan_covers (cut text) closed
    obtain rfl := Option.some.inj (found.symm.trans again)
    refine ⟨scan_stretches found, covers, ?_⟩
    obtain ⟨body, _, place⟩ := covers.place
    have split : t.slash ++ '>' :: tail = (t.slash ++ ['>']) ++ tail := by simp
    rw [split] at place
    have feedless : '\n' ∉ t.slash ++ ['>'] := by
      rw [OpenTag.slash]
      split <;> decide
    obtain ⟨ys, line, _⟩ := place.onLine feedless
    exact ⟨ys, by simpa using line⟩

end

namespace Framed

/-- A picture whose tag takes three lines, with a bracket and a line feed in quotes, and closes itself. -/
def lines : List Line := ["<p><img".toList, "  alt='a > b".toList, "c'/>".toList, "</p>".toList]

def tag : OpenTag := ⟨[⟨0, 3, 7⟩, ⟨1, 0, 12⟩, ⟨2, 0, 4⟩], 2, 2, true⟩

def inside : List Char := "img\n  alt='a > b\nc'/".toList

end Framed

/-- The quoted bracket does not end the tag. -/
theorem framed_tag_read :
    (Framed.lines.getD 0 [])[3]? = some '<' ∧ scan Framed.lines 0 3 = some Framed.tag ∧ IsInside Framed.inside ∧
      textOfLines Framed.lines = "<p>".toList ++ '<' :: (Framed.inside ++ '>' :: "\n</p>".toList) ∧
      Framed.tag.text Framed.lines = "<img\n  alt='a > b\nc'/>".toList ∧
      CutsAt Framed.lines 2 2 "<p><img\n  alt='a > b\nc'".toList "/>\n</p>".toList := by
  have here : (Framed.lines.getD 0 [])[3]? = some '<' := by decide
  have found : scan Framed.lines 0 3 = some Framed.tag := by decide
  have closed : IsInside Framed.inside := by decide
  have text : textOfLines Framed.lines = "<p>".toList ++ '<' :: (Framed.inside ++ '>' :: "\n</p>".toList) := by decide
  obtain ⟨_, read⟩ := scan_reads_text here
  obtain ⟨_, covers, _⟩ := read Framed.tag found Framed.inside "\n</p>".toList closed text
  obtain ⟨body, split, place⟩ := covers.place
  have slashed : body ++ ['/'] = "<img\n  alt='a > b\nc'".toList ++ ['/'] := split.symm.trans (by decide)
  have known : body = "<img\n  alt='a > b\nc'".toList := List.append_cancel_right slashed
  subst known
  exact ⟨here, found, closed, text, covers.text, place⟩

end Component

end Remedy
