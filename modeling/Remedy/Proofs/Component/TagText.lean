import Remedy.Proofs.Component.Reading

/-!
The text of an open tag, and the places in it at which names may begin.

The stretches of a tag are parts of consecutive lines. What is looked for in one stretch after another is looked for in
their text, from left to right: at every place, the rest of its line counts.
-/

namespace Remedy.Component

open Text (isBlank)

/-! ### Stretches of consecutive lines -/

theorem columnIn_natCast (length n : Nat) : columnIn length n = min n length := by
  rw [columnIn, if_neg (by omega), Int.toNat_natCast]

theorem between_natCast (line : Line) (start stop : Nat) (inside : start ≤ line.length) :
    between line start stop = (line.take stop).drop start := by
  rw [between, columnIn_natCast, columnIn_natCast, Nat.min_eq_left inside, ← List.take_eq_take_min]

/-- The text of a stretch. -/
def Segment.text (lines : List Line) (s : Segment) : Line := between (lines.getD s.line []) s.start s.stop

/-- The text of a tag: that of its stretches, with line feeds between them. -/
def OpenTag.text (lines : List Line) (t : OpenTag) : List Char := ['\n'].intercalate (t.segments.map (·.text lines))

/-- Stretches of one line after another, from a column of the first one; all but the last go on to the end of their lines. -/
inductive Stretches (lines : List Line) : Nat → Nat → List Segment → Prop
  | last {number start stop : Nat} (forward : start ≤ stop) (inside : stop ≤ (lines.getD number []).length) :
    Stretches lines number start [⟨number, start, stop⟩]
  | more {number start : Nat} {segments : List Segment} (inside : start ≤ (lines.getD number []).length)
    (rest : Stretches lines (number + 1) 0 segments) :
    Stretches lines number start (⟨number, start, (lines.getD number []).length⟩ :: segments)

theorem Stretches.ne_nil {lines : List Line} {number start : Nat} {segments : List Segment}
    (h : Stretches lines number start segments) : segments ≠ [] := by
  cases h <;> simp

theorem scanLines_stretches {lines : List Line} {quote : Option Char} {before : List Segment} {number : Nat} {t : OpenTag}
    (h : scanLines quote before number (lines.drop number) = some t) :
    ∃ segments, t.segments = before ++ segments ∧ Stretches lines number 0 segments := by
  -- The induction is on the lines that are left.
  generalize left : lines.drop number = rest at h
  induction rest generalizing quote before number with
  | nil => rw [scanLines] at h; contradiction
  | cons line rest ih =>
    obtain ⟨_, here, later⟩ := getD_of_drop left
    rw [scanLines] at h
    split at h
    · contradiction
    next last afterSlash ended =>
      obtain rfl := Option.some.inj h
      obtain ⟨nonneg, before_end, _⟩ := walk_ended ended
      obtain ⟨stop, rfl⟩ := Int.eq_ofNat_of_zero_le nonneg
      have inside : stop + 1 ≤ (lines.getD number []).length := by
        rw [here]
        omega
      exact ⟨_, rfl, .last (Nat.zero_le (stop + 1)) inside⟩
    next quote' _ =>
      obtain ⟨segments, split, stretches⟩ := ih later h
      refine ⟨⟨number, 0, line.length⟩ :: segments, by rw [split, List.append_assoc]; rfl, ?_⟩
      rw [← here]
      exact .more (Nat.zero_le _) stretches

/-- The tag that is found from a column is made of stretches from there on. -/
theorem scan_stretches {lines : List Line} {number column : Nat} {t : OpenTag} (h : scan lines number column = some t) :
    Stretches lines number column t.segments := by
  rw [scan] at h
  split at h
  · contradiction
  next line rest left =>
    obtain ⟨_, here, later⟩ := getD_of_drop left
    split at h
    · contradiction
    next angle =>
      -- The angle bracket stands there, so the column is one of the line.
      have inside : column < line.length := by
        by_contra outside
        have nothing : between line column (column + 1) = [] := by
          rw [between, columnIn_natCast, Nat.min_eq_right (Nat.le_of_not_lt outside)]
          exact List.drop_eq_nil_of_le (List.length_take_le' _ _)
        exact angle (bne_iff_ne.mpr (by rw [nothing]; simp))
      split at h
      · contradiction
      next last afterSlash ended =>
        obtain rfl := Option.some.inj h
        obtain ⟨from_, before_end, _⟩ := walk_ended ended
        rw [walkFrom, if_neg (by omega), List.length_drop] at before_end
        obtain ⟨stop, rfl⟩ := Int.eq_ofNat_of_zero_le (show 0 ≤ last by omega)
        have reach : stop + 1 ≤ (lines.getD number []).length := by
          rw [here]
          omega
        exact .last (by omega) reach
      next quote _ =>
        rw [← later] at h
        obtain ⟨segments, split, stretches⟩ := scanLines_stretches h
        rw [split, ← here]
        exact .more (by rw [here]; omega) stretches

/-! ### Where names may begin -/

/-- A line and a column. -/
abbrev Spot := Nat × Nat

/-- The spot behind a character. -/
def stepSpot (p : Spot) (c : Char) : Spot := if c = '\n' then (p.1 + 1, 0) else (p.1, p.2 + 1)

/-- The spot behind a text. -/
def spotAfter (p : Spot) (cs : List Char) : Spot := cs.foldl stepSpot p

/-- What stands right before what follows a character: line feeds are no part of lines. -/
def behind (c : Char) : Option Char := if c = '\n' then none else some c

/-- What stands right before what follows a text. -/
def behindAll (previous : Option Char) (cs : List Char) : Option Char := cs.foldl (fun _ c => behind c) previous

def lineRest (cs : List Char) : List Char := cs.takeWhile (· != '\n')

/-- The spots of a text at which names may begin, with the rests of their lines. -/
def namesFrom (previous : Option Char) (p : Spot) : List Char → List (Spot × List Char)
  | [] => if previous.any joinsName then [] else [(p, [])]
  | c :: cs =>
    (if previous.any joinsName then [] else [(p, lineRest (c :: cs))]) ++ namesFrom (behind c) (stepSpot p c) cs

theorem lineRest_cons (c : Char) (cs : List Char) : lineRest (c :: cs) = if c = '\n' then [] else c :: lineRest cs := by
  rw [lineRest, List.takeWhile_cons, lineRest]
  by_cases feed : c = '\n' <;> simp [feed]

/-- The rest of a line goes on behind a text on it. -/
theorem lineRest_append {cs : List Char} (plain : '\n' ∉ cs) (rest : List Char) :
    lineRest (cs ++ rest) = cs ++ lineRest rest := by
  have all : ∀ c ∈ cs, (c != '\n') = true := fun c member => bne_iff_ne.mpr fun same => plain (same ▸ member)
  rw [lineRest, List.takeWhile_append_of_pos all, lineRest]

theorem lineRest_eq_self {cs : List Char} (plain : '\n' ∉ cs) : lineRest cs = cs := by
  have whole := lineRest_append plain []
  rwa [List.append_nil, show lineRest [] = [] from rfl, List.append_nil] at whole

/-- The rest of a line ends where a text goes on to the next one. -/
theorem lineRest_append_of_mem {cs : List Char} (feed : '\n' ∈ cs) (rest : List Char) :
    lineRest (cs ++ rest) = lineRest cs := by
  induction cs with
  | nil => cases feed
  | cons c cs ih =>
    rw [List.cons_append, lineRest_cons, lineRest_cons]
    split
    · rfl
    next here => rw [ih ((List.mem_cons.mp feed).resolve_left fun same => here same.symm)]

/-- The columns of a stretch, from where it begins to where it ends, and its characters one after another. -/
theorem columns_eq (number : Nat) (front stretch back : Line) (plain : '\n' ∉ stretch) :
    ((List.range' front.length (stretch.length + 1)).filterMap fun i =>
        if ((front ++ (stretch ++ back)).take i).getLast?.any joinsName then none
        else some (((number, i) : Spot), (front ++ stretch).drop i)) =
      namesFrom front.getLast? (number, front.length) stretch := by
  induction stretch generalizing front with
  | nil =>
    rw [List.length_nil, Nat.zero_add, List.range'_one, List.filterMap_cons, List.filterMap_nil, List.take_left,
      List.append_nil, List.drop_length, namesFrom]
    split <;> split <;> simp_all
  | cons c rest ih =>
    have other : c ≠ '\n' := fun feed => plain (feed ▸ List.mem_cons_self)
    -- Behind the first character, the stretch begins one column further on.
    have next := ih (front ++ [c]) fun member => plain (List.mem_cons_of_mem c member)
    simp only [List.append_assoc, List.singleton_append, List.length_append, List.length_singleton, List.getLast?_concat]
      at next
    rw [List.length_cons, List.range'_succ, List.filterMap_cons, List.take_left, List.drop_left, List.cons_append, next,
      namesFrom, lineRest_eq_self plain, behind, if_neg other, stepSpot, if_neg other]
    split <;> split <;> simp_all

/-- Places at which names may begin, found by their columns or one character after another. -/
theorem nameStarts_eq {line : Line} (number : Nat) {start stop : Nat} (plain : '\n' ∉ line) (forward : start ≤ stop)
    (inside : stop ≤ line.length) :
    (nameStarts line ⟨number, start, stop⟩).map (fun e => ((number, e.1), e.2)) =
      namesFrom (line.take start).getLast? (number, start) ((line.take stop).drop start) := by
  have upTo : line.take start ++ (line.take stop).drop start = line.take stop := by
    rw [← Nat.min_eq_left forward, ← List.take_take, Nat.min_eq_left forward, List.take_append_drop]
  have whole : line.take start ++ ((line.take stop).drop start ++ line.drop stop) = line := by
    rw [← List.append_assoc, upTo, List.take_append_drop]
  have columns := columns_eq number (line.take start) ((line.take stop).drop start) (line.drop stop)
    fun member => plain (List.mem_of_mem_take (List.mem_of_mem_drop member))
  have reach : min start line.length = start := Nat.min_eq_left (Nat.le_trans forward inside)
  have width : stop - start + 1 = stop + 1 - start := by omega
  rw [whole, upTo, List.length_drop, List.length_take, List.length_take, reach, Nat.min_eq_left inside, width] at columns
  -- At the beginning of a line nothing stands before, so the search need not ask for it.
  have free (i : Nat) : (i == 0 || !(line.take i).getLast?.any joinsName) = !(line.take i).getLast?.any joinsName := by
    cases i <;> simp
  rw [← columns]
  simp only [nameStarts, Int.toNat_natCast, Nat.min_eq_left inside, reach, show ¬ ((stop : Int) < 0) by omega, if_false,
    List.range'_eq_map_range, free, List.map_filterMap]
  congr 1
  funext i
  cases (line.take i).getLast?.any joinsName <;> rfl

theorem namesFrom_append_feed (previous : Option Char) (p : Spot) {cs : List Char} (plain : '\n' ∉ cs)
    (rest : List Char) :
    namesFrom previous p (cs ++ '\n' :: rest) = namesFrom previous p cs ++ namesFrom none (p.1 + 1, 0) rest := by
  induction cs generalizing previous p with
  | nil =>
    rw [List.nil_append, namesFrom, namesFrom, behind, if_pos rfl, stepSpot, if_pos rfl]
    rfl
  | cons c cs ih =>
    have other : c ≠ '\n' := fun feed => plain (feed ▸ List.mem_cons_self)
    have same : lineRest (c :: cs ++ '\n' :: rest) = lineRest (c :: cs) := by
      rw [lineRest_append plain, lineRest_eq_self plain]
      exact List.append_nil _
    have line : (stepSpot p c).1 = p.1 := by rw [stepSpot, if_neg other]
    rw [List.cons_append, namesFrom, namesFrom, ih _ _ fun member => plain (List.mem_cons_of_mem c member),
      ← List.cons_append, same, line, List.append_assoc]

/-- **What is looked for in the stretches is looked for in their text.** -/
theorem Stretches.names_eq {lines : List Line} (plain : ∀ n, '\n' ∉ lines.getD n []) {number start : Nat}
    {segments : List Segment} (h : Stretches lines number start segments) :
    (segments.flatMap fun s => (nameStarts (lines.getD s.line []) s).map fun e => ((s.line, e.1), e.2)) =
      namesFrom ((lines.getD number []).take start).getLast? (number, start)
        (['\n'].intercalate (segments.map (·.text lines))) := by
  induction h with
  | @last number start stop forward inside =>
    rw [List.flatMap_singleton, List.map_singleton, List.intercalate_singleton, nameStarts_eq number (plain number)
      forward inside, Segment.text, between_natCast _ _ _ (Nat.le_trans forward inside)]
  | @more number start segments inside rest ih =>
    have later : segments.map (·.text lines) ≠ [] := by simpa using rest.ne_nil
    have head := nameStarts_eq number (plain number) inside (Nat.le_refl _)
    rw [List.flatMap_cons, ih, head, List.map_cons, List.intercalate_cons_of_ne_nil later, Segment.text,
      between_natCast _ _ _ inside, List.append_assoc, List.singleton_append, namesFrom_append_feed]
    · rfl
    · exact fun member => plain number (List.mem_of_mem_take (List.mem_of_mem_drop member))

/-! ### Where a text stands -/

theorem spotAfter_append (p : Spot) (xs ys : List Char) : spotAfter p (xs ++ ys) = spotAfter (spotAfter p xs) ys :=
  List.foldl_append

theorem spotAfter_of_not_mem {cs : List Char} (plain : '\n' ∉ cs) (p : Spot) : spotAfter p cs = (p.1, p.2 + cs.length) := by
  induction cs generalizing p with
  | nil => rfl
  | cons c cs ih =>
    have other : c ≠ '\n' := fun feed => plain (feed ▸ List.mem_cons_self)
    rw [spotAfter, List.foldl_cons, ← spotAfter, ih (fun member => plain (List.mem_cons_of_mem c member)), stepSpot,
      if_neg other, List.length_cons, Nat.add_right_comm, Nat.add_assoc]

/-- A text stands at a spot of the lines, over as many of them as it takes. -/
def Laid (lines : List Line) (p : Spot) (cs : List Char) : Prop :=
  ∀ xs ys, cs = xs ++ ys → lineRest ys <+: (lines.getD (spotAfter p xs).1 []).drop (spotAfter p xs).2

theorem Laid.append {lines : List Line} {p : Spot} {xs ys : List Char} (h : Laid lines p (xs ++ ys)) :
    Laid lines (spotAfter p xs) ys := by
  intro front back split
  rw [← spotAfter_append]
  exact h (xs ++ front) back (by rw [split, List.append_assoc])

/-- A stretch of a text that stands somewhere, with something behind it on its line, is read where it begins. -/
theorem Laid.between_eq {lines : List Line} {p : Spot} {front inner rest : List Char} {c : Char}
    (h : Laid lines p (front ++ (inner ++ c :: rest))) (plain : '\n' ∉ front ++ inner) (other : c ≠ '\n') :
    between (lines.getD p.1 []) ↑(p.2 + front.length) ↑(p.2 + front.length + inner.length) = inner := by
  rw [List.mem_append, not_or] at plain
  have stands := h front (inner ++ c :: rest) rfl
  rw [spotAfter_of_not_mem plain.1, lineRest_append plain.2, lineRest_cons, if_neg other] at stands
  obtain ⟨back, line⟩ := stands
  have inside : p.2 + front.length ≤ (lines.getD p.1 []).length := by
    by_contra outside
    rw [List.drop_eq_nil_of_le (Nat.le_of_not_le outside)] at line
    simp at line
  rw [between_natCast _ _ _ inside, List.drop_take, Nat.add_sub_cancel_left, ← line, List.append_assoc, List.take_left]

/-- **The text of stretches stands where the first of them begins.** -/
theorem Stretches.laid {lines : List Line} (plain : ∀ n, '\n' ∉ lines.getD n []) {number start : Nat}
    {segments : List Segment} (h : Stretches lines number start segments) :
    Laid lines (number, start) (['\n'].intercalate (segments.map (·.text lines))) := by
  -- What is left of a stretch stands on its line.
  have onLine {number start stop : Nat} {xs ys : List Char}
      (split : ((lines.getD number []).take stop).drop start = xs ++ ys) :
      lineRest ys <+: (lines.getD (spotAfter (number, start) xs).1 []).drop (spotAfter (number, start) xs).2 := by
    have feedless : '\n' ∉ xs ++ ys := by
      rw [← split]
      exact fun member => plain number (List.mem_of_mem_take (List.mem_of_mem_drop member))
    rw [List.mem_append, not_or] at feedless
    rw [spotAfter_of_not_mem feedless.1, lineRest_eq_self feedless.2, ← List.drop_drop]
    have rest : ys = (((lines.getD number []).drop start).drop xs.length).take (stop - start - xs.length) := by
      rw [← List.drop_take, ← List.drop_take, split, List.drop_left]
    rw [rest]
    exact List.take_prefix _ _
  induction h with
  | last forward inside =>
    intro xs ys split
    rw [List.map_singleton, List.intercalate_singleton, Segment.text, between_natCast _ _ _ (Nat.le_trans forward inside)]
      at split
    exact onLine split
  | @more number start segments inside rest ih =>
    intro xs ys split
    have later : segments.map (·.text lines) ≠ [] := by simpa using rest.ne_nil
    rw [List.map_cons, List.intercalate_cons_of_ne_nil later, Segment.text, between_natCast _ _ _ inside, List.append_assoc,
      List.singleton_append, List.append_eq_append_iff] at split
    -- What is left begins behind the line feed, with it, or on the first line.
    rcases split with ⟨front, rfl, feed⟩ | ⟨back, stretch, rfl⟩
    · cases front with
      | nil =>
        rw [List.nil_append] at feed
        rw [← feed, lineRest_cons, if_pos rfl]
        exact List.nil_prefix
      | cons c front =>
        obtain ⟨rfl, split⟩ := List.cons.inj feed
        have below := ih front ys split
        have feedless : '\n' ∉ ((lines.getD number []).take (lines.getD number []).length).drop start := fun member =>
          plain number (List.mem_of_mem_take (List.mem_of_mem_drop member))
        rw [spotAfter_append, spotAfter_of_not_mem feedless]
        exact below
    · have feedless : '\n' ∉ back := fun member =>
        plain number (List.mem_of_mem_take (List.mem_of_mem_drop (stretch ▸ List.mem_append_right xs member)))
      rw [lineRest_append feedless, lineRest_cons, if_pos rfl, List.append_nil]
      have here := onLine stretch
      rwa [lineRest_eq_self feedless] at here

end Remedy.Component
