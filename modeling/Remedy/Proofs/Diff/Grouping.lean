import Remedy.Diff.Unified
import Remedy.Proofs.Diff.Matching

/-!
The stretches of a difference cover both sequences from the first line to the last, and what is left out of its groups is
the same in both.

Unchanged lines are cut off at three places: before the first change, after the last, and between two changes that are far
apart. Each time what is cut off is unchanged, so the groups still lead from one sequence to the other (`Grouped`).
-/

namespace Remedy.Diff

/-! ### Parts of sequences -/

theorem take_slice (lines : Array Line) {low high d : Nat} (h : low + d ≤ high) :
    (slice lines low high).take d = slice lines low (low + d) := by
  rw [slice, slice, List.take_drop, List.take_take, Nat.min_eq_left (Nat.add_comm low d ▸ h), Nat.add_comm]

theorem drop_slice (lines : Array Line) (low high d : Nat) :
    (slice lines low high).drop d = slice lines (low + d) high := by
  rw [slice, slice, List.drop_drop]

theorem length_slice (lines : Array Line) (low : Nat) {high : Nat} (h : high ≤ lines.size) :
    (slice lines low high).length = high - low := by
  rw [slice, List.length_drop, List.length_take, Array.length_toList, Nat.min_eq_left h]

theorem slice_append (lines : Array Line) {low middle high : Nat} (below : low ≤ middle) (above : middle ≤ high) :
    slice lines low middle ++ slice lines middle high = slice lines low high := by
  obtain ⟨d, rfl⟩ := Nat.exists_eq_add_of_le below
  rw [← take_slice lines above, ← drop_slice, List.take_append_drop]

theorem slice_all (lines : Array Line) : slice lines 0 lines.size = lines.toList := by
  rw [slice, List.drop_zero, ← Array.length_toList, List.take_length]

/-- Lines that stand in both sequences. -/
structure Unchanged (p : Pair) (w : Window) : Prop where
  low : w.low ≤ w.high
  high : w.high ≤ p.first.size
  otherLow : w.otherLow ≤ w.otherHigh
  otherHigh : w.otherHigh ≤ p.second.size
  equal : slice p.first w.low w.high = slice p.second w.otherLow w.otherHigh

namespace Unchanged

variable {p : Pair}

theorem empty {i j : Nat} (first : i ≤ p.first.size) (second : j ≤ p.second.size) : Unchanged p ⟨i, i, j, j⟩ :=
  ⟨Nat.le_refl i, first, Nat.le_refl j, second, by simp [slice]⟩

theorem append {i a c j b d : Nat} (front : Unchanged p ⟨i, a, j, b⟩) (back : Unchanged p ⟨a, c, b, d⟩) :
    Unchanged p ⟨i, c, j, d⟩ where
  low := Nat.le_trans front.low back.low
  high := back.high
  otherLow := Nat.le_trans front.otherLow back.otherLow
  otherHigh := back.otherHigh
  equal := by
    rw [← slice_append _ front.low back.low, ← slice_append _ front.otherLow back.otherLow, front.equal, back.equal]

theorem size_eq {w : Window} (h : Unchanged p w) : w.high - w.low = w.otherHigh - w.otherLow := by
  rw [← length_slice _ _ h.high, h.equal, length_slice _ _ h.otherHigh]

/-- Unchanged lines can be cut anywhere. -/
theorem cut {w : Window} (h : Unchanged p w) {d : Nat} (inside : d ≤ w.high - w.low) :
    Unchanged p ⟨w.low, w.low + d, w.otherLow, w.otherLow + d⟩ ∧
      Unchanged p ⟨w.low + d, w.high, w.otherLow + d, w.otherHigh⟩ := by
  have size := h.size_eq
  have low := h.low
  have high := h.high
  have otherLow := h.otherLow
  have otherHigh := h.otherHigh
  refine ⟨⟨Nat.le_add_right _ _, by simp only; omega, Nat.le_add_right _ _, by simp only; omega, ?_⟩,
    ⟨by simp only; omega, high, by simp only; omega, otherHigh, ?_⟩⟩
  · have first : w.low + d ≤ w.high := by omega
    have second : w.otherLow + d ≤ w.otherHigh := by omega
    simp only
    rw [← take_slice p.first first, ← take_slice p.second second, h.equal]
  · simp only
    rw [← drop_slice, ← drop_slice, h.equal]

theorem firstLines_eq {w : Window} (h : Unchanged p w) (n : Nat) :
    w.firstLines n = ⟨w.low, w.low + min n (w.high - w.low), w.otherLow, w.otherLow + min n (w.high - w.low)⟩ := by
  have size := h.size_eq
  have low := h.low
  have otherLow := h.otherLow
  rw [Window.firstLines, Window.mk.injEq]
  omega

theorem lastLines_eq {w : Window} (h : Unchanged p w) (n : Nat) :
    w.lastLines n = ⟨w.low + (w.high - w.low - n), w.high, w.otherLow + (w.high - w.low - n), w.otherHigh⟩ := by
  have size := h.size_eq
  have low := h.low
  have otherLow := h.otherLow
  rw [Window.lastLines, Window.mk.injEq]
  omega

end Unchanged

theorem slice_eq_of_lines {p : Pair} {i a j b n : Nat} (first : a = i + n) (second : b = j + n) (inside : a ≤ p.first.size)
    (otherInside : b ≤ p.second.size) (equal : ∀ d < n, p.line (i + d) = p.other (j + d)) :
    slice p.first i a = slice p.second j b := by
  apply List.ext_getElem
  · rw [length_slice _ _ inside, length_slice _ _ otherInside]
    omega
  · intro d here there
    rw [length_slice _ _ inside] at here
    have same := equal d (by omega)
    rw [Pair.line, Pair.other, Array.getD_eq_getD_getElem?, Array.getD_eq_getD_getElem?,
      Array.getElem?_eq_getElem (by omega), Array.getElem?_eq_getElem (by omega)] at same
    simpa [slice] using same

/-- A run is unchanged. -/
theorem Run.Fits.unchanged {p : Pair} {w : Window} {r : Run} (h : r.Fits p w) (high : w.high ≤ p.first.size)
    (otherHigh : w.otherHigh ≤ p.second.size) :
    Unchanged p ⟨r.start, r.start + r.size, r.other, r.other + r.size⟩ where
  low := Nat.le_add_right _ _
  high := Nat.le_trans h.high high
  otherLow := Nat.le_add_right _ _
  otherHigh := Nat.le_trans h.otherHigh otherHigh
  equal := slice_eq_of_lines rfl rfl (Nat.le_trans h.high high) (Nat.le_trans h.otherHigh otherHigh) h.equal

/-! ### Stretches -/

/-- A stretch that lies in both sequences and is the same in both if it says so. -/
structure Stretch.Fits (p : Pair) (s : Stretch) : Prop where
  low : s.window.low ≤ s.window.high
  high : s.window.high ≤ p.first.size
  otherLow : s.window.otherLow ≤ s.window.otherHigh
  otherHigh : s.window.otherHigh ≤ p.second.size
  same : s.same = true → Unchanged p s.window

/-- Stretches that follow each other without a gap, from one place in both sequences to another. -/
def Tiles (p : Pair) (k l : Nat) (i j : Nat) : List Stretch → Prop
  | [] => i = k ∧ j = l
  | s :: rest =>
    s.Fits p ∧ s.window.low = i ∧ s.window.otherLow = j ∧ Tiles p k l s.window.high s.window.otherHigh rest

variable {p : Pair}

theorem Unchanged.fits {w : Window} (h : Unchanged p w) : Stretch.Fits p ⟨true, w⟩ :=
  ⟨h.low, h.high, h.otherLow, h.otherHigh, fun _ => h⟩

theorem Tiles.append {i j k l m n : Nat} {ss ts : List Stretch} (front : Tiles p k l i j ss) (back : Tiles p m n k l ts) :
    Tiles p m n i j (ss ++ ts) := by
  induction ss generalizing i j with
  | nil =>
    obtain ⟨rfl, rfl⟩ := front
    exact back
  | cons s rest ih =>
    obtain ⟨fits, low, otherLow, tiles⟩ := front
    exact ⟨fits, low, otherLow, ih tiles⟩

theorem Tiles.split {i j m n : Nat} {ss ts : List Stretch} (h : Tiles p m n i j (ss ++ ts)) :
    ∃ k l, Tiles p k l i j ss ∧ Tiles p m n k l ts := by
  induction ss generalizing i j with
  | nil => exact ⟨i, j, ⟨rfl, rfl⟩, h⟩
  | cons s rest ih =>
    obtain ⟨fits, low, otherLow, tiles⟩ := h
    obtain ⟨k, l, front, back⟩ := ih tiles
    exact ⟨k, l, ⟨fits, low, otherLow, front⟩, back⟩

/-- Stretches without a change are unchanged lines. -/
theorem Tiles.unchanged {i j k l : Nat} {ss : List Stretch} (h : Tiles p k l i j ss) (first : i ≤ p.first.size)
    (second : j ≤ p.second.size) (same : ∀ s ∈ ss, s.same = true) : Unchanged p ⟨i, k, j, l⟩ := by
  induction ss generalizing i j with
  | nil =>
    obtain ⟨rfl, rfl⟩ := h
    exact Unchanged.empty first second
  | cons s rest ih =>
    obtain ⟨fits, rfl, rfl, tiles⟩ := h
    have here := fits.same (same s List.mem_cons_self)
    exact here.append (ih tiles fits.high fits.otherHigh fun t later => same t (List.mem_cons_of_mem s later))

theorem Tiles.bounds {i j k l : Nat} {ss : List Stretch} (h : Tiles p k l i j ss) (first : i ≤ p.first.size)
    (second : j ≤ p.second.size) : i ≤ k ∧ k ≤ p.first.size ∧ j ≤ l ∧ l ≤ p.second.size := by
  induction ss generalizing i j with
  | nil =>
    obtain ⟨rfl, rfl⟩ := h
    exact ⟨Nat.le_refl i, first, Nat.le_refl j, second⟩
  | cons s rest ih =>
    obtain ⟨fits, rfl, rfl, tiles⟩ := h
    obtain ⟨low, high, otherLow, otherHigh⟩ := ih tiles fits.high fits.otherHigh
    exact ⟨Nat.le_trans fits.low low, high, Nat.le_trans fits.otherLow otherLow, otherHigh⟩

theorem Tiles.last {i j k l : Nat} {ss : List Stretch} (h : Tiles p k l i j ss) {s : Stretch} (last : ss.getLast? = some s) :
    s.window.high = k ∧ s.window.otherHigh = l := by
  obtain ⟨front, rfl⟩ := List.getLast?_eq_some_iff.mp last
  obtain ⟨a, b, -, -, -, -, high, otherHigh⟩ := h.split
  exact ⟨high, otherHigh⟩

theorem tiles_stretchesFrom {high otherHigh i j : Nat} {rs : List Run} (h : Chained p high otherHigh i j rs)
    (inside : high ≤ p.first.size) (otherInside : otherHigh ≤ p.second.size) :
    Tiles p high otherHigh i j (stretchesFrom i j high otherHigh rs) := by
  induction rs generalizing i j with
  | nil =>
    obtain ⟨low, otherLow⟩ := h
    rw [stretchesFrom]
    split
    next => exact ⟨⟨low, inside, otherLow, otherInside, fun same => nomatch same⟩, rfl, rfl, rfl, rfl⟩
    next full =>
      simp only [Bool.or_eq_true, decide_eq_true_eq, not_or, Nat.not_lt] at full
      exact ⟨Nat.le_antisymm low full.1, Nat.le_antisymm otherLow full.2⟩
  | cons r rest ih =>
    obtain ⟨fits, chained⟩ := h
    have unchanged := fits.unchanged inside otherInside
    have here : Tiles p high otherHigh r.start r.other
        (⟨true, ⟨r.start, r.start + r.size, r.other, r.other + r.size⟩⟩ ::
          stretchesFrom (r.start + r.size) (r.other + r.size) high otherHigh rest) :=
      ⟨unchanged.fits, rfl, rfl, ih chained⟩
    rw [stretchesFrom]
    -- Before a run there is a stretch that is changed, unless the run begins right here in both sequences.
    refine Tiles.append (k := r.start) (l := r.other) ?_ here
    split
    next =>
      refine ⟨⟨fits.low, ?_, fits.otherLow, ?_, fun same => nomatch same⟩, rfl, rfl, rfl, rfl⟩
      · exact Nat.le_trans unchanged.low unchanged.high
      · exact Nat.le_trans unchanged.otherLow unchanged.otherHigh
    next none =>
      simp only [Bool.or_eq_true, decide_eq_true_eq, not_or, Nat.not_lt] at none
      exact ⟨Nat.le_antisymm fits.low none.1, Nat.le_antisymm fits.otherLow none.2⟩

/-- The stretches of two sequences cover both of them. -/
theorem Pair.tiles_stretches (p : Pair) : Tiles p p.first.size p.second.size 0 0 (stretches p) :=
  tiles_stretchesFrom p.chained_runs (Nat.le_refl _) (Nat.le_refl _)

/-! ### What is left out -/

theorem tiles_trimFront {i j k l : Nat} {ss : List Stretch} (h : Tiles p k l i j ss) (first : i ≤ p.first.size)
    (second : j ≤ p.second.size) : ∃ a b, Unchanged p ⟨i, a, j, b⟩ ∧ Tiles p k l a b (trimFront ss) := by
  unfold trimFront
  split
  next w rest =>
    obtain ⟨fits, rfl, rfl, tiles⟩ := h
    have unchanged := fits.same rfl
    obtain ⟨front, back⟩ := unchanged.cut (d := w.high - w.low - contextLines) (Nat.sub_le _ _)
    rw [unchanged.lastLines_eq]
    exact ⟨_, _, front, back.fits, rfl, rfl, tiles⟩
  next => exact ⟨i, j, Unchanged.empty first second, h⟩

theorem tiles_trimBack {i j k l : Nat} {ss : List Stretch} (h : Tiles p k l i j ss) (first : i ≤ p.first.size)
    (second : j ≤ p.second.size) : ∃ c d, Tiles p c d i j (trimBack ss) ∧ Unchanged p ⟨c, k, d, l⟩ := by
  unfold trimBack
  split
  next w last =>
    obtain ⟨front, rfl⟩ := List.getLast?_eq_some_iff.mp last
    obtain ⟨a, b, before, ⟨fits, rfl, rfl, rfl, rfl⟩⟩ := h.split
    have unchanged := fits.same rfl
    obtain ⟨start, rest⟩ := unchanged.cut (d := min contextLines (w.high - w.low)) (Nat.min_le_right _ _)
    rw [unchanged.firstLines_eq, List.dropLast_concat]
    exact ⟨_, _, before.append ⟨start.fits, rfl, rfl, rfl, rfl⟩, rest⟩
  next =>
    obtain ⟨-, high, -, otherHigh⟩ := h.bounds first second
    exact ⟨k, l, h, Unchanged.empty high otherHigh⟩

/-- Groups of stretches with unchanged lines before, between and after them, from one place in both sequences to another. -/
def Grouped (p : Pair) (k l : Nat) (i j : Nat) : List (List Stretch) → Prop
  | [] => Unchanged p ⟨i, k, j, l⟩
  | g :: gs => ∃ a b c d, Unchanged p ⟨i, a, j, b⟩ ∧ Tiles p c d a b g ∧ Grouped p k l c d gs

theorem Grouped.before {i j c d k l : Nat} {gs : List (List Stretch)} (h : Grouped p c d i j gs)
    (back : Unchanged p ⟨c, k, d, l⟩) : Grouped p k l i j gs := by
  induction gs generalizing i j with
  | nil => exact Unchanged.append h back
  | cons g gs ih =>
    obtain ⟨a, b, c', d', between, tiles, grouped⟩ := h
    exact ⟨a, b, c', d', between, tiles, ih grouped⟩

theorem grouped_groupsFrom {i j a b c d k l : Nat} {group ss : List Stretch} (front : Unchanged p ⟨i, a, j, b⟩)
    (started : Tiles p c d a b group) (h : Tiles p k l c d ss) (back : Unchanged p ⟨k, k, l, l⟩) :
    Grouped p k l i j (groupsFrom group ss) := by
  induction ss generalizing i j a b c d group with
  | nil =>
    obtain ⟨rfl, rfl⟩ := h
    exact ⟨a, b, c, d, front, started, back⟩
  | cons s rest ih =>
    have whole := h
    obtain ⟨fits, rfl, rfl, tiles⟩ := h
    rw [groupsFrom]
    split
    next parts =>
      rw [Bool.and_eq_true, decide_eq_true_eq, contextLines] at parts
      have unchanged := fits.same parts.1
      -- The first and the last lines of the context are kept; those between them are not shown.
      obtain ⟨shown, rest_⟩ := unchanged.cut (d := 3) (by omega)
      obtain ⟨hidden, again⟩ := rest_.cut (d := s.window.high - s.window.low - 6) (by simp only; omega)
      have first : s.window.firstLines contextLines =
          ⟨s.window.low, s.window.low + 3, s.window.otherLow, s.window.otherLow + 3⟩ := by
        rw [unchanged.firstLines_eq, contextLines, Nat.min_eq_left (by omega)]
      have last : s.window.lastLines contextLines =
          ⟨s.window.low + 3 + (s.window.high - s.window.low - 6), s.window.high,
            s.window.otherLow + 3 + (s.window.high - s.window.low - 6), s.window.otherHigh⟩ := by
        rw [unchanged.lastLines_eq, contextLines, Window.mk.injEq]
        omega
      rw [first, last]
      exact ⟨a, b, _, _, front, started.append ⟨shown.fits, rfl, rfl, rfl, rfl⟩,
        ih hidden ⟨again.fits, rfl, rfl, rfl, rfl⟩ tiles⟩
    next => exact ih front (started.append ⟨fits, rfl, rfl, rfl, rfl⟩) tiles

theorem Grouped.filter {i j a b k l : Nat} {gs : List (List Stretch)} (front : Unchanged p ⟨i, a, j, b⟩)
    (h : Grouped p k l a b gs) : Grouped p k l i j (gs.filter fun g => g.any fun s => !s.same) := by
  induction gs generalizing i j a b with
  | nil => exact front.append h
  | cons g gs ih =>
    obtain ⟨a', b', c, d, between, tiles, grouped⟩ := h
    have high := between.high
    have otherHigh := between.otherHigh
    rw [List.filter_cons]
    split
    next =>
      obtain ⟨-, inside, -, otherInside⟩ := tiles.bounds high otherHigh
      exact ⟨a', b', c, d, front.append between, tiles, ih (Unchanged.empty inside otherInside) grouped⟩
    next none =>
      -- A group without a change is left out, and then it is unchanged together with the lines on both sides of it.
      have same : ∀ s ∈ g, s.same = true := by simpa using none
      exact ih ((front.append between).append (tiles.unchanged high otherHigh same)) grouped

/-- The groups of a difference lead from one sequence to the other. -/
theorem Pair.grouped_groups (p : Pair) : Grouped p p.first.size p.second.size 0 0 (groups (stretches p)) := by
  have nothing := Unchanged.empty (Nat.zero_le p.first.size) (Nat.zero_le p.second.size)
  obtain ⟨a, b, front, trimmed⟩ := tiles_trimFront p.tiles_stretches (Nat.zero_le _) (Nat.zero_le _)
  obtain ⟨c, d, tiles, back⟩ := tiles_trimBack trimmed front.high front.otherHigh
  have ends := Unchanged.empty (Nat.le_trans back.low back.high) (Nat.le_trans back.otherLow back.otherHigh)
  have started : Tiles p a b a b [] := ⟨rfl, rfl⟩
  exact (Grouped.filter nothing (grouped_groupsFrom front started tiles ends)).before back

/-- There is a change in every group. -/
theorem exists_change {g : List Stretch} {ss : List Stretch} (h : g ∈ groups ss) : ∃ s ∈ g, s.same = false := by
  simpa using (List.mem_filter.mp h).2

/-! ### Equal sequences -/

theorem trimFront_same {ss : List Stretch} (h : ∀ s ∈ ss, s.same = true) : ∀ s ∈ trimFront ss, s.same = true := by
  unfold trimFront
  split
  next w rest =>
    intro s member
    rcases List.mem_cons.mp member with rfl | later
    · rfl
    · exact h s (List.mem_cons_of_mem _ later)
  next => exact h

theorem trimBack_same {ss : List Stretch} (h : ∀ s ∈ ss, s.same = true) : ∀ s ∈ trimBack ss, s.same = true := by
  unfold trimBack
  split
  next w last =>
    intro s member
    rcases List.mem_append.mp member with before | new
    · exact h s (List.dropLast_subset ss before)
    · rw [List.mem_singleton.mp new]
  next => exact h

theorem groupsFrom_same {group ss : List Stretch} (started : ∀ s ∈ group, s.same = true) (h : ∀ s ∈ ss, s.same = true) :
    ∀ g ∈ groupsFrom group ss, ∀ s ∈ g, s.same = true := by
  induction ss generalizing group with
  | nil =>
    intro g member
    rw [List.mem_singleton.mp member]
    exact started
  | cons s rest ih =>
    have later : ∀ t ∈ rest, t.same = true := fun t member => h t (List.mem_cons_of_mem s member)
    have here := h s List.mem_cons_self
    rw [groupsFrom]
    split
    next =>
      intro g member
      rcases List.mem_cons.mp member with rfl | member
      · intro t inside
        rcases List.mem_append.mp inside with old | new
        · exact started t old
        · rw [List.mem_singleton.mp new]
      · exact ih (fun t inside => by rw [List.mem_singleton.mp inside]) later g member
    next =>
      refine ih (fun t inside => ?_) later
      rcases List.mem_append.mp inside with old | new
      · exact started t old
      · rw [List.mem_singleton.mp new, here]

/-- Sequences have no groups of changes between them if and only if they are the same. -/
theorem groups_eq_nil_iff (p : Pair) : groups (stretches p) = [] ↔ p.first = p.second := by
  constructor
  · intro nothing
    -- Without groups, all from the first line to the last is left out, and what is left out is unchanged.
    have grouped := p.grouped_groups
    rw [nothing] at grouped
    have equal := grouped.equal
    rw [slice_all, slice_all] at equal
    exact Array.toList_inj.mp equal
  · intro same
    -- All stretches are unchanged, and cutting does not alter that, but a group has a change.
    have unchanged : ∀ s ∈ stretches p, s.same = true := by
      rw [stretches, Pair.runs_of_same same, ← same]
      by_cases empty : p.first.size = 0
      · simp [empty, stretchesFrom]
      · simp [empty, stretchesFrom]
    rw [groups, List.filter_eq_nil_iff]
    intro g member
    have nothing := groupsFrom_same (fun s inside => absurd inside List.not_mem_nil)
      (trimBack_same (trimFront_same unchanged)) g member
    simpa using nothing

end Remedy.Diff