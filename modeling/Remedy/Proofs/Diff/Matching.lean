import Mathlib.Data.List.Basic
import Remedy.Diff.Matching

/-!
What two sequences of lines are found to have in common really is the same in both, and comes in the same order in both. Two
sequences that are equal are found to have everything in common.

Runs are found by a table: its row at a line of the first sequence says, for each line of the second, how long the run is that
ends at both. `Row` is what holds of every row; the rest is bookkeeping around it. For equal sequences the longest entry of the
table lies on its diagonal, since a run that ends off the diagonal stands on the diagonal as well.
-/

namespace Remedy.Diff

/-- A run of equal lines in a window. -/
structure Run.Fits (p : Pair) (w : Window) (r : Run) : Prop where
  low : w.low ≤ r.start
  high : r.start + r.size ≤ w.high
  otherLow : w.otherLow ≤ r.other
  otherHigh : r.other + r.size ≤ w.otherHigh
  equal : ∀ d < r.size, p.line (r.start + d) = p.other (r.other + d)

/-- Runs of equal lines, one after the other in both sequences, from a place in both on. -/
def Chained (p : Pair) (high otherHigh : Nat) (i j : Nat) : List Run → Prop
  | [] => i ≤ high ∧ j ≤ otherHigh
  | r :: rest => r.Fits p ⟨i, high, j, otherHigh⟩ ∧ Chained p high otherHigh (r.start + r.size) (r.other + r.size) rest

namespace Run

variable {p : Pair} {w : Window} {r : Run}

theorem fits_none (low : w.low ≤ r.start) (high : r.start ≤ w.high) (otherLow : w.otherLow ≤ r.other)
    (otherHigh : r.other ≤ w.otherHigh) : Fits p w ⟨r.start, r.other, 0⟩ :=
  ⟨low, high, otherLow, otherHigh, fun d less => absurd less (Nat.not_lt_zero d)⟩

/-- A run goes on by a line. -/
theorem Fits.later (h : r.Fits p w) {m : Nat} (inside : r.start + r.size < m)
    (otherInside : r.other + r.size < w.otherHigh) (same : p.line (r.start + r.size) = p.other (r.other + r.size)) :
    Fits p ⟨w.low, m, w.otherLow, w.otherHigh⟩ ⟨r.start, r.other, r.size + 1⟩ := by
  refine ⟨h.low, inside, h.otherLow, otherInside, fun d less => ?_⟩
  rcases Nat.lt_succ_iff_lt_or_eq.mp less with before | rfl
  · exact h.equal d before
  · exact same

/-- A run begins a line earlier. -/
theorem Fits.earlier (h : r.Fits p w) (inside : w.low < r.start) (otherInside : w.otherLow < r.other)
    (same : p.line (r.start - 1) = p.other (r.other - 1)) : Fits p w ⟨r.start - 1, r.other - 1, r.size + 1⟩ := by
  have high := h.high
  have otherHigh := h.otherHigh
  refine ⟨Nat.le_sub_one_of_lt inside, ?_, Nat.le_sub_one_of_lt otherInside, ?_, fun d less => ?_⟩
  · simp only
    omega
  · simp only
    omega
  · cases d with
    | zero => exact same
    | succ d =>
      have here : r.start - 1 + (d + 1) = r.start + d := by omega
      have there : r.other - 1 + (d + 1) = r.other + d := by omega
      simp only
      rw [here, there]
      exact h.equal d (Nat.lt_of_succ_lt_succ less)

end Run

theorem foldl_range_induction {α : Type} {f : α → Nat → α} {a : α} (P : Nat → α → Prop) {n : Nat} (start : P 0 a)
    (step : ∀ k x, k < n → P k x → P (k + 1) (f x k)) : P n ((List.range n).foldl f a) := by
  induction n with
  | zero => exact start
  | succ n ih =>
    rw [List.range_succ, List.foldl_append]
    exact step n _ (Nat.lt_succ_self n) (ih fun k x less => step k x (Nat.lt_succ_of_lt less))

namespace Pair

variable {p : Pair} {w : Window}

/-! ### The table -/

/-- What holds of the lengths of the runs that end before line `i`. -/
def Row (p : Pair) (w : Window) (i : Nat) (lengths : Array Nat) : Prop :=
  ∀ j, 0 < lengths.getD j 0 →
    lengths.getD j 0 ≤ i ∧ lengths.getD j 0 ≤ j + 1 ∧
      Run.Fits p ⟨w.low, i, w.otherLow, w.otherHigh⟩ ⟨i - lengths.getD j 0, j + 1 - lengths.getD j 0, lengths.getD j 0⟩

@[simp] theorem size_runsAt (p : Pair) (w : Window) (before : Array Nat) (i : Nat) :
    (p.runsAt w before i).size = p.second.size := by
  simp [runsAt]

/-- A line that does not come too often and is the same on both sides. -/
def Meet (p : Pair) (w : Window) (i j : Nat) : Prop :=
  j < p.second.size ∧ w.otherLow ≤ j ∧ j < w.otherHigh ∧ p.line i = p.other j ∧ p.other j ∉ p.frequent

theorem getD_runsAt_of_meet {i j : Nat} (h : p.Meet w i j) (before : Array Nat) :
    (p.runsAt w before i).getD j 0 = (if j = 0 then 0 else before.getD (j - 1) 0) + 1 := by
  obtain ⟨inside, low, high, same, plain⟩ := h
  simp [runsAt, inside, low, high, same, plain]

theorem getD_runsAt_of_not_meet {i j : Nat} (h : ¬p.Meet w i j) (before : Array Nat) :
    (p.runsAt w before i).getD j 0 = 0 := by
  by_cases inside : j < p.second.size
  · have apart : ¬(w.otherLow ≤ j ∧ j < w.otherHigh ∧ p.line i = p.other j ∧ p.other j ∉ p.frequent) :=
      fun rest => h ⟨inside, rest⟩
    simpa [runsAt, inside, and_assoc] using apart
  · simp [runsAt, inside]

theorem row_runsAt {before : Array Nat} {i : Nat} (low : w.low ≤ i) (h : p.Row w i before) :
    p.Row w (i + 1) (p.runsAt w before i) := by
  intro j positive
  by_cases meet : p.Meet w i j
  · rw [getD_runsAt_of_meet meet]
    obtain ⟨-, otherLow, otherHigh, same, -⟩ := meet
    -- The run that ends a line earlier in both, be it empty, goes on by this line.
    obtain ⟨k, found, here, there, fits⟩ : ∃ k, (if j = 0 then 0 else before.getD (j - 1) 0) = k ∧ k ≤ i ∧ k ≤ j ∧
        Run.Fits p ⟨w.low, i, w.otherLow, w.otherHigh⟩ ⟨i - k, j - k, k⟩ := by
      refine ⟨_, rfl, ?_⟩
      rcases Nat.eq_zero_or_pos (if j = 0 then 0 else before.getD (j - 1) 0) with zero | positive
      · rw [zero]
        exact ⟨Nat.zero_le i, Nat.zero_le j,
          Run.fits_none (r := ⟨i, j, 0⟩) low (Nat.le_refl i) otherLow (Nat.le_of_lt otherHigh)⟩
      · have first : j ≠ 0 := by
          rintro rfl
          exact absurd positive (Nat.lt_irrefl 0)
        rw [if_neg first] at positive ⊢
        have row := h (j - 1) positive
        rw [Nat.sub_add_cancel (Nat.pos_of_ne_zero first)] at row
        exact row
    have start : i - k + k = i := Nat.sub_add_cancel here
    have other : j - k + k = j := Nat.sub_add_cancel there
    have longer := fits.later (m := i + 1) (by simp only; omega) (by simp only; omega) (by simp only [start, other, same])
    rw [found, Nat.add_sub_add_right, Nat.add_sub_add_right]
    exact ⟨Nat.succ_le_succ here, Nat.succ_le_succ there, longer⟩
  · rw [getD_runsAt_of_not_meet meet] at positive
    exact absurd positive (Nat.lt_irrefl 0)

theorem fits_better {best : Run} {i : Nat} {lengths : Array Nat} (row : p.Row w (i + 1) lengths) (inside : i < w.high)
    (h : best.Fits p w) : (better best i lengths).Fits p w := by
  rw [better]
  refine foldl_range_induction (fun _ (best : Run) => best.Fits p w) h fun j best _ fits => ?_
  change Run.Fits p w (if best.size < lengths.getD j 0 then _ else best)
  by_cases longer : best.size < lengths.getD j 0
  · rw [if_pos longer]
    obtain ⟨here, there, found⟩ := row j (Nat.zero_lt_of_lt longer)
    refine ⟨found.low, ?_, found.otherLow, found.otherHigh, found.equal⟩
    simp only
    omega
  · rw [if_neg longer]
    exact fits

theorem fits_longestPlain (low : w.low ≤ w.high) (otherLow : w.otherLow ≤ w.otherHigh) : (p.longestPlain w).Fits p w := by
  rw [longestPlain]
  refine (foldl_range_induction
    (fun d (state : Run × Array Nat) => state.1.Fits p w ∧ p.Row w (w.low + d) state.2) ?_ ?_).1
  · refine ⟨Run.fits_none (r := ⟨w.low, w.otherLow, 0⟩) (Nat.le_refl _) low (Nat.le_refl _) otherLow, fun j positive => ?_⟩
    exact absurd positive (by simp)
  · rintro d ⟨best, lengths⟩ inside ⟨fits, row⟩
    have next := row_runsAt (Nat.le_add_right w.low d) row
    exact ⟨fits_better next (by omega) fits, next⟩

/-! ### Prolonging and cutting -/

theorem fits_prolongFront {fuel : Nat} {r : Run} (h : r.Fits p w) : (p.prolongFront w fuel r).Fits p w := by
  induction fuel generalizing r with
  | zero => exact h
  | succ fuel ih =>
    rw [prolongFront]
    split
    next more =>
      simp only [Bool.and_eq_true, decide_eq_true_eq, beq_iff_eq] at more
      obtain ⟨⟨low, otherLow⟩, same⟩ := more
      exact ih (h.earlier low otherLow same)
    next => exact h

theorem fits_prolongBack {fuel : Nat} {r : Run} (h : r.Fits p w) : (p.prolongBack w fuel r).Fits p w := by
  induction fuel generalizing r with
  | zero => exact h
  | succ fuel ih =>
    rw [prolongBack]
    split
    next more =>
      simp only [Bool.and_eq_true, decide_eq_true_eq, beq_iff_eq] at more
      obtain ⟨⟨high, otherHigh⟩, same⟩ := more
      exact ih (h.later high otherHigh same)
    next => exact h

theorem fits_longest (low : w.low ≤ w.high) (otherLow : w.otherLow ≤ w.otherHigh) : (p.longest w).Fits p w :=
  fits_prolongBack (fits_prolongFront (fits_longestPlain low otherLow))

end Pair

/-! ### All runs -/

variable {p : Pair}

theorem Chained.mono {high otherHigh i j k l : Nat} {rs : List Run} (h : Chained p high otherHigh i j rs) (ki : k ≤ i)
    (lj : l ≤ j) : Chained p high otherHigh k l rs := by
  cases rs with
  | nil => exact ⟨Nat.le_trans ki h.1, Nat.le_trans lj h.2⟩
  | cons r rest =>
    obtain ⟨fits, chained⟩ := h
    exact ⟨⟨Nat.le_trans ki fits.low, fits.high, Nat.le_trans lj fits.otherLow, fits.otherHigh, fits.equal⟩, chained⟩

/-- Runs in a window go on with runs after the window. -/
theorem Chained.append {high otherHigh m n i j : Nat} {rs ss : List Run} (h : Chained p m n i j rs)
    (rest : Chained p high otherHigh m n ss) (inside : m ≤ high) (otherInside : n ≤ otherHigh) :
    Chained p high otherHigh i j (rs ++ ss) := by
  induction rs generalizing i j with
  | nil => exact rest.mono h.1 h.2
  | cons r rs ih =>
    obtain ⟨fits, chained⟩ := h
    refine ⟨⟨fits.low, Nat.le_trans fits.high inside, fits.otherLow, Nat.le_trans fits.otherHigh otherInside,
      fits.equal⟩, ih chained⟩

theorem Pair.chained_runsFrom {fuel : Nat} {w : Window} (low : w.low ≤ w.high) (otherLow : w.otherLow ≤ w.otherHigh) :
    Chained p w.high w.otherHigh w.low w.otherLow (p.runsFrom fuel w) := by
  induction fuel generalizing w with
  | zero => exact ⟨low, otherLow⟩
  | succ fuel ih =>
    rw [runsFrom]
    have fits := p.fits_longest low otherLow
    simp only
    generalize p.longest w = r at fits
    split
    next => exact ⟨low, otherLow⟩
    next =>
      -- The longest run parts the window. What is found before it ends where it begins, and what is found behind it begins
      -- where it ends.
      have front : Chained p r.start r.other w.low w.otherLow
          (if w.low < r.start && w.otherLow < r.other then p.runsFrom fuel ⟨w.low, r.start, w.otherLow, r.other⟩
            else []) := by
        split
        next => exact ih (w := ⟨w.low, r.start, w.otherLow, r.other⟩) fits.low fits.otherLow
        next => exact ⟨fits.low, fits.otherLow⟩
      have back : Chained p w.high w.otherHigh (r.start + r.size) (r.other + r.size)
          (if r.start + r.size < w.high && r.other + r.size < w.otherHigh then
            p.runsFrom fuel ⟨r.start + r.size, w.high, r.other + r.size, w.otherHigh⟩ else []) := by
        split
        next => exact ih (w := ⟨r.start + r.size, w.high, r.other + r.size, w.otherHigh⟩) fits.high fits.otherHigh
        next => exact ⟨fits.high, fits.otherHigh⟩
      have here : r.Fits p ⟨r.start, w.high, r.other, w.otherHigh⟩ :=
        ⟨Nat.le_refl _, fits.high, Nat.le_refl _, fits.otherHigh, fits.equal⟩
      exact front.append ⟨here, back⟩ (Nat.le_trans (Nat.le_add_right _ _) fits.high)
        (Nat.le_trans (Nat.le_add_right _ _) fits.otherHigh)

theorem Pair.chained_joinRuns {high otherHigh i j : Nat} {r : Run} {rest : List Run}
    (h : Chained p high otherHigh i j (r :: rest)) : Chained p high otherHigh i j (joinRuns r rest) := by
  -- The run in hand grows, or is given up if it is empty, so this is about any run that may be in hand.
  induction rest generalizing i j r with
  | nil =>
    rw [joinRuns]
    split
    next empty =>
      obtain ⟨fits, -⟩ := h
      exact ⟨Nat.le_trans fits.low (Nat.le_trans (Nat.le_add_right _ _) fits.high),
        Nat.le_trans fits.otherLow (Nat.le_trans (Nat.le_add_right _ _) fits.otherHigh)⟩
    next => exact h
  | cons s rest ih =>
    obtain ⟨first, second, chained⟩ := h
    rw [joinRuns]
    split
    next touch =>
      simp only [Bool.and_eq_true, beq_iff_eq] at touch
      obtain ⟨start, other⟩ := touch
      have high := second.high
      have otherHigh := second.otherHigh
      simp only at high otherHigh
      refine ih ⟨⟨first.low, by simp only; omega, first.otherLow, by simp only; omega, fun d less => ?_⟩, ?_⟩
      -- A line of the joined run is one of the first run or one of the second.
      · by_cases early : d < r.size
        · exact first.equal d early
        · have later := second.equal (d - r.size) (by simp only at less; omega)
          have here : r.start + d = s.start + (d - r.size) := by omega
          have there : r.other + d = s.other + (d - r.size) := by omega
          rw [here, there, later]
      · simp only
        rw [← Nat.add_assoc, ← Nat.add_assoc, start, other]
        exact chained
    next =>
      split
      next empty =>
        have size : r.size = 0 := beq_iff_eq.mp empty
        refine ih (Chained.mono (i := r.start + r.size) (j := r.other + r.size) ⟨second, chained⟩ ?_ ?_)
        · exact Nat.le_trans first.low (Nat.le_add_right _ _)
        · exact Nat.le_trans first.otherLow (Nat.le_add_right _ _)
      next => exact ⟨first, ih ⟨second, chained⟩⟩

/-- All that is found to be the same in both sequences is, and it comes in the same order in both. -/
theorem Pair.chained_runs (p : Pair) : Chained p p.first.size p.second.size 0 0 p.runs := by
  refine chained_joinRuns ⟨⟨Nat.le_refl 0, Nat.zero_le _, Nat.le_refl 0, Nat.zero_le _, fun d less => ?_⟩, ?_⟩
  · exact absurd less (Nat.not_lt_zero d)
  · exact p.chained_runsFrom (w := ⟨0, p.first.size, 0, p.second.size⟩) (Nat.zero_le _) (Nat.zero_le _)

/-! ### Equal sequences -/

namespace Pair

/-- How many lines before line `i` do not come too often, up to the next one that does. -/
def plainBefore (p : Pair) : Nat → Nat
  | 0 => 0
  | i + 1 => if p.line i ∈ p.frequent then 0 else plainBefore p i + 1

/-- What holds of the table's row before line `i` if both sequences are the same: its entries are no longer than those on
the diagonal of their line and of their column. -/
structure DiagonalRow (p : Pair) (i : Nat) (lengths : Array Nat) : Prop where
  line : ∀ j, lengths.getD j 0 ≤ p.plainBefore i
  column : ∀ j, lengths.getD j 0 ≤ p.plainBefore (j + 1)
  diagonal : 0 < i → lengths.getD (i - 1) 0 = p.plainBefore i

/-- All of both sequences. -/
def whole (p : Pair) : Window := ⟨0, p.first.size, 0, p.second.size⟩

variable (same : p.first = p.second)

include same in
theorem meet_iff_of_same {i j : Nat} :
    p.Meet p.whole i j ↔ j < p.first.size ∧ p.line i = p.line j ∧ p.line j ∉ p.frequent := by
  have lines : p.other j = p.line j := by rw [other, line, same]
  rw [Meet, lines]
  simp only [whole, ← same]
  exact ⟨fun ⟨inside, _, _, rest⟩ => ⟨inside, rest⟩, fun ⟨inside, rest⟩ => ⟨inside, Nat.zero_le j, inside, rest⟩⟩

include same in
theorem diagonalRow_runsAt {before : Array Nat} {i : Nat} (inside : i < p.first.size) (h : p.DiagonalRow i before) :
    p.DiagonalRow (i + 1) (p.runsAt p.whole before i) := by
  -- An entry is one more than the entry of the line and the column before, and so are both of its bounds.
  have entry (j : Nat) : (p.runsAt p.whole before i).getD j 0 ≤ p.plainBefore (i + 1) ∧
      (p.runsAt p.whole before i).getD j 0 ≤ p.plainBefore (j + 1) := by
    by_cases meet : p.Meet p.whole i j
    · rw [getD_runsAt_of_meet meet]
      obtain ⟨-, equal, plain⟩ := (meet_iff_of_same same).mp meet
      rw [plainBefore, plainBefore, equal, if_neg plain, if_neg plain]
      cases j with
      | zero => exact ⟨Nat.succ_le_succ (Nat.zero_le _), Nat.succ_le_succ (Nat.zero_le _)⟩
      | succ j => exact ⟨Nat.succ_le_succ (h.line j), Nat.succ_le_succ (h.column j)⟩
    · rw [getD_runsAt_of_not_meet meet]
      exact ⟨Nat.zero_le _, Nat.zero_le _⟩
  refine ⟨fun j => (entry j).1, fun j => (entry j).2, fun _ => ?_⟩
  rw [Nat.add_sub_cancel, plainBefore]
  by_cases often : p.line i ∈ p.frequent
  · rw [if_pos often, getD_runsAt_of_not_meet]
    exact fun meet => ((meet_iff_of_same same).mp meet).2.2 often
  · rw [if_neg often, getD_runsAt_of_meet ((meet_iff_of_same same).mpr ⟨inside, rfl, often⟩)]
    cases i with
    | zero => rfl
    | succ i => rw [if_neg (Nat.succ_ne_zero i), ← h.diagonal (Nat.succ_pos i)]

/-- A run on the diagonal, at least as long as all that end before line `i`. -/
def Leads (p : Pair) (i : Nat) (best : Run) : Prop :=
  best.start = best.other ∧ ∀ k ≤ i, p.plainBefore k ≤ best.size

theorem leads_better {best : Run} {i : Nat} {lengths : Array Nat} (row : p.DiagonalRow (i + 1) lengths)
    (inside : i < lengths.size) (h : p.Leads i best) : p.Leads (i + 1) (better best i lengths) := by
  rw [better]
  -- Once the scan has passed the diagonal, what was found is as long as the entry there, and so as any behind it.
  have scanned := foldl_range_induction
    (f := fun (best : Run) j =>
      let k := lengths.getD j 0
      if best.size < k then ⟨i + 1 - k, j + 1 - k, k⟩ else best)
    (fun j (best : Run) => p.Leads i best ∧ (i < j → p.plainBefore (i + 1) ≤ best.size)) (n := lengths.size)
    ⟨h, fun less => absurd less (Nat.not_lt_zero i)⟩ ?_
  · obtain ⟨⟨diagonal, before⟩, here⟩ := scanned
    refine ⟨diagonal, fun k le => ?_⟩
    rcases Nat.le_succ_iff.mp le with earlier | rfl
    · exact before k earlier
    · exact here inside
  · intro j best _ ⟨⟨diagonal, before⟩, here⟩
    have line := row.line j
    have column := row.column j
    -- Only the entry on the diagonal can be longer than what was found before.
    rcases Nat.lt_trichotomy j i with less | rfl | more
    · have short := before (j + 1) less
      rw [if_neg (Nat.not_lt_of_le (Nat.le_trans column short))]
      exact ⟨⟨diagonal, before⟩, fun later => absurd later (by omega)⟩
    · have entry := row.diagonal (Nat.succ_pos j)
      rw [Nat.add_sub_cancel] at entry
      by_cases longer : best.size < lengths.getD j 0
      · rw [if_pos longer]
        exact ⟨⟨rfl, fun k le => Nat.le_trans (before k le) (Nat.le_of_lt longer)⟩, fun _ => Nat.le_of_eq entry.symm⟩
      · rw [if_neg longer]
        exact ⟨⟨diagonal, before⟩, fun _ => entry ▸ Nat.le_of_not_lt longer⟩
    · rw [if_neg (Nat.not_lt_of_le (Nat.le_trans line (here more)))]
      exact ⟨⟨diagonal, before⟩, fun _ => here more⟩

include same in
theorem longestPlain_diagonal : (p.longestPlain p.whole).start = (p.longestPlain p.whole).other := by
  rw [longestPlain]
  refine (foldl_range_induction (n := p.whole.high - p.whole.low)
    (fun d (state : Run × Array Nat) => p.Leads d state.1 ∧ p.DiagonalRow d state.2) ?_ ?_).1.1
  · refine ⟨⟨rfl, fun k le => ?_⟩, ⟨fun j => by simp, fun j => by simp, fun positive => absurd positive (Nat.lt_irrefl 0)⟩⟩
    rw [Nat.le_zero.mp le]
    exact Nat.le_refl 0
  · rintro d ⟨best, lengths⟩ inside ⟨leads, row⟩
    have next := diagonalRow_runsAt same inside row
    simp only [whole, Nat.zero_add] at next ⊢
    exact ⟨leads_better next (by rw [size_runsAt, ← same]; exact inside) leads, next⟩

include same in
theorem line_eq_other (i : Nat) : p.line i = p.other i := by
  rw [line, other, same]

include same in
theorem prolongFront_diagonal {fuel s k : Nat} (enough : s ≤ fuel) :
    p.prolongFront p.whole fuel ⟨s, s, k⟩ = ⟨0, 0, s + k⟩ := by
  induction fuel generalizing s k with
  | zero =>
    obtain rfl := Nat.le_zero.mp enough
    rw [prolongFront, Nat.zero_add]
  | succ fuel ih =>
    cases s with
    | zero => simp [prolongFront, whole]
    | succ s =>
      have more : (p.whole.low < s + 1 && p.whole.otherLow < s + 1 && p.line (s + 1 - 1) == p.other (s + 1 - 1)) = true := by
        simp [whole, line_eq_other same]
      rw [prolongFront, if_pos more, Nat.add_sub_cancel, ih (Nat.le_of_succ_le_succ enough), Nat.add_right_comm]
      rfl

include same in
theorem prolongBack_diagonal {fuel k : Nat} (inside : k ≤ p.first.size) (enough : p.first.size ≤ k + fuel) :
    p.prolongBack p.whole fuel ⟨0, 0, k⟩ = ⟨0, 0, p.first.size⟩ := by
  induction fuel generalizing k with
  | zero =>
    rw [prolongBack, Nat.le_antisymm inside enough]
  | succ fuel ih =>
    by_cases full : k = p.first.size
    · simp [prolongBack, whole, full]
    · have less : k < p.first.size := Nat.lt_of_le_of_ne inside full
      have more : (0 + k < p.whole.high && 0 + k < p.whole.otherHigh && p.line (0 + k) == p.other (0 + k)) = true := by
        simp [whole, line_eq_other same, ← same, less]
      rw [prolongBack, if_pos more]
      change p.prolongBack p.whole fuel ⟨0, 0, k + 1⟩ = _
      exact ih less (by omega)

include same in
theorem longest_of_same : p.longest p.whole = ⟨0, 0, p.first.size⟩ := by
  have fits := p.fits_longestPlain (w := p.whole) (Nat.zero_le _) (Nat.zero_le _)
  have diagonal := longestPlain_diagonal same
  rw [longest]
  generalize p.longestPlain p.whole = r at fits diagonal
  obtain ⟨s, other, k⟩ := r
  obtain rfl : s = other := diagonal
  have high : s + k ≤ p.first.size := fits.high
  have reach : p.whole.high - p.whole.low = p.first.size := Nat.sub_zero _
  -- On the diagonal a run goes on to the front as far as both sequences do, and then to the back.
  rw [reach, prolongFront_diagonal same (Nat.le_trans (Nat.le_add_right s k) high),
    prolongBack_diagonal same high (Nat.le_add_left _ _)]

/-- Two sequences that are the same have everything in common. -/
theorem runs_of_same (same : p.first = p.second) :
    p.runs = if p.first.size = 0 then [] else [⟨0, 0, p.first.size⟩] := by
  have found : p.runsFrom (p.first.size + 1) p.whole =
      if p.first.size = 0 then [] else [⟨0, 0, p.first.size⟩] := by
    rw [runsFrom, longest_of_same same]
    by_cases empty : p.first.size = 0
    · simp [empty]
    · simp [empty, whole]
  rw [runs]
  change joinRuns _ (p.runsFrom (p.first.size + 1) p.whole) = _
  rw [found]
  by_cases empty : p.first.size = 0
  · simp [empty, joinRuns]
  · simp [empty, joinRuns]

end Pair

end Remedy.Diff
