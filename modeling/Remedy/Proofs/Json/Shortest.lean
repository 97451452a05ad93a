import Mathlib.Algebra.Order.Floor.Semifield
import Mathlib.Data.Nat.Cast.Order.Field
import Mathlib.Data.Rat.Floor
import Mathlib.Tactic.FieldSimp
import Remedy.Proofs.Json.Rounding

/-!
Shortest decimals. With seventeen digits a decimal lies between the middles around every number, so the search for one with as few
as possible always ends with a decimal that is rounded to the number.
-/

namespace Remedy.Json.Binary64

/-! ### The interval of a number -/

theorem between_iff {closed : Bool} {lo x hi : Nat} : between closed lo x hi = true ↔ Within closed lo x hi := by
  rw [between, Within]
  split
  · simp only [Bool.and_eq_true, decide_eq_true_eq, Nat.cast_le]
  · simp only [Bool.and_eq_true, decide_eq_true_eq, Nat.cast_lt]

section

variable {n d lo hi : Nat} {closed : Bool}

/-- The comparison with a multiple of a power of ten is exact. -/
theorem between_rescale (positive : 0 < d) (k : Int) (c : Nat) :
    between closed (rescale 10 lo d k).1 (c * (rescale 10 n d k).2) (rescale 10 hi d k).1 = true ↔
      Within closed ((lo : ℚ) / d) (c * 10 ^ k) ((hi : ℚ) / d) := by
  have den : (0 : ℚ) < (rescale 10 n d k).2 := by exact_mod_cast rescale_den k (by decide) positive
  have end_ (x : Nat) : ((rescale 10 x d k).1 : ℚ) = (x : ℚ) / d / 10 ^ k * (rescale 10 n d k).2 := by
    have ratio := rescale_ratio k (show 0 < 10 by decide) x d
    rw [rescale_den_eq k x (n := n), div_eq_iff den.ne'] at ratio
    exact ratio
  rw [between_iff, end_, end_]
  push_cast
  rw [within_mul den, ← within_mul (show (0 : ℚ) < 10 ^ k by positivity), div_mul_cancel₀ _ (by positivity),
    div_mul_cancel₀ _ (by positivity)]

/-- A multiple of a power of ten next to the fraction lies in the interval. -/
def HasNeighbor (n d lo hi : Nat) (closed : Bool) (k : Int) : Prop :=
  let floor := (rescale 10 n d k).1 / (rescale 10 n d k).2
  Within closed ((lo : ℚ) / d) (floor * 10 ^ k) ((hi : ℚ) / d) ∨
    Within closed ((lo : ℚ) / d) ((floor + 1 : Nat) * 10 ^ k) ((hi : ℚ) / d)

/-- The search ends with a decimal in the interval if it comes to as many digits as one needs that lies there. -/
theorem shortestFrom_within (positive : 0 < d) {top : Int} {fuel count j : Nat} (first : count ≤ j) (last : j < count + fuel)
    (found : HasNeighbor n d lo hi closed (top - j + 1)) :
    Within closed ((lo : ℚ) / d)
      ((shortestFrom n d lo hi closed top fuel count).1 * 10 ^ (shortestFrom n d lo hi closed top fuel count).2)
      ((hi : ℚ) / d) := by
  induction fuel generalizing count with
  | zero => omega
  | succ fuel next =>
    simp only [shortestFrom]
    split_ifs with both nearer down up
    · exact (between_rescale positive _ _).mp (Bool.and_eq_true_iff.mp both).2
    · exact (between_rescale positive _ _).mp (Bool.and_eq_true_iff.mp both).1
    · exact (between_rescale positive _ _).mp down
    · exact (between_rescale positive _ _).mp up
    · refine next ?_ (by omega)
      -- With this many digits there was none.
      by_contra last
      obtain rfl : j = count := by omega
      rcases found with down' | up'
      · exact down ((between_rescale positive _ _).mpr down')
      · exact up ((between_rescale positive _ _).mpr up')

/-- The whole part of a fraction in units of a power of ten. -/
theorem floor_bounds (positive : 0 < d) (k : Int) :
    (((rescale 10 n d k).1 / (rescale 10 n d k).2 : Nat) : ℚ) * 10 ^ k ≤ (n : ℚ) / d ∧
      (n : ℚ) / d < (((rescale 10 n d k).1 / (rescale 10 n d k).2 + 1 : Nat) : ℚ) * 10 ^ k := by
  have unit : (0 : ℚ) < 10 ^ k := by positivity
  have ratio := rescale_ratio k (show 0 < 10 by decide) n d
  rw [← le_div_iff₀ unit, ← div_lt_iff₀ unit]
  have least := Nat.floor_le (show 0 ≤ (n : ℚ) / d / 10 ^ k by positivity)
  have most := Nat.lt_floor_add_one ((n : ℚ) / d / 10 ^ k)
  have floor : ⌊(n : ℚ) / d / 10 ^ k⌋₊ = (rescale 10 n d k).1 / (rescale 10 n d k).2 := by
    rw [← Nat.floor_div_eq_div (K := ℚ), ratio]
    rfl
  rw [floor] at least most
  exact ⟨least, by push_cast at most ⊢; exact most⟩

end

/-! ### Decimal exponents -/

theorem down_le {d n : Nat} {fuel j : Nat} (enough : d ≤ n * 10 ^ (j + fuel)) :
    ∃ i : Nat, decimalExponent.down d fuel (n * 10 ^ j) j = -(i : Int) ∧ d ≤ n * 10 ^ i := by
  induction fuel generalizing j with
  | zero => exact ⟨j, rfl, enough⟩
  | succ fuel next =>
    rw [decimalExponent.down]
    split
    next found => exact ⟨j + 1, by push_cast; rfl, by rw [Nat.pow_succ, ← Nat.mul_assoc]; exact found⟩
    next =>
      rw [Nat.mul_assoc, ← Nat.pow_succ]
      exact next (by rw [show j + 1 + fuel = j + (fuel + 1) by omega]; exact enough)

theorem two_pow_le {i j : Nat} (h : i ≤ 3 * j) : 2 ^ i ≤ 10 ^ j := by
  calc 2 ^ i ≤ 2 ^ (3 * j) := Nat.pow_le_pow_right (by decide) h
    _ = 8 ^ j := Nat.pow_mul 2 3 j
    _ ≤ 10 ^ j := Nat.pow_le_pow_left (by decide) j

/-- A number has at least as many places before its point as its decimal exponent tells. -/
theorem decimalExponent_le {n d : Nat} (positive : 0 < d) (enough : d ≤ n * 10 ^ 400) :
    (10 : ℚ) ^ decimalExponent n d ≤ (n : ℚ) / d := by
  have den : (0 : ℚ) < d := by exact_mod_cast positive
  rw [decimalExponent]
  split
  next whole =>
    have nonzero : n / d ≠ 0 := (Nat.div_pos whole positive).ne'
    have size := Nat.length_toDigits_pos (b := 10) (n := n / d)
    have least := (length_bounds nonzero).1
    rw [← String.length_toList, toList_toString]
    calc (10 : ℚ) ^ (((Nat.toDigits 10 (n / d)).length : Int) - 1)
        = ((10 ^ ((Nat.toDigits 10 (n / d)).length - 1) : Nat) : ℚ) := by
          rw [Nat.cast_pow, ← zpow_natCast, Nat.cast_sub size]; rfl
      _ ≤ (n / d : Nat) := by exact_mod_cast least
      _ ≤ (n : ℚ) / d := Nat.cast_div_le
  next =>
    obtain ⟨i, exponent, least⟩ := down_le (show d ≤ n * 10 ^ (0 + 400) by rwa [Nat.zero_add])
    rw [Nat.pow_zero, Nat.mul_one] at exponent
    have least : (d : ℚ) ≤ n * 10 ^ i := by exact_mod_cast least
    rw [exponent, zpow_neg, zpow_natCast, le_div_iff₀ den, inv_mul_le_iff₀ (by positivity), mul_comm]
    exact least

/-! ### Seventeen digits -/

section

variable {m : Nat} {e : Int}

/-- The fractions that the search works with, all over one denominator. -/
theorem ratio_scaled (e : Int) (x : Nat) :
    ((x * Nat.pow 2 e.toNat : Nat) : ℚ) / (4 * Nat.pow 2 (-e).toNat : Nat) = x / 4 * 2 ^ e := by
  rcases le_or_gt 0 e with up | down
  · obtain ⟨i, rfl⟩ := Int.eq_ofNat_of_zero_le up
    simp only [Int.toNat_natCast, Nat.pow_eq, Nat.cast_mul, Nat.cast_pow, Nat.cast_ofNat, Int.toNat_neg_natCast, pow_zero, mul_one,
      zpow_natCast]
    ring
  · obtain ⟨i, same⟩ := Int.eq_ofNat_of_zero_le (show 0 ≤ -e by omega)
    obtain rfl : e = -(i : Int) := by omega
    simp only [Int.toNat_neg_natCast, Nat.pow_eq, pow_zero, mul_one, neg_neg, Int.toNat_natCast, Nat.cast_mul, Nat.cast_ofNat,
      Nat.cast_pow, zpow_neg, zpow_natCast]
    ring

/-- One of the two multiples of a power of ten next to a number lies between the middles around it, if the power is small enough. -/
theorem hasNeighbor (normal : IsNormal m e) {n d lo hi : Nat} (closed : Bool) {k : Int} (positive : 0 < d)
    (number : (n : ℚ) / d = m * 2 ^ e) (low : (lo : ℚ) / d = (m - quartersBelow m e / 4) * 2 ^ e)
    (high : (hi : ℚ) / d = (m + 1 / 2) * 2 ^ e) (fine : (10 : ℚ) ^ k * 10 ^ 16 ≤ m * 2 ^ e) :
    HasNeighbor n d lo hi closed k := by
  have unit : (0 : ℚ) < 2 ^ e := by positivity
  obtain ⟨floor, ceiling⟩ := floor_bounds (n := n) positive k
  have step (c : Nat) : ((c + 1 : Nat) : ℚ) * 10 ^ k = c * 10 ^ k + 10 ^ k := by rw [Nat.cast_succ, add_mul, one_mul]
  rw [step, number] at ceiling
  rw [number] at floor
  rw [HasNeighbor, low, high, step]
  -- From here on the multiples and the powers are any numbers with these bounds.
  generalize (((rescale 10 n d k).1 / (rescale 10 n d k).2 : Nat) : ℚ) * 10 ^ k = below at floor ceiling ⊢
  generalize (10 : ℚ) ^ k = step at fine ceiling ⊢
  generalize (2 : ℚ) ^ e = ulp at unit fine floor ceiling ⊢
  by_cases power : m = 2 ^ 52 ∧ -1074 < e
  · -- The interval is narrower below, but above the number there is room for a whole step.
    rw [quartersBelow, if_pos power]
    obtain ⟨rfl, _⟩ := power
    push_cast at fine floor ceiling ⊢
    right
    exact within_of_strict (by linarith) (by linarith)
  · rw [quartersBelow, if_neg power]
    have small : (m : ℚ) * ulp ≤ 2 ^ 53 * ulp := by
      gcongr
      exact_mod_cast normal.small.le
    by_cases near : (m - 1 / 2) * ulp < below
    · left
      exact within_of_strict (by push_cast; linarith) (by linarith)
    · right
      exact within_of_strict (by push_cast; linarith) (by linarith)

/-- **The shortest decimal of a number is rounded to it.** -/
theorem rounds_shortest (normal : IsNormal m e) : Rounds m e ((shortest m e).1 * 10 ^ (shortest m e).2) := by
  have unit : (0 : ℚ) < 2 ^ e := by positivity
  have nonzero := normal.positive
  have quarters := quartersBelow_le m e
  generalize number : 4 * m * Nat.pow 2 e.toNat = n
  generalize denominator : 4 * Nat.pow 2 (-e).toNat = d
  have positive : 0 < d := denominator ▸ Nat.mul_pos (by decide) (Nat.pow_pos (by decide))
  have value : (n : ℚ) / d = m * 2 ^ e := by
    rw [← number, ← denominator, ratio_scaled]
    push_cast
    ring
  have lower : (if m == Nat.pow 2 52 && decide (e > -1074) then n - Nat.pow 2 e.toNat else n - 2 * Nat.pow 2 e.toNat) =
      (4 * m - quartersBelow m e) * Nat.pow 2 e.toNat := by
    rw [Nat.sub_mul, number, quartersBelow]
    simp only [Bool.and_eq_true, beq_iff_eq, decide_eq_true_eq, gt_iff_lt]
    split
    next power => rw [if_pos (show m = 2 ^ 52 ∧ -1074 < e from power), Nat.one_mul]
    next other => rw [if_neg (show ¬ (m = 2 ^ 52 ∧ -1074 < e) from other)]
  have low : (((4 * m - quartersBelow m e) * Nat.pow 2 e.toNat : Nat) : ℚ) / d = (m - quartersBelow m e / 4) * 2 ^ e := by
    rw [← denominator, ratio_scaled, Nat.cast_sub (by omega)]
    push_cast
    ring
  have high : ((n + 2 * Nat.pow 2 e.toNat : Nat) : ℚ) / d = (m + 1 / 2) * 2 ^ e := by
    rw [← number, ← Nat.add_mul, ← denominator, ratio_scaled]
    push_cast
    ring
  have enough : d ≤ n * 10 ^ 400 := by
    have least := normal.least
    have scale : 0 < Nat.pow 2 e.toNat := Nat.pow_pos (by decide)
    have four : 4 ≤ n := number ▸ Nat.mul_le_mul (Nat.mul_le_mul_left 4 nonzero) scale
    exact denominator ▸ Nat.mul_le_mul four (two_pow_le (by omega))
  have fine : (10 : ℚ) ^ (decimalExponent n d - (17 : Nat) + 1) * 10 ^ 16 ≤ m * 2 ^ e := by
    rw [← value, ← zpow_natCast, ← zpow_add₀ (by norm_num)]
    convert decimalExponent_le positive enough using 2
    omega
  -- The search tries up to seventeen digits, and with these it finds one.
  have found := shortestFrom_within positive (show 1 ≤ 17 by decide) (show 17 < 1 + 17 by decide)
    (hasNeighbor normal (m % 2 == 0) positive value low high fine)
  rw [low, high] at found
  rw [shortest]
  simp only [number, denominator, lower]
  rw [Rounds, ← within_mul unit, div_mul_cancel₀ _ unit.ne']
  exact found

end

end Remedy.Json.Binary64
