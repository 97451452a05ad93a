import Mathlib.Algebra.Order.Field.Power
import Mathlib.Algebra.Order.Ring.Rat
import Mathlib.Tactic.GCongr
import Mathlib.Tactic.Linarith
import Mathlib.Tactic.Positivity
import Remedy.Json.Binary64
import Remedy.Proofs.Text.Runs

/-!
Real numbers of double precision and what is rounded to them. Every fraction between the middles of a number and its two
neighbours is read as that number; a middle belongs to the one with an even mantissa.
-/

namespace Remedy.Json.Binary64

/-! ### Fractions -/

section

variable {base n d : Nat} (k : Int)

theorem rescale_den (nonzero : 0 < base) (positive : 0 < d) : 0 < (rescale base n d k).2 := by
  rw [rescale]
  split
  · exact Nat.mul_pos positive (Nat.pow_pos nonzero)
  · exact positive

/-- The denominator is that of any other fraction with the same one. -/
theorem rescale_den_eq (n' : Nat) : (rescale base n' d k).2 = (rescale base n d k).2 := by
  rw [rescale, rescale]
  split <;> rfl

theorem rescale_ratio (nonzero : 0 < base) (n d : Nat) :
    ((rescale base n d k).1 : ℚ) / (rescale base n d k).2 = (n : ℚ) / d / (base : ℚ) ^ k := by
  have positive : (base : ℚ) ≠ 0 := by exact_mod_cast nonzero.ne'
  rw [rescale]
  split
  next up =>
    obtain ⟨i, rfl⟩ := Int.eq_ofNat_of_zero_le up
    simp [div_div]
  next down =>
    obtain ⟨i, same⟩ := Int.eq_ofNat_of_zero_le (show 0 ≤ -k by omega)
    obtain rfl : k = -(i : Int) := by omega
    simp [zpow_neg, div_eq_mul_inv, mul_assoc, mul_comm]

end

/-! ### Exponents -/

theorem binaryExponent_spec {n d : Nat} (nonzero : 0 < n) (positive : 0 < d) :
    (2 : ℚ) ^ binaryExponent n d ≤ (n : ℚ) / d ∧ (n : ℚ) / d < (2 : ℚ) ^ (binaryExponent n d + 1) := by
  have den : (0 : ℚ) < d := by exact_mod_cast positive
  have nLow : (2 : ℚ) ^ (n.log2 : Int) ≤ n := by exact_mod_cast Nat.log2_self_le nonzero.ne'
  have nHigh : (n : ℚ) < 2 ^ ((n.log2 : Int) + 1) := by exact_mod_cast @Nat.lt_log2_self n
  have dLow : (2 : ℚ) ^ (d.log2 : Int) ≤ d := by exact_mod_cast Nat.log2_self_le positive.ne'
  have dHigh : (d : ℚ) < 2 ^ ((d.log2 : Int) + 1) := by exact_mod_cast @Nat.lt_log2_self d
  -- The exponents of the two parts leave open which of two powers it is, and the comparison decides.
  generalize gap : (n.log2 : Int) - d.log2 = g
  have low : (2 : ℚ) ^ (g - 1) ≤ (n : ℚ) / d := by
    rw [le_div_iff₀ den]
    calc (2 : ℚ) ^ (g - 1) * d ≤ 2 ^ (g - 1) * 2 ^ ((d.log2 : Int) + 1) := by gcongr
      _ = 2 ^ (n.log2 : Int) := by rw [← zpow_add₀ two_ne_zero, ← gap]; congr 1; omega
      _ ≤ n := nLow
  have high : (n : ℚ) / d < 2 ^ (g + 1) := by
    rw [div_lt_iff₀ den]
    calc (n : ℚ) < 2 ^ ((n.log2 : Int) + 1) := nHigh
      _ = 2 ^ (g + 1) * 2 ^ (d.log2 : Int) := by rw [← zpow_add₀ two_ne_zero, ← gap]; congr 1; omega
      _ ≤ 2 ^ (g + 1) * d := by gcongr
  have compared : (rescale 2 n d g).1 < (rescale 2 n d g).2 ↔ (n : ℚ) / d < 2 ^ g := by
    have scaled : (0 : ℚ) < (rescale 2 n d g).2 := by exact_mod_cast rescale_den g (by decide) positive
    rw [← Nat.cast_lt (α := ℚ), ← div_lt_one scaled, rescale_ratio g (by decide), div_lt_one (by positivity)]
    rfl
  simp only [binaryExponent, gap, compared]
  split
  next less => exact ⟨low, by simpa using less⟩
  next more => exact ⟨not_lt.mp more, high⟩

/-- No other power of two is the greatest one within the number. -/
theorem binaryExponent_eq {n d : Nat} {t : Int} (nonzero : 0 < n) (positive : 0 < d) (low : (2 : ℚ) ^ t ≤ (n : ℚ) / d)
    (high : (n : ℚ) / d < (2 : ℚ) ^ (t + 1)) : binaryExponent n d = t := by
  obtain ⟨least, most⟩ := binaryExponent_spec nonzero positive
  have below := (zpow_lt_zpow_iff_right₀ (one_lt_two (α := ℚ))).mp (least.trans_lt high)
  have above := (zpow_lt_zpow_iff_right₀ (one_lt_two (α := ℚ))).mp (low.trans_lt most)
  omega

/-! ### Rounding -/

/-- Whether a number lies between two others, which count if the interval is closed. -/
def Within (closed : Bool) (lo x hi : ℚ) : Prop := if closed then lo ≤ x ∧ x ≤ hi else lo < x ∧ x < hi

section

variable {closed : Bool} {lo x hi : ℚ}

theorem Within.weak (h : Within closed lo x hi) : lo ≤ x ∧ x ≤ hi := by
  rw [Within] at h
  split at h
  · exact h
  · exact ⟨h.1.le, h.2.le⟩

theorem Within.strict (h : Within closed lo x hi) (open_ : closed = false) : lo < x ∧ x < hi := by
  simpa [Within, open_] using h

theorem Within.mono (h : Within closed lo x hi) {lo' hi' : ℚ} (low : lo' ≤ lo) (high : hi ≤ hi') : Within closed lo' x hi' := by
  rw [Within] at h ⊢
  split_ifs at h ⊢
  · exact ⟨low.trans h.1, h.2.trans high⟩
  · exact ⟨low.trans_lt h.1, h.2.trans_le high⟩

theorem within_mul {t : ℚ} (positive : 0 < t) : Within closed (lo * t) (x * t) (hi * t) ↔ Within closed lo x hi := by
  rw [Within, Within]
  split
  · rw [mul_le_mul_iff_left₀ positive, mul_le_mul_iff_left₀ positive]
  · rw [mul_lt_mul_iff_left₀ positive, mul_lt_mul_iff_left₀ positive]

theorem within_of_strict (low : lo < x) (high : x < hi) : Within closed lo x hi := by
  rw [Within]
  split
  · exact ⟨low.le, high.le⟩
  · exact ⟨low, high⟩

end

theorem roundDiv_of_near {a b m : Nat} (positive : 0 < b) (low : 2 * (m * b) ≤ 2 * a + b) (high : 2 * a ≤ 2 * (m * b) + b)
    (odd : m % 2 = 1 → 2 * (m * b) < 2 * a + b ∧ 2 * a < 2 * (m * b) + b) : roundDiv a b = m := by
  have whole := Nat.div_add_mod a b
  have less := Nat.mod_lt a positive
  rw [roundDiv]
  generalize a / b = q at whole ⊢
  generalize a % b = r at whole less ⊢
  subst whole
  rw [Nat.mul_comm b q] at low high odd
  have above : q ≤ m := by
    by_contra less
    have : (m + 1) * b ≤ q * b := Nat.mul_le_mul_right b (by omega)
    rw [Nat.succ_mul] at this
    omega
  have below : m ≤ q + 1 := by
    by_contra more
    have : (q + 2) * b ≤ m * b := Nat.mul_le_mul_right b (by omega)
    rw [Nat.add_mul] at this
    omega
  simp only [beq_iff_eq]
  rcases Nat.le_iff_lt_or_eq.mp above with next | rfl
  · obtain rfl : m = q + 1 := by omega
    rw [Nat.succ_mul q b] at low high odd
    split_ifs <;> omega
  · split_ifs <;> omega

/-- The nearest whole number is the one half a unit around which the fraction lies; the middle goes to the even one. -/
theorem roundDiv_eq {a b m : Nat} (positive : 0 < b) (near : Within (m % 2 == 0) (m - 1 / 2) ((a : ℚ) / b) (m + 1 / 2)) :
    roundDiv a b = m := by
  have den : (0 : ℚ) < b := by exact_mod_cast positive
  refine roundDiv_of_near positive ?_ ?_ fun odd => ?_
  · have low := (le_div_iff₀ den).mp near.weak.1
    have : (2 : ℚ) * (m * b) ≤ 2 * a + b := by linarith
    exact_mod_cast this
  · have high := (div_le_iff₀ den).mp near.weak.2
    have : (2 : ℚ) * a ≤ 2 * (m * b) + b := by linarith
    exact_mod_cast this
  · obtain ⟨low, high⟩ := near.strict (by simp [odd])
    rw [lt_div_iff₀ den] at low
    rw [div_lt_iff₀ den] at high
    have less : (2 : ℚ) * (m * b) < 2 * a + b := by linarith
    have more : (2 : ℚ) * a < 2 * (m * b) + b := by linarith
    exact ⟨by exact_mod_cast less, by exact_mod_cast more⟩

/-! ### Numbers -/

/-- The one way to write a positive number: with a mantissa that has all its digits, unless the number is too small for that. -/
structure IsNormal (m : Nat) (e : Int) : Prop where
  positive : 0 < m
  small : m < 2 ^ 53
  least : -1074 ≤ e
  most : e ≤ 971
  full : 2 ^ 52 ≤ m ∨ e = -1074

/-- How far below a number the middle between it and the one before lies, in quarters of its last place. Below a power of two the
numbers lie twice as close. -/
def quartersBelow (m : Nat) (e : Int) : Nat := if m = 2 ^ 52 ∧ -1074 < e then 1 else 2

/-- A fraction lies between the middles around a number. -/
def Rounds (m : Nat) (e : Int) (q : ℚ) : Prop :=
  Within (m % 2 == 0) (m - quartersBelow m e / 4) (q / 2 ^ e) (m + 1 / 2)

section

variable {m : Nat} {e : Int} {q : ℚ}

theorem quartersBelow_le (m : Nat) (e : Int) : quartersBelow m e ≤ 2 := by
  rw [quartersBelow]
  split <;> decide

theorem Rounds.near (h : Rounds m e q) : Within (m % 2 == 0) (m - 1 / 2) (q / 2 ^ e) (m + 1 / 2) := by
  have quarters : (quartersBelow m e : ℚ) ≤ 2 := by exact_mod_cast quartersBelow_le m e
  exact Within.mono h (by linarith) le_rfl

theorem Rounds.positive (h : Rounds m e q) (normal : IsNormal m e) : 0 < q := by
  have nonzero : (1 : ℚ) ≤ m := by exact_mod_cast normal.positive
  have scaled : 0 < q / 2 ^ e := lt_of_lt_of_le (by linarith) h.near.weak.1
  exact (div_pos_iff_of_pos_right (by positivity)).mp scaled

end

section

variable {m : Nat} {e : Int} {n d : Nat} (negative : Bool)

theorem ofMantissa_of_normal (normal : IsNormal m e) : ofMantissa negative m e = .finite negative m e := by
  have positive := normal.positive
  have small : m < Nat.pow 2 53 := normal.small
  have most := normal.most
  have single : (m == Nat.pow 2 53) = false := beq_false_of_ne small.ne
  have nonzero : (m == 0) = false := beq_false_of_ne positive.ne'
  simp only [ofMantissa, single, nonzero, Bool.false_eq_true, if_false, gt_iff_lt, not_lt.mpr most]

theorem ofMantissa_carry (most : e ≤ 970) : ofMantissa negative (2 ^ 53) e = .finite negative (2 ^ 52) (e + 1) := by
  have single : ((2 : Nat) ^ 53 == Nat.pow 2 53) = true := rfl
  have nonzero : (Nat.pow 2 52 == 0) = false := rfl
  simp only [ofMantissa, single, nonzero, Bool.false_eq_true, if_false, if_true, gt_iff_lt, not_lt.mpr (show e + 1 ≤ 971 by omega)]
  rfl

theorem ofRatio_eq (nonzero : 0 < n) (positive : 0 < d) (exponent : max (binaryExponent n d - 52) (-1074) = e)
    (near : Within (m % 2 == 0) (m - 1 / 2) ((n : ℚ) / d / 2 ^ e) (m + 1 / 2)) :
    ofRatio negative n d = ofMantissa negative m e := by
  have scaled := rescale_ratio e (show 0 < 2 by decide) n d
  rw [ofRatio, if_neg (by simpa using nonzero.ne')]
  simp only [exponent, roundDiv_eq (rescale_den e (by decide) positive) (scaled ▸ near)]

/-- A fraction of the binade below is rounded up to a power of two from the last quarter on. There the mantissas are twice as large. -/
theorem ofRatio_carry (nonzero : 0 < n) (positive : 0 < d) (least : -1074 < e) (most : e ≤ 971)
    (low : 2 ^ 52 - 1 / 4 ≤ (n : ℚ) / d / 2 ^ e) (high : (n : ℚ) / d / 2 ^ e < 2 ^ 52) :
    ofRatio negative n d = .finite negative (2 ^ 52) e := by
  have unit : (0 : ℚ) < 2 ^ e := by positivity
  have exponent : binaryExponent n d = 51 + e := by
    refine binaryExponent_eq nonzero positive ?_ ?_
    · calc (2 : ℚ) ^ (51 + e) = 2 ^ 51 * 2 ^ e := by rw [zpow_add₀ two_ne_zero]; rfl
        _ ≤ (n : ℚ) / d := (le_div_iff₀ unit).mp (by linarith)
    · calc (n : ℚ) / d < 2 ^ 52 * 2 ^ e := (div_lt_iff₀ unit).mp high
        _ = 2 ^ (51 + e + 1) := by rw [add_assoc, add_comm e, ← add_assoc, zpow_add₀ two_ne_zero]; rfl
  have double : (n : ℚ) / d / 2 ^ (e - 1) = 2 * ((n : ℚ) / d / 2 ^ e) := by
    rw [zpow_sub_one₀ two_ne_zero, div_mul_eq_div_div, div_inv_eq_mul, mul_comm]
  have near : Within (2 ^ 53 % 2 == 0) (((2 ^ 53 : Nat) : ℚ) - 1 / 2) ((n : ℚ) / d / 2 ^ (e - 1)) ((2 ^ 53 : Nat) + 1 / 2) := by
    rw [double]
    push_cast
    exact ⟨by linarith, by linarith⟩
  rw [ofRatio_eq negative nonzero positive (by rw [exponent]; omega) near, ofMantissa_carry negative (by omega), sub_add_cancel]

/-- **Rounding.** A fraction between the middles around a number is rounded to that number. -/
theorem ofRatio_of_rounds (positive : 0 < d) (normal : IsNormal m e) (rounds : Rounds m e ((n : ℚ) / d)) :
    ofRatio negative n d = .finite negative m e := by
  have nonzero : 0 < n := by
    have ratio := rounds.positive normal
    by_contra zero
    obtain rfl : n = 0 := by omega
    simp at ratio
  have unit : (0 : ℚ) < 2 ^ e := by positivity
  have least := normal.least
  -- In units of the last place, the fraction is below the mantissas that have one digit too many.
  have high : (n : ℚ) / d / 2 ^ e < 2 ^ 53 := by
    have small : (m : ℚ) + 1 ≤ 2 ^ 53 := by exact_mod_cast normal.small
    linarith [rounds.near.weak.2]
  have binade (k : Nat) : (2 : ℚ) ^ (k + e) = 2 ^ k * 2 ^ e := by rw [zpow_add₀ two_ne_zero, zpow_natCast]
  by_cases low : (2 : ℚ) ^ 52 ≤ (n : ℚ) / d / 2 ^ e
  · have exponent : binaryExponent n d = (52 : Nat) + e := by
      refine binaryExponent_eq nonzero positive ?_ ?_
      · rw [binade]
        exact (le_div_iff₀ unit).mp low
      · rw [show (52 : Nat) + e + 1 = (53 : Nat) + e by omega, binade]
        exact (div_lt_iff₀ unit).mp high
    rw [ofRatio_eq negative nonzero positive (by rw [exponent]; omega) rounds.near, ofMantissa_of_normal negative normal]
  · have less : (n : ℚ) / d / 2 ^ e < 2 ^ 52 := not_le.mp low
    by_cases tiny : e = -1074
    · have exponent : binaryExponent n d < (52 : Nat) + e := by
        refine (zpow_lt_zpow_iff_right₀ (one_lt_two (α := ℚ))).mp ((binaryExponent_spec nonzero positive).1.trans_lt ?_)
        rw [binade]
        exact (div_lt_iff₀ unit).mp less
      rw [ofRatio_eq negative nonzero positive (by omega) rounds.near, ofMantissa_of_normal negative normal]
    · -- Only the interval of a power of two goes on into the binade below.
      have power : m = 2 ^ 52 := by
        refine le_antisymm (not_lt.mp fun more => ?_) (normal.full.resolve_right tiny)
        have more : (2 : ℚ) ^ 52 + 1 ≤ m := by exact_mod_cast more
        linarith [rounds.near.weak.1]
      subst power
      have quarter : quartersBelow (2 ^ 52) e = 1 := if_pos ⟨rfl, by omega⟩
      have low := (Within.weak rounds).1
      rw [quarter] at low
      exact ofRatio_carry negative nonzero positive (by omega) normal.most (by push_cast at low; exact low) less

theorem ten_pow_lt : (10 : ℚ) ^ (-330 : Int) < 2 ^ (-1075 : Int) := by
  have powers : (2 : Nat) ^ 1075 < 10 ^ 330 := by decide +kernel
  rw [zpow_neg, zpow_neg, inv_lt_inv₀ (by positivity) (by positivity)]
  exact_mod_cast powers

theorem lt_ten_pow : (2 : ℚ) ^ (1024 : Int) < 10 ^ (309 : Int) := by
  have powers : (2 : Nat) ^ 1024 < 10 ^ 309 := by decide +kernel
  exact_mod_cast powers

/-- What is rounded to a number is neither too great nor too small to be one. -/
theorem Rounds.bounds {q : ℚ} (rounds : Rounds m e q) (normal : IsNormal m e) : (10 : ℚ) ^ (-330 : Int) < q ∧ q < 10 ^ (309 : Int) := by
  have unit : (0 : ℚ) < 2 ^ e := by positivity
  have nonzero : (1 : ℚ) ≤ m := by exact_mod_cast normal.positive
  have small : (m : ℚ) + 1 ≤ 2 ^ 53 := by exact_mod_cast normal.small
  have least := normal.least
  have most := normal.most
  obtain ⟨low, high⟩ := rounds.near.weak
  rw [le_div_iff₀ unit] at low
  rw [div_le_iff₀ unit] at high
  constructor
  · calc (10 : ℚ) ^ (-330 : Int) < 2 ^ (-1075 : Int) := ten_pow_lt
      _ ≤ 2 ^ (-1 + e) := zpow_le_zpow_right₀ one_le_two (by omega)
      _ = 2⁻¹ * 2 ^ e := by rw [zpow_add₀ two_ne_zero, zpow_neg_one]
      _ ≤ (m - 1 / 2) * 2 ^ e := by gcongr; linarith
      _ ≤ q := low
  · calc q ≤ (m + 1 / 2) * 2 ^ e := high
      _ ≤ 2 ^ 53 * 2 ^ e := by gcongr; linarith
      _ = 2 ^ (53 + e) := by rw [zpow_add₀ two_ne_zero]; rfl
      _ ≤ 2 ^ (1024 : Int) := zpow_le_zpow_right₀ one_le_two (by omega)
      _ < 10 ^ (309 : Int) := lt_ten_pow

theorem length_bounds {n : Nat} (nonzero : n ≠ 0) :
    10 ^ ((Nat.toDigits 10 n).length - 1) ≤ n ∧ n < 10 ^ (Nat.toDigits 10 n).length := by
  have size : 0 < (Nat.toDigits 10 n).length := Nat.length_toDigits_pos
  refine ⟨?_, (Nat.length_toDigits_le_iff (by decide) size).mp le_rfl⟩
  rcases Nat.eq_zero_or_pos ((Nat.toDigits 10 n).length - 1) with one | more
  · rw [one]
    omega
  · by_contra less
    have := (Nat.length_toDigits_le_iff (by decide) more).mpr (not_le.mp less)
    omega

/-- The same of a decimal, however its digits and its exponent are chosen. -/
theorem ofDecimal_of_rounds {digits : Nat} {k : Int} (normal : IsNormal m e) (rounds : Rounds m e (digits * 10 ^ k)) :
    ofDecimal negative digits k = .finite negative m e := by
  have positive := rounds.positive normal
  have nonzero : digits ≠ 0 := by
    rintro rfl
    simp at positive
  obtain ⟨low, high⟩ := rounds.bounds normal
  have length : (toString digits).length = (Nat.toDigits 10 digits).length := by
    rw [← String.length_toList, toList_toString]
  obtain ⟨least, most⟩ := length_bounds nonzero
  rw [← length] at least most
  generalize size : (toString digits).length = s at length least most
  have some_size : 0 < s := length ▸ Nat.length_toDigits_pos
  have atLeast : (10 : ℚ) ^ ((s - 1 : Nat) + k) ≤ digits * 10 ^ k := by
    rw [zpow_add₀ (by norm_num), zpow_natCast]
    gcongr
    exact_mod_cast least
  have below : (digits : ℚ) * 10 ^ k < 10 ^ (s + k) := by
    rw [zpow_add₀ (by norm_num), zpow_natCast]
    gcongr
    exact_mod_cast most
  have ten : (1 : ℚ) < 10 := by norm_num
  have notSmall : ¬ k + s < -330 := by
    have := (zpow_lt_zpow_iff_right₀ ten).mp (low.trans below)
    omega
  have notGreat : ¬ k + s > 310 := by
    have := (zpow_lt_zpow_iff_right₀ ten).mp (atLeast.trans_lt high)
    omega
  have ratio : ((rescale 10 digits 1 (-k)).1 : ℚ) / (rescale 10 digits 1 (-k)).2 = digits * 10 ^ k := by
    rw [rescale_ratio (-k) (by decide)]
    simp [zpow_neg]
  simp only [ofDecimal, size, beq_false_of_ne nonzero, notSmall, notGreat, decide_false, Bool.or_self, Bool.false_eq_true, if_false]
  exact ofRatio_of_rounds negative (rescale_den (-k) (by decide) (by decide)) normal (ratio ▸ rounds)

end

end Remedy.Json.Binary64
