import Remedy.Json.Writer
import Remedy.Proofs.Json.Numerals
import Remedy.Proofs.Json.Shortest

/-!
Real numbers are read back from what they are written as.

A positive number is written with the digits of its shortest decimal, in one of four forms. All of them are numerals, and what
they spell is that decimal, which is rounded to the number.
-/

namespace Remedy.Json

open Binary64

namespace Numeral

/-- A numeral of a real number, with the value that it spells out. -/
structure Spells (n : Numeral) (q : ℚ) : Prop where
  valid : n.Valid
  real : (n.fraction.isEmpty && n.power.isNone) = false
  value : (n.digits : ℚ) * 10 ^ n.exponent = q

theorem Spells.value_eq {n : Numeral} {q : ℚ} (spells : n.Spells q) {m : Nat} {e : Int} (normal : IsNormal m e)
    (rounds : Rounds m e q) (negative : Bool) : n.value negative = .real (.finite negative m e) := by
  rw [Numeral.value, spells.real, if_neg Bool.false_ne_true, ofDecimal_of_rounds negative normal (spells.value ▸ rounds)]

end Numeral

/-! ### The four forms -/

section

variable {ds : List Char} {point : Int}

theorem ten_zpow_add (a b : Int) : (10 : ℚ) ^ (a + b) = 10 ^ a * 10 ^ b := zpow_add₀ (by norm_num) a b

theorem isDigit_of_mem_zeros {n : Nat} {c : Char} (member : c ∈ List.replicate n '0') : c.isDigit = true := by
  rw [List.eq_of_mem_replicate member]
  rfl

/-- No digit stands before the point but a zero. -/
theorem spells_below (nonempty : ds ≠ []) (all : ∀ c ∈ ds, c.isDigit = true) {zeros : Nat} (place : point = -zeros) :
    (Numeral.mk ['0'] (List.replicate zeros '0' ++ ds) none).Spells (digitsValue ds * 10 ^ (point - ds.length)) where
  valid :=
    { nonempty := by simp
      whole := fun _ => isDigit_of_mem_zeros (n := 1)
      lead := fun more same => (List.cons.inj same).2.symm
      fraction := fun c member => (List.mem_append.mp member).elim isDigit_of_mem_zeros (all c)
      power := nofun }
  real := by simp [nonempty]
  value := by
    have digits : digitsValue (['0'] ++ (List.replicate zeros '0' ++ ds)) = digitsValue ds := by
      rw [digitsValue_append, digitsValue_append, digitsValue_zeros]
      simp [digitsValue]
    simp only [Numeral.digits, Numeral.exponent, Numeral.powerValue, digits, List.length_append, List.length_replicate]
    congr 2
    push_cast
    omega

/-- All digits stand before the point, with zeros behind them. -/
theorem spells_whole (nonempty : ds ≠ []) (all : ∀ c ∈ ds, c.isDigit = true) (lead : ∀ more, ds ≠ '0' :: more) {zeros : Nat}
    (place : point = ds.length + zeros) :
    (Numeral.mk (ds ++ List.replicate zeros '0') ['0'] none).Spells (digitsValue ds * 10 ^ (point - ds.length)) where
  valid :=
    { nonempty := by simp [nonempty]
      whole := fun c member => (List.mem_append.mp member).elim (all c) isDigit_of_mem_zeros
      lead := fun more same => by
        obtain ⟨c, rest, rfl⟩ := List.exists_cons_of_ne_nil nonempty
        exact absurd ((List.cons.inj same).1 ▸ rfl) (lead rest)
      fraction := fun _ => isDigit_of_mem_zeros (n := 1)
      power := nofun }
  real := rfl
  value := by
    have digits : (Numeral.mk (ds ++ List.replicate zeros '0') ['0'] none).digits = digitsValue ds * 10 ^ (zeros + 1) := by
      change digitsValue (ds ++ List.replicate zeros '0' ++ List.replicate 1 '0') = _
      rw [List.append_assoc, List.replicate_append_replicate, digitsValue_append, digitsValue_zeros, List.length_replicate,
        Nat.mul_comm, Nat.add_zero]
    have exponent : (Numeral.mk (ds ++ List.replicate zeros '0') ['0'] none).exponent = -1 := rfl
    rw [digits, exponent, show point - ds.length = ((zeros + 1 : Nat) : Int) + -1 by omega, ten_zpow_add, zpow_natCast, ← mul_assoc]
    push_cast
    rfl

/-- The point stands behind the first digits, and a power of ten may follow. -/
theorem spells_split (all : ∀ c ∈ ds, c.isDigit = true) (lead : ∀ more, ds ≠ '0' :: more) {before : Nat} (nonzero : 0 < before)
    (within : before ≤ ds.length) {p : Option (Bool × List Char)}
    (digits : ∀ minus ps, p = some (minus, ps) → ps ≠ [] ∧ ∀ c ∈ ps, c.isDigit = true) (real : before < ds.length ∨ p ≠ none)
    (place : point = before + (Numeral.mk (ds.take before) (ds.drop before) p).powerValue) :
    (Numeral.mk (ds.take before) (ds.drop before) p).Spells (digitsValue ds * 10 ^ (point - ds.length)) where
  valid :=
    { nonempty := by
        rw [← List.length_pos_iff, List.length_take]
        omega
      whole := fun c member => all c (List.mem_of_mem_take member)
      lead := fun more same => by
        have same : ds.take before = '0' :: more := same
        have whole := List.take_append_drop before ds
        rw [same] at whole
        exact absurd whole.symm (lead _)
      fraction := fun c member => all c (List.mem_of_mem_drop member)
      power := digits }
  real := by
    rcases real with less | given
    · simp [less]
    · cases p with
      | none => exact absurd rfl given
      | some _ => simp
  value := by
    simp only [Numeral.digits, Numeral.exponent, List.take_append_drop, List.length_drop]
    congr 2
    omega

/-- The digits of a power, of which there are at least two. -/
def powerDigits (x : Nat) : List Char := if (Nat.toDigits 10 x).length < 2 then '0' :: Nat.toDigits 10 x else Nat.toDigits 10 x

theorem powerDigits_ne_nil (x : Nat) : powerDigits x ≠ [] := by
  rw [powerDigits]
  split
  · exact List.cons_ne_nil _ _
  · exact Nat.toDigits_ne_nil

theorem isDigit_of_mem_powerDigits {x : Nat} {c : Char} (member : c ∈ powerDigits x) : c.isDigit = true := by
  rw [powerDigits] at member
  split at member
  · rcases List.mem_cons.mp member with rfl | digit
    · rfl
    · exact isDigit_of_mem_toDigits digit
  · exact isDigit_of_mem_toDigits member

theorem digitsValue_powerDigits (x : Nat) : digitsValue (powerDigits x) = x := by
  rw [powerDigits]
  split
  · exact digitsValue_toDigits x
  · exact digitsValue_toDigits x

/-- Digits with a point at any place are written as a numeral. -/
theorem exists_spells (nonempty : ds ≠ []) (all : ∀ c ∈ ds, c.isDigit = true) (lead : ∀ more, ds ≠ '0' :: more) (point : Int) :
    ∃ n : Numeral, n.text = digitsText ds point ∧ n.Spells (digitsValue ds * 10 ^ (point - ds.length)) := by
  have size := List.length_pos_of_ne_nil nonempty
  rw [digitsText]
  -- Without a power there are three places for the point: before the digits, behind them and among them.
  by_cases positional : (decide (-4 < point) && decide (point ≤ 16)) = true
  · simp only [positional, if_true]
    split_ifs with below whole
    · exact ⟨_, by simp [Numeral.text, Numeral.fractionText, Numeral.powerText, nonempty],
        spells_below nonempty all (show point = -((-point).toNat : Int) by omega)⟩
    · exact ⟨_, by simp [Numeral.text, Numeral.fractionText, Numeral.powerText],
        spells_whole nonempty all lead (show point = ds.length + ((point - ds.length).toNat : Int) by omega)⟩
    · have less : point.toNat < ds.length := by omega
      have noPower : (Numeral.mk (ds.take point.toNat) (ds.drop point.toNat) none).powerValue = 0 := rfl
      have without (minus : Bool) (ps : List Char) (given : none = some (minus, ps)) : ps ≠ [] ∧ ∀ c ∈ ps, c.isDigit = true := by
        cases given
      refine ⟨_, ?_, spells_split all lead (show 0 < point.toNat by omega) less.le without (Or.inl less) (by rw [noPower]; omega)⟩
      simp [Numeral.text, Numeral.fractionText, Numeral.powerText, less]
  · have power : (Numeral.mk (ds.take 1) (ds.drop 1) (some (decide (point - 1 < 0), powerDigits (point - 1).natAbs))).powerValue =
        point - 1 := by
      simp only [Numeral.powerValue, digitsValue_powerDigits, decide_eq_true_eq]
      split <;> omega
    refine ⟨_, ?_, spells_split all lead Nat.one_pos size (p := some (_, _)) ?_ (Or.inr (Option.some_ne_none _))
      (by rw [power]; omega)⟩
    · have fraction : (if ds.length > 1 then '.' :: ds.drop 1 else []) = if (ds.drop 1).isEmpty then [] else '.' :: ds.drop 1 := by
        have single : (ds.drop 1).isEmpty = true ↔ ¬ ds.length > 1 := by
          rw [List.isEmpty_iff, List.drop_eq_nil_iff]
          omega
        by_cases more : ds.length > 1
        · rw [if_pos more, if_neg fun empty => single.mp empty more]
        · rw [if_neg more, if_pos (single.mpr more)]
      simp only [positional, Bool.false_eq_true, if_false, fraction, toList_toString, Numeral.text, Numeral.fractionText,
        Numeral.powerText, powerDigits, decide_eq_true_eq]
    · rintro _ _ ⟨⟩
      exact ⟨powerDigits_ne_nil _, fun _ => isDigit_of_mem_powerDigits⟩

end

/-! ### Positive numbers -/

theorem dropZeros_spec (fuel : Nat) (ds : List Char) :
    ds = List.replicate (dropZeros fuel ds).2 '0' ++ (dropZeros fuel ds).1 ∧ (ds ≠ [] → (dropZeros fuel ds).1 ≠ []) := by
  fun_induction dropZeros fuel ds with
  | case3 fuel rest more out n equal told =>
    rw [equal] at told
    exact ⟨congrArg ('0' :: ·) told.1, fun _ => told.2 (by simpa using more)⟩
  | _ => exact ⟨rfl, id⟩

section

variable {m : Nat} {e : Int}

/-- A positive number is written as a numeral that is rounded to it. -/
theorem exists_shortestText (normal : IsNormal m e) :
    ∃ (n : Numeral) (q : ℚ), n.text = shortestText m e ∧ n.Spells q ∧ Rounds m e q := by
  have rounds := rounds_shortest normal
  rw [shortestText]
  generalize shortest m e = decimal at rounds ⊢
  obtain ⟨digits, k⟩ := decimal
  obtain ⟨whole, nonempty⟩ := dropZeros_spec 20 (Nat.toDigits 10 digits).reverse
  simp only [toList_toString]
  generalize dropZeros 20 (Nat.toDigits 10 digits).reverse = split at whole nonempty ⊢
  obtain ⟨kept, dropped⟩ := split
  have whole : Nat.toDigits 10 digits = kept.reverse ++ List.replicate dropped '0' := by
    rw [← List.reverse_reverse (Nat.toDigits 10 digits), whole, List.reverse_append, List.reverse_replicate]
  have nonempty : kept.reverse ≠ [] := by simpa using nonempty (by simp [Nat.toDigits_ne_nil])
  have all (c : Char) (member : c ∈ kept.reverse) : c.isDigit = true :=
    isDigit_of_mem_toDigits (n := digits) (whole ▸ List.mem_append_left _ member)
  have value : digits = digitsValue kept.reverse * 10 ^ dropped := by
    rw [← digitsValue_toDigits digits, whole, digitsValue_append, digitsValue_zeros, List.length_replicate, Nat.mul_comm, Nat.add_zero]
  have lead (more : List Char) (zero : kept.reverse = '0' :: more) : False := by
    -- Only zero begins with one, and it is not rounded to a positive number.
    rw [zero, List.cons_append] at whole
    have single := lead_toDigits whole
    have noDigits : digits = 0 := by
      rw [← digitsValue_toDigits digits, whole, single]
      rfl
    have positive := rounds.positive normal
    simp [noDigits] at positive
  obtain ⟨n, text, spells⟩ := exists_spells nonempty all (fun more zero => lead more zero) (kept.length + (k + dropped))
  refine ⟨n, _, text, spells, ?_⟩
  rw [List.length_reverse, show (kept.length : Int) + (k + dropped) - kept.length = dropped + k by omega, ten_zpow_add, ← mul_assoc]
  have value : (digits : ℚ) = digitsValue kept.reverse * 10 ^ dropped := by exact_mod_cast value
  rw [zpow_natCast, ← value]
  exact rounds

end

/-! ### All numbers -/

/-- A real number as programs have it: every number has one form, and so has zero with each sign. -/
def Binary64.Canonical : Binary64 → Prop
  | .finite _ m e => m = 0 ∧ e = 0 ∨ IsNormal m e
  | _ => True

/-- What stands before a number. -/
def signText (negative : Bool) : List Char := if negative then ['-'] else []

/-- **A number is written as a numeral that stands for it.** -/
theorem exists_numeral {negative : Bool} {m : Nat} {e : Int} (canonical : (Binary64.finite negative m e).Canonical) :
    ∃ n : Numeral, (realText (.finite negative m e)).toList = signText negative ++ n.text ∧ n.Valid ∧
      n.value negative = .real (.finite negative m e) := by
  have sign : (if negative then "-" else "").toList = signText negative := by cases negative <;> rfl
  rcases canonical with ⟨rfl, rfl⟩ | normal
  · have zero (c : Char) (member : c ∈ ['0']) : c.isDigit = true := isDigit_of_mem_zeros (n := 1) member
    refine ⟨⟨['0'], ['0'], none⟩, ?_, ⟨nofun, zero, fun _ same => (List.cons.inj same).2.symm, zero, nofun⟩, ?_⟩
    · cases negative <;> rfl
    · cases negative <;> rfl
  · obtain ⟨n, q, text, spells, rounds⟩ := exists_shortestText normal
    refine ⟨n, ?_, spells.valid, spells.value_eq normal rounds negative⟩
    have nonzero : (m == 0) = false := beq_false_of_ne normal.positive.ne'
    simp only [realText, Binary64.text, nonzero, Bool.false_eq_true, if_false, String.toList_append, sign, String.toList_ofList, text]

end Remedy.Json
