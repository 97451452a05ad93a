import Mathlib.Algebra.Ring.Nat
import Mathlib.Data.List.Induction
import Remedy.Json.Reader
import Remedy.Proofs.Text.Runs

/-!
Numbers as they may be written, and what is read of them: all of the number and nothing behind it, unless what follows could go on
with it.
-/

namespace Remedy.Json

/-! ### Digits -/

theorem digitsValue_eq (ds : List Char) : digitsValue ds = Nat.ofDigitChars 10 ds 0 := by
  rw [digitsValue, Nat.ofDigitChars_eq_foldl]
  simp only [Nat.mul_comm 10]
  rfl

theorem digitsValue_toDigits (n : Nat) : digitsValue (Nat.toDigits 10 n) = n := by
  rw [digitsValue_eq, Nat.ofDigitChars_ten_toDigits]

theorem digitsValue_append (xs ys : List Char) :
    digitsValue (xs ++ ys) = 10 ^ ys.length * digitsValue xs + digitsValue ys := by
  rw [digitsValue_eq, Nat.ofDigitChars_append, Nat.ofDigitChars_eq_ofDigitChars_zero, digitsValue_eq, digitsValue_eq]

theorem digitsValue_zeros (n : Nat) : digitsValue (List.replicate n '0') = 0 := by
  rw [digitsValue_eq, Nat.ofDigitChars_replicate_zero, Nat.mul_zero]

theorem digitsValue_lt {ds : List Char} (all : ∀ c ∈ ds, c.isDigit = true) : digitsValue ds < 10 ^ ds.length := by
  induction ds using List.reverseRecOn with
  | nil => decide
  | append_singleton ds c told =>
    have digit : digitsValue [c] < 10 := by
      have bounds := all c (List.mem_append_right ds List.mem_cons_self)
      simp only [Char.isDigit, Bool.and_eq_true, decide_eq_true_eq] at bounds
      have high : c.toNat ≤ 57 := bounds.2
      simp only [digitsValue, List.foldl_cons, List.foldl_nil]
      omega
    have before := told fun c member => all c (List.mem_append_left _ member)
    rw [digitsValue_append, List.length_append, List.length_singleton, Nat.pow_add, Nat.pow_one]
    omega

/-- No digit follows a zero at the beginning of a number. -/
theorem lead_toDigits {n : Nat} {more : List Char} (zero : Nat.toDigits 10 n = '0' :: more) : more = [] := by
  by_contra nonempty
  have size := List.length_pos_of_ne_nil nonempty
  -- Without the zero the digits would be too few for the number.
  have value : digitsValue more = n := by
    rw [← digitsValue_toDigits n, zero]
    rfl
  have all (c : Char) (member : c ∈ more) : c.isDigit = true :=
    isDigit_of_mem_toDigits (n := n) (zero ▸ List.mem_cons_of_mem _ member)
  have short := (Nat.length_toDigits_le_iff (by decide) size).mpr (value ▸ digitsValue_lt all)
  rw [zero, List.length_cons] at short
  omega

/-- A number without its sign: digits, behind a point more of them, and a power of ten. The last two may be left out. -/
structure Numeral where
  whole : List Char
  fraction : List Char
  /-- Whether the power is one below zero, and its digits. -/
  power : Option (Bool × List Char)

namespace Numeral

/-- The numeral of a whole number. -/
def ofNat (n : Nat) : Numeral := ⟨Nat.toDigits 10 n, [], none⟩

def fractionText (n : Numeral) : List Char := if n.fraction.isEmpty then [] else '.' :: n.fraction

def powerText (n : Numeral) : List Char :=
  match n.power with
  | some (minus, digits) => 'e' :: (if minus then '-' else '+') :: digits
  | none => []

def text (n : Numeral) : List Char := n.whole ++ (n.fractionText ++ n.powerText)

/-- A numeral that is a number of JSON. -/
structure Valid (n : Numeral) : Prop where
  nonempty : n.whole ≠ []
  whole : ∀ c ∈ n.whole, c.isDigit = true
  /-- No digit follows a zero at the beginning. -/
  lead : ∀ more, n.whole = '0' :: more → more = []
  fraction : ∀ c ∈ n.fraction, c.isDigit = true
  power : ∀ minus digits, n.power = some (minus, digits) → digits ≠ [] ∧ ∀ c ∈ digits, c.isDigit = true

/-- The digits before and behind the point, as one number. -/
def digits (n : Numeral) : Nat := digitsValue (n.whole ++ n.fraction)

/-- The power that is written, if any is. -/
def powerValue (n : Numeral) : Int :=
  match n.power with
  | some (minus, digits) => if minus then -(digitsValue digits : Int) else digitsValue digits
  | none => 0

/-- The power of ten that the digits are to be taken by. -/
def exponent (n : Numeral) : Int := n.powerValue - n.fraction.length

/-- What the numeral stands for behind a sign or without one. -/
def value (n : Numeral) (negative : Bool) : Json :=
  if n.fraction.isEmpty && n.power.isNone then .int (if negative then -(digitsValue n.whole : Int) else digitsValue n.whole)
  else .real (.ofDecimal negative n.digits n.exponent)

end Numeral

/-- Characters that a number may go on with. -/
def isNumberPart (c : Char) : Bool := c.isDigit || c == '.' || c == 'e' || c == 'E'

section

variable {rest : List Char}

theorem ends_digit (ends : Ends isNumberPart rest) : Ends Char.isDigit rest := by
  intro c first
  have other := ends c first
  simp only [isNumberPart, Bool.or_eq_false_iff] at other
  exact other.1.1.1

theorem readWhole_append {whole : List Char} (digits : ∀ c ∈ whole, c.isDigit = true)
    (lead : ∀ more, whole = '0' :: more → more = []) (ends : Ends Char.isDigit rest) :
    readWhole (whole ++ rest) = (whole, rest) := by
  rw [readWhole, takeWhile_ends digits ends]
  split
  next more =>
    obtain rfl := lead more rfl
    rfl
  next => rw [List.drop_left]

theorem readFraction_append {fraction : List Char} (nonempty : fraction ≠ []) (digits : ∀ c ∈ fraction, c.isDigit = true)
    (ends : Ends Char.isDigit rest) : readFraction ('.' :: (fraction ++ rest)) = (fraction, rest) := by
  rw [readFraction, takeWhile_ends digits ends, List.drop_left]
  simp only [List.isEmpty_eq_false_iff.mpr nonempty, Bool.false_eq_true, if_false]

theorem readFraction_none (point : rest.head? ≠ some '.') : readFraction rest = ([], rest) := by
  rw [readFraction.eq_def]
  split
  · exact absurd rfl point
  · rfl

theorem readPower_append (minus : Bool) {digits : List Char} (nonempty : digits ≠ []) (all : ∀ c ∈ digits, c.isDigit = true)
    (ends : Ends Char.isDigit rest) :
    readPower ('e' :: (if minus then '-' else '+') :: (digits ++ rest)) =
      (some (if minus then -(digitsValue digits : Int) else digitsValue digits), rest) := by
  cases minus <;>
    simp [readPower, takeWhile_ends all ends, nonempty]

theorem readPower_none (ends : Ends isNumberPart rest) : readPower rest = (none, rest) := by
  rw [readPower.eq_def]
  cases rest with
  | nil => rfl
  | cons c more =>
    have other := ends c rfl
    simp only [isNumberPart, Bool.or_eq_false_iff] at other
    simp only [other, Bool.or_self, Bool.false_eq_true, if_false]

end

namespace Numeral

variable {n : Numeral} {rest : List Char}

theorem readPower_powerText (valid : n.Valid) (ends : Ends isNumberPart rest) :
    readPower (n.powerText ++ rest) =
      (n.power.map fun (minus, digits) => if minus then -(digitsValue digits : Int) else digitsValue digits, rest) := by
  rw [powerText]
  cases power : n.power with
  | none => exact readPower_none ends
  | some signed =>
    obtain ⟨nonempty, all⟩ := valid.power signed.1 signed.2 power
    exact readPower_append signed.1 nonempty all (ends_digit ends)

theorem ends_powerText (ends : Ends isNumberPart rest) :
    Ends Char.isDigit (n.powerText ++ rest) ∧ (n.powerText ++ rest).head? ≠ some '.' := by
  rw [powerText]
  cases n.power with
  | none => exact ⟨ends_digit ends, fun point => absurd (ends '.' point) (by decide)⟩
  | some _ => exact ⟨ends_cons (by decide), by simp⟩

theorem readFraction_fractionText (valid : n.Valid) (ends : Ends isNumberPart rest) :
    readFraction (n.fractionText ++ (n.powerText ++ rest)) = (n.fraction, n.powerText ++ rest) := by
  obtain ⟨digit, point⟩ := ends_powerText ends (n := n)
  rw [fractionText]
  split
  next empty =>
    rw [List.isEmpty_iff.mp empty]
    exact readFraction_none point
  next nonempty => exact readFraction_append (fun nothing => nonempty (by rw [nothing]; rfl)) valid.fraction digit

/-- **A numeral is read as what it stands for**, and nothing behind it. -/
theorem readNumber_text (valid : n.Valid) (ends : Ends isNumberPart rest) (negative : Bool) :
    readNumber negative (n.text ++ rest) = some (n.value negative, rest) := by
  have behind : Ends Char.isDigit (n.fractionText ++ (n.powerText ++ rest)) := by
    rw [fractionText]
    split
    · exact (ends_powerText ends).1
    · exact ends_cons (by decide)
  rw [text, List.append_assoc, List.append_assoc, readNumber, readWhole_append valid.whole valid.lead behind]
  simp only [List.isEmpty_eq_false_iff.mpr valid.nonempty, Bool.false_eq_true, if_false, readFraction_fractionText valid ends,
    readPower_powerText valid ends, Option.isNone_map, value]
  split
  · rfl
  · rw [digits, exponent, powerValue]
    cases n.power <;> rfl

/-! ### Whole numbers -/

theorem valid_ofNat (n : Nat) : (ofNat n).Valid where
  nonempty := Nat.toDigits_ne_nil
  whole _ member := isDigit_of_mem_toDigits member
  lead _ zero := lead_toDigits zero
  fraction := nofun
  power := nofun

end Numeral

end Remedy.Json
