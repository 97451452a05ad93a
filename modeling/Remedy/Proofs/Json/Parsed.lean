import Remedy.Proofs.Json.RoundTrip

/-!
What is parsed is proper: of a key that comes twice the last value counts, and numbers are rounded to their one form. So all that is
said of proper values is said of what texts hold.
-/

namespace Remedy.Json

namespace Binary64

/-! ### Numbers -/

section

variable {a b k : Nat}

theorem le_roundDiv (positive : 0 < b) (least : k * b ≤ a) : k ≤ roundDiv a b := by
  have whole := (Nat.le_div_iff_mul_le positive).mpr least
  simp only [roundDiv]
  split_ifs <;> omega

theorem roundDiv_le (positive : 0 < b) (most : a ≤ k * b) : roundDiv a b ≤ k := by
  have whole : a / b ≤ k := Nat.div_le_of_le_mul (by rwa [Nat.mul_comm] at most)
  have exact_ : a / b = k → a % b = 0 := by
    rintro rfl
    have := Nat.div_add_mod a b
    rw [Nat.mul_comm] at this
    omega
  simp only [roundDiv]
  split_ifs <;> omega

end

section

variable (negative : Bool)

theorem canonical_ofMantissa {m : Nat} {e : Int} (small : m ≤ 2 ^ 53) (least : -1074 ≤ e) (full : 2 ^ 52 ≤ m ∨ e = -1074) :
    (ofMantissa negative m e).Canonical := by
  have normal {m : Nat} {e : Int} (nonzero : m ≠ 0) (small : m < 2 ^ 53) (least : -1074 ≤ e) (full : 2 ^ 52 ≤ m ∨ e = -1074) :
      (if m == 0 then zero negative else if e > 971 then .infinite negative else .finite negative m e).Canonical := by
    rw [if_neg (by simpa using nonzero)]
    split
    · trivial
    next most => exact Or.inr ⟨Nat.pos_of_ne_zero nonzero, small, least, not_lt.mp most, full⟩
  rw [ofMantissa]
  by_cases carry : m = Nat.pow 2 53
  · simp only [carry, beq_self_eq_true, if_true]
    exact normal (by decide) (by decide) (by omega) (Or.inl le_rfl)
  · simp only [beq_false_of_ne carry, Bool.false_eq_true, if_false]
    by_cases zero : m = 0
    · rw [if_pos (by simpa using zero)]
      exact Or.inl ⟨rfl, rfl⟩
    · exact normal zero (lt_of_le_of_ne small carry) least full

/-- What is rounded has all the digits that its exponent leaves room for. -/
theorem canonical_ofRatio {n d : Nat} (positive : 0 < d) : (ofRatio negative n d).Canonical := by
  rw [ofRatio]
  split
  · exact Or.inl ⟨rfl, rfl⟩
  next nonzero =>
    have nonzero : 0 < n := Nat.pos_of_ne_zero (by simpa using nonzero)
    obtain ⟨least, most⟩ := binaryExponent_spec nonzero positive
    generalize exponent : max (binaryExponent n d - 52) (-1074) = e
    have scaled : ((rescale 2 n d e).1 : ℚ) / (rescale 2 n d e).2 = n / d / 2 ^ e := by
      exact_mod_cast rescale_ratio e (show 0 < 2 by decide) n d
    have den : 0 < (rescale 2 n d e).2 := rescale_den e (by decide) positive
    change (ofMantissa negative (roundDiv (rescale 2 n d e).1 (rescale 2 n d e).2) e).Canonical
    generalize rescale 2 n d e = fraction at scaled den ⊢
    obtain ⟨a, b⟩ := fraction
    simp only at scaled den
    have den' : (0 : ℚ) < b := by exact_mod_cast den
    have unit : (0 : ℚ) < 2 ^ e := by positivity
    have binade (k : Nat) : (2 : ℚ) ^ (k + e) = 2 ^ k * 2 ^ e := by rw [zpow_add₀ two_ne_zero, zpow_natCast]
    -- In units of the last place the fraction has 53 digits before the point, unless the exponent is the least there is.
    have small : a ≤ 2 ^ 53 * b := by
      have bound : (n : ℚ) / d / 2 ^ e ≤ 2 ^ 53 := by
        rw [div_le_iff₀ unit, ← binade]
        exact most.le.trans (zpow_le_zpow_right₀ one_le_two (by omega))
      rw [← scaled, div_le_iff₀ den'] at bound
      exact_mod_cast bound
    have full : 2 ^ 52 * b ≤ a ∨ e = -1074 := by
      refine or_iff_not_imp_right.mpr fun tiny => ?_
      have bound : (2 : ℚ) ^ 52 ≤ (n : ℚ) / d / 2 ^ e := by
        rw [le_div_iff₀ unit, ← binade]
        exact (zpow_le_zpow_right₀ one_le_two (by omega)).trans least
      rw [← scaled, le_div_iff₀ den'] at bound
      exact_mod_cast bound
    exact canonical_ofMantissa negative (roundDiv_le den small) (by omega) (full.imp_left (le_roundDiv den))

theorem canonical_ofDecimal (digits : Nat) (exponent : Int) : (ofDecimal negative digits exponent).Canonical := by
  simp only [ofDecimal]
  split_ifs
  · exact Or.inl ⟨rfl, rfl⟩
  · trivial
  · exact canonical_ofRatio negative (rescale_den _ (by decide) (by decide))

end

end Binary64

theorem proper_of_readNumber {negative : Bool} {cs rest : List Char} {v : Json} (read : readNumber negative cs = some (v, rest)) :
    v.Proper := by
  simp only [readNumber, Option.ite_none_left_eq_some] at read
  obtain ⟨_, read⟩ := read
  split at read
  · cases read
    trivial
  · cases read
    exact Binary64.canonical_ofDecimal negative _ _

/-! ### Fields -/

theorem proper_put {fields : List (String × Json)} {k : String} {v : Json} (before : (Json.obj fields).Proper) (proper : v.Proper) :
    (Json.obj (put fields k v)).Proper := by
  -- A key that is there keeps its place and gets the value; one that is not comes last.
  obtain ⟨differ, all⟩ := before
  rw [properFields_iff] at all
  have all' : ProperFields (put fields k v) := by
    refine properFields_iff.mpr fun kv member => ?_
    rcases mem_put member with rfl | old
    · exact proper
    · exact all kv old
  refine ⟨?_, all'⟩
  by_cases there : ∃ kv ∈ fields, kv.1 = k
  · obtain ⟨⟨_, old⟩, member, rfl⟩ := there
    obtain ⟨front, back, rfl⟩ := List.append_of_mem member
    rw [put_middle (new_of_nodup differ)]
    simpa using differ
  · have new : ∀ kv ∈ fields, kv.1 ≠ k := fun kv member same => there ⟨kv, member, same⟩
    rw [put_of_ne new, List.map_append]
    refine List.nodup_append.mpr ⟨differ, by simp, ?_⟩
    rintro _ old _ (_ | ⟨_, ⟨⟩⟩)
    obtain ⟨kv, member, rfl⟩ := List.mem_map.mp old
    exact new kv member

/-! ### All values -/

/-- What the readers of values, items and fields give with some fuel is proper. -/
structure ReadsProper (fuel : Nat) : Prop where
  value : ∀ {cs rest : List Char} {v : Json}, readValue fuel cs = some (v, rest) → v.Proper
  items : ∀ {cs rest : List Char} {v : Json}, readItems fuel cs = some (v, rest) → v.Proper
  fields : ∀ {before fields : List (String × Json)} {cs rest : List Char}, (Json.obj before).Proper →
    readFields fuel before cs = some (fields, rest) → (Json.obj fields).Proper

section

variable {fuel : Nat} {cs rest : List Char} {v : Json}

/-- A value is a text, a list of items or fields, a word, or a number. -/
theorem proper_of_readValue (told : ReadsProper fuel) (read : readValue (fuel + 1) cs = some (v, rest)) : v.Proper := by
  have bare : (Json.obj []).Proper := ⟨.nil, trivial⟩
  have one {α : Type} {o : Option α} {make : α → Json × List Char} (read : o.map make = some (v, rest))
      (all : ∀ a, (make a).1.Proper) : v.Proper := by
    obtain ⟨a, _, same⟩ := Option.map_eq_some_iff.mp read
    simpa [same] using all a
  rw [readValue.eq_def] at read
  simp only at read
  split at read
  case h_2 =>
    split at read
    · cases read
      trivial
    · exact told.items read
  case h_3 =>
    split at read
    · cases read
      exact bare
    · obtain ⟨⟨fields, _⟩, inner, same⟩ := Option.map_eq_some_iff.mp read
      cases same
      exact told.fields bare inner
  case h_9 =>
    split at read
    · cases read
      trivial
    · exact proper_of_readNumber read
  case h_10 => exact proper_of_readNumber read
  all_goals exact one read fun _ => trivial

theorem proper_of_readItems (told : ReadsProper fuel) (read : readItems (fuel + 1) cs = some (v, rest)) : v.Proper := by
  simp only [readItems, Option.bind_eq_bind, Option.bind_eq_some_iff] at read
  obtain ⟨⟨item, rest'⟩, first, read⟩ := read
  have proper := told.value first
  split at read
  · obtain ⟨⟨others, _⟩, more, read⟩ := Option.bind_eq_some_iff.mp read
    split at read
    · cases read
      next same =>
        cases same
        exact ⟨proper, told.items more⟩
    · cases read
  · cases read
    exact ⟨proper, trivial⟩
  · cases read

theorem proper_of_readFields (told : ReadsProper fuel) {before fields : List (String × Json)} (proper : (Json.obj before).Proper)
    (read : readFields (fuel + 1) before cs = some (fields, rest)) : (Json.obj fields).Proper := by
  rw [readFields.eq_def] at read
  simp only [Option.bind_eq_bind] at read
  split at read
  · obtain ⟨⟨key, _⟩, _, read⟩ := Option.bind_eq_some_iff.mp read
    split at read
    · obtain ⟨⟨value, _⟩, inner, read⟩ := Option.bind_eq_some_iff.mp read
      have more := proper_put proper (told.value inner) (k := String.ofList key)
      split at read
      · exact told.fields more read
      · cases read
        exact more
      · cases read
    · cases read
  · cases read

theorem readsProper (fuel : Nat) : ReadsProper fuel := by
  -- The readers call each other with less fuel, so what they give is proper for all three at once.
  induction fuel with
  | zero => exact ⟨nofun, nofun, nofun⟩
  | succ fuel told => exact ⟨proper_of_readValue told, proper_of_readItems told, proper_of_readFields told⟩

end

/-- **What is parsed is proper.** -/
theorem proper_of_parse? {text : String} {v : Json} (parsed : parse? text = some v) : v.Proper := by
  simp only [parse?] at parsed
  split at parsed
  next value rest read =>
    split at parsed
    · cases parsed
      exact (readsProper _).value read
    · cases parsed
  · cases parsed

end Remedy.Json
