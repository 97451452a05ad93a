import Remedy.Proofs.Text.Encoding

/-!
Reading texts leniently. What a first byte announces is what follows it in the bytes of a character, so of an encoded text
nothing is replaced.
-/

namespace Remedy.Text

theorem lead?_ofNat {n : Nat} (byte : n < 256) :
    lead? (UInt8.ofNat n) =
      if n < 0x80 then some (0, 0x80, 0xBF, n)
      else if n < 0xC2 then none
      else if n < 0xE0 then some (1, 0x80, 0xBF, n - 0xC0)
      else if n = 0xE0 then some (2, 0xA0, 0xBF, 0)
      else if n = 0xED then some (2, 0x80, 0x9F, 0xD)
      else if n < 0xF0 then some (2, 0x80, 0xBF, n - 0xE0)
      else if n = 0xF0 then some (3, 0x90, 0xBF, 0)
      else if n < 0xF4 then some (3, 0x80, 0xBF, n - 0xF0)
      else if n = 0xF4 then some (3, 0x80, 0x8F, 4)
      else none := by
  have same : (UInt8.ofNat n).toNat = n := by simp; omega
  simp only [lead?, UInt8.lt_iff_toNat_lt, beq_iff_eq, ← UInt8.toNat_inj, same, UInt8.reduceToNat]

/-- The first of three bytes announces bounds that the second one keeps to: characters that two bytes can hold are not
written with three, and surrogates are no characters. -/
theorem lead?_three {v : Nat} (low : 0x7ff < v) (high : v ≤ 0xffff) (valid : v < 0xD800 ∨ 0xDFFF < v) :
    ∃ lo hi, lead? (UInt8.ofNat (v / 4096 % 0x10 + 0xE0)) = some (2, lo, hi, v / 4096) ∧
      lo.toNat ≤ v / 64 % 0x40 + 0x80 ∧ v / 64 % 0x40 + 0x80 ≤ hi.toNat := by
  rw [lead?_ofNat (by omega), if_neg (by omega), if_neg (by omega), if_neg (by omega)]
  -- The bounds are narrower behind the first of these bytes, and behind the one that surrogates would begin with.
  by_cases first : v / 4096 = 0
  · refine ⟨0xA0, 0xBF, ?_, ?_, ?_⟩
    · rw [if_pos (by omega), first]
    · simp; omega
    · simp; omega
  · rw [if_neg (by omega)]
    by_cases surrogate : v / 4096 = 0xD
    · refine ⟨0x80, 0x9F, ?_, ?_, ?_⟩
      · rw [if_pos (by omega), surrogate]
      · simp
      · simp; omega
    · refine ⟨0x80, 0xBF, ?_, ?_, ?_⟩
      · rw [if_neg (by omega), if_pos (by omega), show v / 4096 % 0x10 + 0xE0 - 0xE0 = v / 4096 by omega]
      · simp
      · simp; omega

theorem lead?_four {v : Nat} (low : 0xffff < v) (high : v < 0x110000) :
    ∃ lo hi, lead? (UInt8.ofNat (v / 262144 % 0x08 + 0xF0)) = some (3, lo, hi, v / 262144) ∧
      lo.toNat ≤ v / 4096 % 0x40 + 0x80 ∧ v / 4096 % 0x40 + 0x80 ≤ hi.toNat := by
  rw [lead?_ofNat (by omega), if_neg (by omega), if_neg (by omega), if_neg (by omega), if_neg (by omega), if_neg (by omega),
    if_neg (by omega)]
  -- Here they are narrower behind the first of these bytes and the last.
  by_cases first : v / 262144 = 0
  · refine ⟨0x90, 0xBF, ?_, ?_, ?_⟩
    · rw [if_pos (by omega), first]
    · simp; omega
    · simp; omega
  · rw [if_neg (by omega)]
    by_cases last : v / 262144 = 4
    · refine ⟨0x80, 0x8F, ?_, ?_, ?_⟩
      · rw [if_neg (by omega), if_pos (by omega), last]
      · simp
      · simp; omega
    · refine ⟨0x80, 0xBF, ?_, ?_, ?_⟩
      · rw [if_pos (by omega), show v / 262144 % 0x08 + 0xF0 - 0xF0 = v / 262144 by omega]
      · simp
      · simp; omega

section

variable {decode : Bytes → List Char} {need value : Nat} {rest : Bytes}

theorem decodeTail_ofNat {n : Nat} {lo hi : UInt8} (byte : n < 256) (low : lo.toNat ≤ n) (high : n ≤ hi.toNat) :
    decodeTail decode (need + 1) lo hi value (UInt8.ofNat n :: rest) =
      decodeTail decode need 0x80 0xBF (value * 64 + (n - 0x80)) rest := by
  have same : (UInt8.ofNat n).toNat = n := by simp; omega
  rw [decodeTail]
  simp [UInt8.le_iff_toNat_le, same, low, high]

theorem decodeTail_continuation {m : Nat} :
    decodeTail decode (need + 1) 0x80 0xBF value (UInt8.ofNat (m % 0x40 + 0x80) :: rest) =
      decodeTail decode need 0x80 0xBF (value * 64 + m % 0x40) rest := by
  rw [decodeTail_ofNat (by omega) (by simp) (by simp; omega), Nat.add_sub_cancel]

theorem decodeTail_last {lo hi : UInt8} : decodeTail decode 0 lo hi value rest = Char.ofNat value :: decode rest := rfl

end

/-- The bytes of a character are read as that character. -/
theorem decodeLossyFrom_char (fuel : Nat) (c : Char) (rest : Bytes) :
    decodeLossyFrom (fuel + 1) (String.utf8EncodeChar c ++ rest) = c :: decodeLossyFrom fuel rest := by
  have valid : c.val.toNat < 0xD800 ∨ 0xDFFF < c.val.toNat ∧ c.val.toNat < 0x110000 := c.valid
  have back : Char.ofNat c.val.toNat = c := Char.ofNat_toNat c
  -- The cases are those of the encoding, by the number of bytes.
  fun_cases String.utf8EncodeChar c with
  | case1 v h =>
    have announced := lead?_ofNat (n := v) (by omega)
    rw [if_pos (by omega)] at announced
    simp only [List.cons_append, decodeLossyFrom, List.nil_append, announced, decodeTail_last]
    rw [back]
  | case2 v h h' =>
    have announced := lead?_ofNat (n := v / 64 % 0x20 + 0xC0) (by omega)
    rw [if_neg (by omega), if_neg (by omega), if_pos (by omega)] at announced
    simp only [List.cons_append, decodeLossyFrom, List.nil_append, announced]
    rw [decodeTail_continuation, decodeTail_last, show (v / 64 % 32 + 192 - 192) * 64 + v % 64 = v by omega, back]
  | case3 v h h' h'' =>
    obtain ⟨lo, hi, announced, low, high⟩ := lead?_three (v := v) (by omega) h'' (by omega)
    simp only [List.cons_append, decodeLossyFrom, List.nil_append, announced]
    rw [decodeTail_ofNat (by omega) low high, decodeTail_continuation, decodeTail_last,
      show (v / 4096 * 64 + (v / 64 % 64 + 128 - 128)) * 64 + v % 64 = v by omega, back]
  | case4 v h h' h'' =>
    obtain ⟨lo, hi, announced, low, high⟩ := lead?_four (v := v) (by omega) (by omega)
    simp only [List.cons_append, decodeLossyFrom, List.nil_append, announced]
    rw [decodeTail_ofNat (by omega) low high, decodeTail_continuation, decodeTail_continuation, decodeTail_last,
      show ((v / 262144 * 64 + (v / 4096 % 64 + 128 - 128)) * 64 + v / 64 % 64) * 64 + v % 64 = v by omega, back]

/-- A character that is cut off is read as one replacement. -/
theorem decodeLossyFrom_cut (fuel : Nat) (c : Char) {n : Nat} (begun : 0 < n) (cut : n < (String.utf8EncodeChar c).length) :
    decodeLossyFrom (fuel + 1) ((String.utf8EncodeChar c).take n) = [replacement] := by
  have valid : c.val.toNat < 0xD800 ∨ 0xDFFF < c.val.toNat ∧ c.val.toNat < 0x110000 := c.valid
  revert cut
  -- The cases are those of the encoding; in each of them the bytes that are there keep to what the first one announces.
  fun_cases String.utf8EncodeChar c with
  | case1 v h =>
    intro cut
    rw [List.length_singleton] at cut
    omega
  | case2 v h h' =>
    intro cut
    have announced := lead?_ofNat (n := v / 64 % 0x20 + 0xC0) (by omega)
    rw [if_neg (by omega), if_neg (by omega), if_pos (by omega)] at announced
    obtain rfl : n = 1 := by simp at cut; omega
    simp only [List.take_succ_cons, List.take_zero, decodeLossyFrom, announced, decodeTail]
  | case3 v h h' h'' =>
    intro cut
    obtain ⟨lo, hi, announced, low, high⟩ := lead?_three (v := v) (by omega) h'' (by omega)
    obtain rfl | rfl : n = 1 ∨ n = 2 := by simp at cut; omega
    · simp only [List.take_succ_cons, List.take_zero, decodeLossyFrom, announced, decodeTail]
    · simp only [List.take_succ_cons, List.take_zero, decodeLossyFrom, announced]
      rw [decodeTail_ofNat (by omega) low high, decodeTail]
  | case4 v h h' h'' =>
    intro cut
    obtain ⟨lo, hi, announced, low, high⟩ := lead?_four (v := v) (by omega) (by omega)
    obtain rfl | rfl | rfl : n = 1 ∨ n = 2 ∨ n = 3 := by simp at cut; omega
    · simp only [List.take_succ_cons, List.take_zero, decodeLossyFrom, announced, decodeTail]
    · simp only [List.take_succ_cons, List.take_zero, decodeLossyFrom, announced]
      rw [decodeTail_ofNat (by omega) low high, decodeTail]
    · simp only [List.take_succ_cons, List.take_zero, decodeLossyFrom, announced]
      rw [decodeTail_ofNat (by omega) low high, decodeTail_continuation, decodeTail]

theorem length_le_encode (cs : List Char) : cs.length ≤ (encode cs).length := by
  induction cs with
  | nil => simp
  | cons c rest ih =>
    have whole : (encode [c]).length = c.utf8Size := by simp [encode]
    have := c.utf8Size_pos
    rw [← List.singleton_append, encode_append, List.length_append, List.length_append, List.length_singleton]
    omega

theorem decodeLossyFrom_encode {fuel : Nat} {cs : List Char} (enough : cs.length ≤ fuel) :
    decodeLossyFrom fuel (encode cs) = cs := by
  induction cs generalizing fuel with
  | nil => cases fuel <;> rfl
  | cons c rest ih =>
    rw [List.length_cons] at enough
    -- A character takes one unit of fuel, however many bytes it has.
    obtain ⟨more, rfl⟩ : ∃ more, fuel = more + 1 := ⟨fuel - 1, by omega⟩
    rw [encode, List.flatMap_cons, decodeLossyFrom_char]
    congr 1
    exact ih (by omega)

/-- A text begins with another one if its bytes do. -/
theorem exists_of_encode_append {xs ys : List Char} {rest : Bytes} (h : encode xs ++ rest = encode ys) :
    ∃ zs, ys = xs ++ zs := by
  induction xs generalizing ys with
  | nil => exact ⟨ys, rfl⟩
  | cons x xs ih =>
    cases ys with
    | nil =>
      have nothing := (List.append_eq_nil_iff.mp h).1
      cases encode_eq_nil nothing
    | cons y ys =>
      have first (c : Char) (cs : List Char) : encode (c :: cs) = String.utf8EncodeChar c ++ encode cs := rfl
      rw [first, first, List.append_assoc] at h
      -- Reading one character of either side gives the same one.
      have read := congrArg (decodeLossyFrom 1) h
      rw [decodeLossyFrom_char, decodeLossyFrom_char] at read
      obtain rfl := (List.cons.inj read).1
      obtain ⟨zs, rfl⟩ := ih (List.append_cancel_left h)
      exact ⟨zs, rfl⟩

/-- Of an encoded text nothing is replaced. -/
@[simp] theorem decodeLossy_encode (cs : List Char) : decodeLossy (encode cs) = cs :=
  decodeLossyFrom_encode (length_le_encode cs)

/-- A byte of ASCII is read as the character it is, whatever follows. -/
theorem decodeLossy_ascii {b : UInt8} (ascii : b.toNat < 0x80) (rest : Bytes) :
    decodeLossy (b :: rest) = Char.ofNat b.toNat :: decodeLossy rest := by
  have announced : lead? b = some (0, 0x80, 0xBF, b.toNat) := if_pos (UInt8.lt_iff_toNat_lt.mpr ascii)
  rw [decodeLossy, List.length_cons, decodeLossyFrom, announced]
  rfl

end Remedy.Text
