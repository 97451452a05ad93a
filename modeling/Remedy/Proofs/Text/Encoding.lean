import Remedy.Text.Utf8

/-!
Encoded texts. Encoding turns texts put together into bytes put together, decoding takes it back, and what lies between
two places at which characters begin is itself an encoded text.
-/

namespace Remedy.Text

@[simp] theorem encode_nil : encode [] = [] := rfl

@[simp] theorem encode_append (xs ys : List Char) : encode (xs ++ ys) = encode xs ++ encode ys := by
  simp [encode]

theorem toByteArray_encode (cs : List Char) : (encode cs).toByteArray = cs.utf8Encode := rfl

/-- Every encoded text can be read back. -/
@[simp] theorem decode?_encode (cs : List Char) : decode? (encode cs) = some cs := by
  simp [decode?, toByteArray_encode]

/-- What has been read can be encoded again. -/
theorem encode_of_decode? {bytes : Bytes} {cs : List Char} (h : decode? bytes = some cs) : encode cs = bytes := by
  rw [decode?] at h
  obtain ⟨array, decoded, rfl⟩ := Option.map_eq_some_iff.mp h
  apply List.toByteArray_inj.mp
  have known : bytes.toByteArray.utf8Decode?.isSome := by rw [decoded]; rfl
  have back := @ByteArray.utf8Encode_get_utf8Decode? bytes.toByteArray known
  rwa [Option.get_of_eq_some known decoded] at back

theorem encode_eq_nil {cs : List Char} (h : encode cs = []) : cs = [] := by
  cases cs with
  | nil => rfl
  | cons c rest => simp [encode] at h

theorem length_sliceBytes {bytes : Bytes} {m n : Nat} (inside : n ≤ bytes.length) :
    (sliceBytes bytes m n).length = n - m := by
  rw [sliceBytes, List.length_drop, List.length_take, Nat.min_eq_left inside]

/-- A stretch and what follows it. -/
theorem sliceBytes_append_drop (bytes : Bytes) {m n : Nat} (h : m ≤ n) :
    sliceBytes bytes m n ++ bytes.drop n = bytes.drop m := by
  have rest : bytes.drop n = (bytes.drop m).drop (n - m) := by rw [List.drop_drop, Nat.add_sub_cancel' h]
  rw [sliceBytes, List.drop_take, rest, List.take_append_drop]

/-- A stretch and the one that follows it. -/
theorem sliceBytes_append (bytes : Bytes) {m n k : Nat} (h : m ≤ n) (h' : n ≤ k) :
    sliceBytes bytes m n ++ sliceBytes bytes n k = sliceBytes bytes m k := by
  have first : sliceBytes bytes m n = sliceBytes (bytes.take k) m n := by
    rw [sliceBytes, sliceBytes, List.take_take, Nat.min_eq_left h']
  rw [first, sliceBytes, sliceBytes.eq_def bytes, ← sliceBytes.eq_def (bytes.take k), sliceBytes_append_drop _ h,
    ← sliceBytes.eq_def]

/-- A byte offset at which a character of a text begins, or at which the text ends. -/
def IsBoundary (cs : List Char) (n : Nat) : Prop := ∃ before after, cs = before ++ after ∧ (encode before).length = n

namespace IsBoundary

variable {cs : List Char} {m n : Nat}

theorem iff_take : IsBoundary cs n ↔ ∃ i ∈ List.range (cs.length + 1), (encode (cs.take i)).length = n := by
  constructor
  · rintro ⟨before, after, rfl, rfl⟩
    refine ⟨before.length, ?_, by rw [List.take_left]⟩
    rw [List.mem_range, List.length_append]
    omega
  · rintro ⟨i, _, rfl⟩
    exact ⟨cs.take i, cs.drop i, (List.take_append_drop i cs).symm, rfl⟩

instance : Decidable (IsBoundary cs n) := decidable_of_iff _ iff_take.symm

theorem start (cs : List Char) : IsBoundary cs 0 := ⟨[], cs, rfl, rfl⟩

theorem le_length (h : IsBoundary cs n) : n ≤ (encode cs).length := by
  obtain ⟨before, after, rfl, rfl⟩ := h
  simp

theorem drop_eq_encode (h : IsBoundary cs n) : ∃ tail, (encode cs).drop n = encode tail := by
  obtain ⟨before, after, rfl, rfl⟩ := h
  exact ⟨after, by rw [encode_append, List.drop_left]⟩

/-- Two ways to cut a text differ by a stretch of whole characters. -/
theorem slice_eq_encode (first : IsBoundary cs m) (last : IsBoundary cs n) (h : m ≤ n) :
    ∃ middle, sliceBytes (encode cs) m n = encode middle := by
  obtain ⟨before, after, rfl, rfl⟩ := first
  obtain ⟨longer, rest, split, rfl⟩ := last
  rcases List.append_eq_append_iff.mp split with ⟨middle, rfl, rfl⟩ | ⟨extra, rfl, rfl⟩
  · refine ⟨middle, ?_⟩
    simp [sliceBytes, List.take_append]
  · have nothing : extra = [] := by
      apply encode_eq_nil
      apply List.eq_nil_of_length_eq_zero
      simp only [encode_append, List.length_append] at h
      omega
    subst nothing
    exact ⟨[], by simp [sliceBytes]⟩

end IsBoundary

end Remedy.Text
