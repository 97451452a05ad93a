import Mathlib.Data.List.Basic
import Remedy.Proofs.Text.Encoding
import Remedy.Text.Position

/-!
Places of characters. The place at a byte where a character begins is found by counting line feeds and characters up to it;
such places come in the order of their bytes. A place in a stretch of a text is moved to where the stretch stands.
-/

namespace Remedy

namespace Text

/-- A character is one byte that begins it, and bytes that continue it. -/
theorem exists_utf8EncodeChar (c : Char) :
    ∃ b rest, String.utf8EncodeChar c = b :: rest ∧ isContinuation b = false ∧ (b = 10 ↔ c = '\n') ∧
      ∀ d ∈ rest, isContinuation d = true := by
  have number {n : Nat} (byte : n < 256) : (UInt8.ofNat n).toNat = n := by simp; omega
  have begins {n : Nat} (byte : n < 256) (low : n < 0x80 ∨ 0xC0 ≤ n) : isContinuation (UInt8.ofNat n) = false := by
    simp only [isContinuation, UInt8.le_iff_toNat_le, number byte, Bool.and_eq_false_iff, decide_eq_false_iff_not,
      UInt8.reduceToNat]
    omega
  have feed {n : Nat} (byte : n < 256) : UInt8.ofNat n = 10 ↔ n = 10 := by
    rw [← UInt8.toNat_inj, number byte]
    rfl
  have continues (m : Nat) : isContinuation (UInt8.ofNat (m % 0x40 + 0x80)) = true := by
    simp only [isContinuation, UInt8.le_iff_toNat_le, number (n := m % 0x40 + 0x80) (by omega), Bool.and_eq_true,
      decide_eq_true_eq, UInt8.reduceToNat]
    omega
  have newline : c = '\n' ↔ c.val.toNat = 10 := by
    rw [← Char.toNat_inj]
    rfl
  -- By the number of bytes; only where there is one can it be a line feed.
  fun_cases String.utf8EncodeChar c with
  | case1 v h => exact ⟨_, _, rfl, begins (by omega) (by omega), (feed (by omega)).trans newline.symm, by simp⟩
  | case2 v h h' =>
    refine ⟨_, _, rfl, begins (by omega) (by omega), ?_, by simp only [List.forall_mem_cons, continues]; simp⟩
    rw [feed (by omega), newline]
    omega
  | case3 v h h' h'' =>
    refine ⟨_, _, rfl, begins (by omega) (by omega), ?_, by simp only [List.forall_mem_cons, continues]; simp⟩
    rw [feed (by omega), newline]
    omega
  | case4 v h h' h'' =>
    refine ⟨_, _, rfl, begins (by omega) (by omega), ?_, by simp only [List.forall_mem_cons, continues]; simp⟩
    rw [feed (by omega), newline]
    omega

/-- A byte of ASCII among those of a character is the character. -/
theorem eq_of_mem_utf8EncodeChar {b : UInt8} {c : Char} (h : b ∈ String.utf8EncodeChar c) (ascii : b.toNat < 0x80) :
    b.toNat = c.toNat := by
  have number {n : Nat} (byte : n < 256) : (UInt8.ofNat n).toNat = n := by simp; omega
  revert h
  fun_cases String.utf8EncodeChar c with
  | case1 v h =>
    intro h
    rw [List.mem_singleton.mp h, number (by omega)]
    rfl
  | case2 v _ h =>
    intro h
    simp only [List.mem_cons, List.not_mem_nil, or_false] at h
    rcases h with rfl | rfl
    all_goals rw [number (by omega)] at ascii; omega
  | case3 v _ _ h =>
    intro h
    simp only [List.mem_cons, List.not_mem_nil, or_false] at h
    rcases h with rfl | rfl | rfl
    all_goals rw [number (by omega)] at ascii; omega
  | case4 v _ _ h =>
    intro h
    simp only [List.mem_cons, List.not_mem_nil, or_false] at h
    rcases h with rfl | rfl | rfl | rfl
    all_goals rw [number (by omega)] at ascii; omega

/-- So a byte of ASCII in a text is one of its characters. -/
theorem mem_of_mem_encode {cs : List Char} {b : UInt8} (h : b ∈ encode cs) (ascii : b.toNat < 0x80) :
    Char.ofNat b.toNat ∈ cs := by
  obtain ⟨c, member, byte⟩ := List.mem_flatMap.mp h
  rw [eq_of_mem_utf8EncodeChar byte ascii, Char.ofNat_toNat]
  exact member

/-- A byte that continues no character begins one. -/
theorem IsBoundary.of_byte {cs : List Char} {n : Nat} {b : UInt8} (byte : (encode cs)[n]? = some b)
    (begins : isContinuation b = false) : IsBoundary cs n := by
  induction cs generalizing n with
  | nil => cases byte
  | cons c rest ih =>
    obtain ⟨d, more, encoded, _, _, continues⟩ := exists_utf8EncodeChar c
    have split : encode (c :: rest) = (d :: more) ++ encode rest := by rw [← encoded]; rfl
    rw [split] at byte
    by_cases inside : n < (d :: more).length
    · cases n with
      | zero => exact .start _
      | succ n =>
        rw [List.getElem?_append_left inside, List.getElem?_cons_succ] at byte
        rw [continues b (List.mem_of_getElem? byte)] at begins
        contradiction
    · rw [List.getElem?_append_right (Nat.le_of_not_lt inside)] at byte
      obtain ⟨front, back, rfl, length⟩ := ih byte
      refine ⟨c :: front, back, rfl, ?_⟩
      have whole : encode (c :: front) = (d :: more) ++ encode front := by rw [← encoded]; rfl
      rw [whole, List.length_append, length]
      omega

theorem isContinuation_of_ascii {b : UInt8} (ascii : b.toNat < 0x80) : isContinuation b = false := by
  simp only [isContinuation, UInt8.le_iff_toNat_le, Bool.and_eq_false_iff, decide_eq_false_iff_not, UInt8.reduceToNat]
  omega

/-- Behind a byte of ASCII another character begins, or the text ends. -/
theorem IsBoundary.succ_of_ascii {cs : List Char} {n : Nat} {b : UInt8} (byte : (encode cs)[n]? = some b)
    (ascii : b.toNat < 0x80) : IsBoundary cs (n + 1) := by
  obtain ⟨before, after, rfl, rfl⟩ := IsBoundary.of_byte byte (isContinuation_of_ascii ascii)
  rw [encode_append, List.getElem?_append_right (Nat.le_refl _), Nat.sub_self] at byte
  cases after with
  | nil => cases byte
  | cons c rest =>
    -- The byte is the first one of a character, and so the only one.
    obtain ⟨first, more, encoded, _⟩ := exists_utf8EncodeChar c
    have split : encode (c :: rest) = String.utf8EncodeChar c ++ encode rest := rfl
    rw [split, encoded] at byte
    obtain rfl : first = b := Option.some.inj byte
    have same := eq_of_mem_utf8EncodeChar (c := c) (by rw [encoded]; exact List.mem_cons_self) ascii
    have alone : (encode [c]).length = 1 := by
      have size : c.utf8Size = 1 := Char.utf8Size_eq_one_iff.mpr (by
        rw [UInt32.le_iff_toNat_le]
        change c.toNat ≤ 127
        omega)
      simpa [encode] using size
    exact ⟨before ++ [c], rest, by simp, by rw [encode_append, List.length_append, alone]⟩

end Text

namespace Position

open Text (Bytes encode IsBoundary isContinuation)

/-- The place after one more character. -/
def stepChar (p : Position) (c : Char) : Position := if c = '\n' then ⟨p.line + 1, 0⟩ else ⟨p.line, p.column + 1⟩

/-- The place after the characters at the beginning of a text. -/
def after (cs : List Char) : Position := cs.foldl stepChar ⟨1, 0⟩

/-- Lines from top to bottom, columns from left to right. -/
def Before (p q : Position) : Prop := p.line < q.line ∨ p.line = q.line ∧ p.column < q.column

/-! ### Bytes and characters -/

theorem foldl_step_continuation (p : Position) {bytes : Bytes} (h : ∀ b ∈ bytes, isContinuation b = true) :
    bytes.foldl step p = p := by
  induction bytes with
  | nil => rfl
  | cons b rest ih =>
    have continues := h b List.mem_cons_self
    have same : p.step b = p := by
      have other : b ≠ 10 := by
        rintro rfl
        cases continues
      rw [step, if_neg (by simpa using other), if_pos continues]
    rw [List.foldl_cons, same, ih fun d hd => h d (List.mem_cons_of_mem b hd)]

theorem foldl_step_utf8EncodeChar (p : Position) (c : Char) : (String.utf8EncodeChar c).foldl step p = p.stepChar c := by
  obtain ⟨b, rest, bytes, begins, feed, continues⟩ := Text.exists_utf8EncodeChar c
  rw [bytes, List.foldl_cons, foldl_step_continuation _ continues, step, stepChar]
  simp only [beq_iff_eq, feed, begins, Bool.false_eq_true, if_false]

theorem foldl_step_encode (p : Position) (cs : List Char) : (encode cs).foldl step p = cs.foldl stepChar p := by
  induction cs generalizing p with
  | nil => rfl
  | cons c rest ih =>
    rw [encode, List.flatMap_cons, List.foldl_append, foldl_step_utf8EncodeChar, ← encode, ih, List.foldl_cons]

/-- The place at the byte where a character begins is the place after all characters before it. -/
theorem ofOffset_encode {cs front back : List Char} (h : cs = front ++ back) :
    ofOffset (encode cs) (encode front).length = after front := by
  rw [h, ofOffset, Text.encode_append, List.take_left, foldl_step_encode, after]

theorem foldl_stepChar_of_not_mem (p : Position) {cs : List Char} (h : '\n' ∉ cs) :
    cs.foldl stepChar p = ⟨p.line, p.column + cs.length⟩ := by
  induction cs generalizing p with
  | nil => simp
  | cons c rest ih =>
    rw [List.mem_cons, not_or] at h
    rw [List.foldl_cons, ih _ h.2, stepChar, if_neg (Ne.symm h.1), List.length_cons]
    simp only [mk.injEq, true_and]
    omega

/-! ### Order -/

theorem Before.trans {p q r : Position} (h : p.Before q) (h' : q.Before r) : p.Before r := by
  rw [Before] at *
  omega

theorem Before.ne {p q : Position} (h : p.Before q) : p ≠ q := by
  rintro rfl
  rw [Before] at h
  omega

theorem before_stepChar (p : Position) (c : Char) : p.Before (p.stepChar c) := by
  rw [Before, stepChar]
  split
  · left
    simp only
    omega
  · right
    exact ⟨rfl, by simp only; omega⟩

theorem before_foldl (p : Position) (c : Char) (rest : List Char) : p.Before ((c :: rest).foldl stepChar p) := by
  induction rest generalizing p c with
  | nil => exact p.before_stepChar c
  | cons d rest ih => exact (p.before_stepChar c).trans (ih (p.stepChar c) d)

theorem one_le_line_after (cs : List Char) : 1 ≤ (after cs).line := by
  cases cs with
  | nil => exact Int.le_refl 1
  | cons c rest =>
    rcases before_foldl ⟨1, 0⟩ c rest with line | ⟨line, _⟩
    · exact Int.le_of_lt line
    · exact Int.le_of_eq line

/-- Of two places where characters begin the one with fewer bytes before it comes first. -/
theorem ofOffset_before {cs : List Char} {m n : Nat} (first : IsBoundary cs m) (last : IsBoundary cs n) (h : m < n) :
    (ofOffset (encode cs) m).Before (ofOffset (encode cs) n) := by
  obtain ⟨front, back, rfl, rfl⟩ := first
  obtain ⟨longer, rest, split, rfl⟩ := last
  rw [ofOffset_encode rfl, ofOffset_encode split]
  -- The longer beginning is the shorter one and at least one more character.
  rcases List.append_eq_append_iff.mp split with ⟨middle, rfl, rfl⟩ | ⟨extra, rfl, rfl⟩
  · cases middle with
    | nil => simp at h
    | cons c middle =>
      rw [after, after, List.foldl_append]
      exact before_foldl _ c middle
  · rw [Text.encode_append, List.length_append] at h
    omega

/-- Places tell apart all bytes at which characters begin. -/
theorem ofOffset_inj {cs : List Char} {m n : Nat} (first : IsBoundary cs m) (last : IsBoundary cs n) :
    ofOffset (encode cs) m = ofOffset (encode cs) n ↔ m = n := by
  constructor
  · intro same
    rcases Nat.lt_trichotomy m n with less | equal | more
    · exact absurd same (ofOffset_before first last less).ne
    · exact equal
    · exact absurd same.symm (ofOffset_before last first more).ne
  · rintro rfl
    rfl

/-! ### Stretches of a text -/

/-- Places of a block move with it from byte to byte. -/
theorem shift_step {p : Position} (h : 1 ≤ p.line) (lines columns : Int) (b : UInt8) :
    (p.step b).shift lines columns = (p.shift lines columns).step b := by
  simp only [step]
  split
  · -- After a line feed columns no longer depend on where the block stands.
    have later : p.line + 1 ≠ 1 := by omega
    simp only [shift, beq_iff_eq, if_neg later, mk.injEq, and_true]
    omega
  · split
    · rfl
    · simp only [shift]
      split
      · simp only [mk.injEq, true_and]
        omega
      · rfl

theorem one_le_line_step {p : Position} (h : 1 ≤ p.line) (b : UInt8) : 1 ≤ (p.step b).line := by
  rw [step]
  split
  · simp only
    omega
  · split
    · exact h
    · exact h

theorem shift_foldl_step {p : Position} (h : 1 ≤ p.line) (lines columns : Int) (bytes : Bytes) :
    (bytes.foldl step p).shift lines columns = bytes.foldl step (p.shift lines columns) := by
  induction bytes generalizing p with
  | nil => rfl
  | cons b rest ih => rw [List.foldl_cons, List.foldl_cons, ih (one_le_line_step h b), shift_step h]

/-- A place in a block, moved to where the block begins, is the place in the whole at which the same byte stands. -/
theorem shift_ofOffset {bytes block : Bytes} {offset k : Nat} (same : block.take k = (bytes.drop offset).take k) :
    (ofOffset block k).shift ((ofOffset bytes offset).line - 1) (ofOffset bytes offset).column =
      ofOffset bytes (offset + k) := by
  have start (p : Position) : (⟨1, 0⟩ : Position).shift (p.line - 1) p.column = p := by
    cases p with
    | mk line column =>
      simp only [shift, beq_self_eq_true, if_true, mk.injEq]
      omega
  rw [ofOffset, shift_foldl_step (Int.le_refl 1), start, same, ofOffset, ofOffset, List.take_add, List.foldl_append]

end Position

end Remedy
