import Remedy.Proofs.Edit.Substitution

/-!
What splicing leaves alone: every byte that no replacement covers.

Replacements that do not overlap are simply made. One that is made after an insertion inside of it takes away as many bytes
as it covers, whatever these are by then; as long as the insertion has brought that many, all that stands behind is kept.
-/

namespace Remedy

open Text (Bytes encode sliceBytes)

/-- A stretch of bytes lies within that of a replacement. -/
def Covers (rs : List Replacement) (start stop : Nat) : Prop := ∃ r ∈ rs, r.start ≤ start ∧ stop ≤ r.stop

/-- Bytes from a place on, before and after: they are the same, in order, but for stretches that are covered. -/
inductive ChangedWithin (rs : List Replacement) : Nat → Bytes → Bytes → Prop
  | done (place : Nat) : ChangedWithin rs place [] []
  | keep {place : Nat} (b : UInt8) {before after : Bytes} (rest : ChangedWithin rs (place + 1) before after) :
    ChangedWithin rs place (b :: before) (b :: after)
  | change {place : Nat} (old new : Bytes) {before after : Bytes} (covered : Covers rs place (place + old.length))
      (rest : ChangedWithin rs (place + old.length) before after) : ChangedWithin rs place (old ++ before) (new ++ after)

namespace ChangedWithin

variable {rs : List Replacement} {place : Nat} {before after : Bytes}

theorem keep_append (bytes : Bytes) (h : ChangedWithin rs (place + bytes.length) before after) :
    ChangedWithin rs place (bytes ++ before) (bytes ++ after) := by
  induction bytes generalizing place with
  | nil => exact h
  | cons b rest ih =>
    apply keep b
    apply ih
    rwa [List.length_cons, Nat.add_comm rest.length 1, ← Nat.add_assoc] at h

theorem refl (rs : List Replacement) (place : Nat) (bytes : Bytes) : ChangedWithin rs place bytes bytes := by
  have kept := keep_append bytes (done (place + bytes.length) : ChangedWithin rs _ [] [])
  rwa [List.append_nil] at kept

/-- A byte that no replacement covers is kept. -/
theorem mem_of_uncovered (h : ChangedWithin rs place before after) {i : Nat} {b : UInt8} (byte : before[i]? = some b)
    (free : ∀ r ∈ rs, r.start ≤ place + i → r.stop ≤ place + i) : b ∈ after := by
  -- The byte is one of those kept, or it stands behind all that a change takes away: within a change it would be covered.
  induction h generalizing i with
  | done => simp at byte
  | keep c _ ih =>
    cases i with
    | zero =>
      rw [List.getElem?_cons_zero, Option.some.injEq] at byte
      exact byte ▸ List.mem_cons_self
    | succ i =>
      rw [List.getElem?_cons_succ] at byte
      exact List.mem_cons_of_mem c (ih byte fun r hr => by have := free r hr; omega)
  | change old new covered _ ih =>
    obtain ⟨r, hr, start_le, le_stop⟩ := covered
    have behind : old.length ≤ i := by
      have := free r hr
      omega
    rw [List.getElem?_append_right behind] at byte
    exact List.mem_append_right _ (ih byte fun s hs => by have := free s hs; omega)

/-- Bytes are kept up to a replacement, changed as far as it goes, and what follows is known. -/
theorem upTo {bytes tail : Bytes} {r : Replacement} {resume : Nat} (member : r ∈ rs) (start_le : place ≤ r.start)
    (le_resume : r.start ≤ resume) (le_stop : resume ≤ r.stop) (inside : resume ≤ bytes.length) (new : Bytes)
    (rest : ChangedWithin rs resume (bytes.drop resume) tail) :
    ChangedWithin rs place (bytes.drop place) (sliceBytes bytes place r.start ++ (new ++ tail)) := by
  have reach : place + (sliceBytes bytes place r.start).length = r.start := by
    rw [Text.length_sliceBytes (Nat.le_trans le_resume inside)]
    omega
  have onward : r.start + (sliceBytes bytes r.start resume).length = resume := by
    rw [Text.length_sliceBytes inside]
    omega
  rw [← Text.sliceBytes_append_drop bytes start_le, ← Text.sliceBytes_append_drop bytes le_resume]
  apply keep_append
  rw [reach]
  apply change
  · exact ⟨r, member, Nat.le_refl _, by rwa [onward]⟩
  · rwa [onward]

end ChangedWithin

namespace Replacement

/-- An insertion that brings what a stretch goes on for behind it. -/
def Fills (a b : Replacement) : Prop := a.start = a.stop ∧ b.stop ≤ a.start + (encode a.content.toList).length

/-- Two stretches that do not overlap, or one of which is an insertion that fills what it leaves of the other. -/
def Compatible (a b : Replacement) : Prop := a.overlaps b = false ∨ a.Fills b ∨ b.Fills a

/-- Where the first of two stretches can be replaced after the second one was. -/
def Spares (a b : Replacement) : Prop := a.stop ≤ b.start ∨ b.Fills a

theorem Compatible.symm {a b : Replacement} (h : a.Compatible b) : b.Compatible a := by
  rcases h with apart | fills
  · exact Or.inl (by rwa [overlaps_comm])
  · exact Or.inr fills.symm

/-- Stretches one of which ends before the other begins. -/
theorem overlaps_of_beside {a b : Replacement} (h : a.stop ≤ b.start ∨ b.stop ≤ a.start) : a.overlaps b = false := by
  simp only [overlaps, Bool.and_eq_false_iff, decide_eq_false_iff_not]
  omega

theorem Compatible.of_beside {a b : Replacement} (h : a.stop ≤ b.start ∨ b.stop ≤ a.start) : a.Compatible b :=
  Or.inl (overlaps_of_beside h)

theorem Compatible.spares {a b : Replacement} (h : a.Compatible b) (forward : b.start ≤ b.stop)
    (before : a.start < b.start ∨ a.start = b.start ∧ a.stop ≤ b.stop) : a.Spares b := by
  rcases h with apart | insertion | fills
  · exact Or.inl (stop_le_start forward before apart)
  · -- An insertion that stands first is out of the way.
    obtain ⟨point, _⟩ := insertion
    exact Or.inl (by omega)
  · exact Or.inr fills

/-- A replacement made where the bytes have already changed from a place within it, but for as much as it takes away. -/
theorem applyTo_take_append {bytes : Bytes} {r : Replacement} {place : Nat} {brought : Bytes} (start_le : r.start ≤ place)
    (le_stop : place ≤ r.stop) (inside : place ≤ bytes.length) (fills : r.stop ≤ place + brought.length) (tail : Bytes) :
    r.applyTo (bytes.take place ++ (brought ++ tail)) =
      bytes.take r.start ++ ((encode r.content.toList ++ brought.drop (r.stop - place)) ++ tail) := by
  have length : (bytes.take place).length = place := by simpa using inside
  have front : (bytes.take place ++ (brought ++ tail)).take r.start = bytes.take r.start := by
    rw [List.take_append_of_le_length (by omega), List.take_take, Nat.min_eq_left start_le]
  have back : (bytes.take place ++ (brought ++ tail)).drop r.stop = brought.drop (r.stop - place) ++ tail := by
    rw [List.drop_append, List.drop_of_length_le (by omega), List.nil_append, length,
      List.drop_append_of_le_length (by omega)]
  rw [applyTo, front, back, List.append_assoc, List.append_assoc]

end Replacement

/-- Replacements of stretches of a text, in the order in which they stand, each of which spares those behind it. -/
structure Sparing (bytes : Bytes) (rs : List Replacement) : Prop where
  forward : ∀ r ∈ rs, r.start ≤ r.stop
  inside : ∀ r ∈ rs, r.stop ≤ bytes.length
  ascending : rs.Pairwise fun a b => a.start ≤ b.start
  spares : rs.Pairwise Replacement.Spares

theorem Sparing.tail {bytes : Bytes} {r : Replacement} {rs : List Replacement} (h : Sparing bytes (r :: rs)) :
    Sparing bytes rs where
  forward s hs := h.forward s (List.mem_cons_of_mem r hs)
  inside s hs := h.inside s (List.mem_cons_of_mem r hs)
  ascending := h.ascending.of_cons
  spares := h.spares.of_cons

/-- Making the replacements backwards, the last one first, changes nothing but what they cover. -/
theorem Sparing.foldr_applyTo {all : List Replacement} {bytes : Bytes} : (rs : List Replacement) → Sparing bytes rs →
    rs ⊆ all → ∀ place ≤ bytes.length, (∀ r ∈ rs, place ≤ r.start) →
      ∃ tail, rs.foldr Replacement.applyTo bytes = bytes.take place ++ tail ∧
        ChangedWithin all place (bytes.drop place) tail
  | [], _, _, place, _, _ =>
    ⟨bytes.drop place, (List.take_append_drop place bytes).symm, .refl all place _⟩
  | r :: rest, h, within, place, _, behind => by
    have forward := h.forward r List.mem_cons_self
    have stop_le := h.inside r List.mem_cons_self
    have start_le := behind r List.mem_cons_self
    have later : rest ⊆ all := fun s hs => within (List.mem_cons_of_mem r hs)
    -- Either all the others stand behind, or the first of them is an insertion within this one.
    have resumed : ∃ resume brought tail, r.start ≤ resume ∧ resume ≤ r.stop ∧ r.stop ≤ resume + brought.length ∧
        rest.foldr Replacement.applyTo bytes = bytes.take resume ++ (brought ++ tail) ∧
        ChangedWithin all resume (bytes.drop resume) tail := by
      match rest, h, later with
      | [], _, _ =>
        exact ⟨r.stop, [], bytes.drop r.stop, forward, Nat.le_refl _, by simp, by simp, .refl all _ _⟩
      | q :: more, h, later =>
        have first := List.rel_of_pairwise_cons h.ascending List.mem_cons_self
        by_cases clear : r.stop ≤ q.start
        · -- Everything behind has left the text alone up to the end of this one.
          have starts : ∀ s ∈ q :: more, r.stop ≤ s.start := by
            intro s hs
            rcases List.mem_cons.mp hs with rfl | hs
            · exact clear
            · exact Nat.le_trans clear (List.rel_of_pairwise_cons h.tail.ascending hs)
          obtain ⟨tail, bytes_eq, changed⟩ := foldr_applyTo (q :: more) h.tail later r.stop stop_le starts
          exact ⟨r.stop, [], tail, forward, Nat.le_refl _, by simp, bytes_eq, changed⟩
        · -- What follows the insertion has left the text alone up to its place, and it brings enough to be taken away.
          obtain ⟨point, fills⟩ := (List.rel_of_pairwise_cons h.spares List.mem_cons_self).resolve_left clear
          have q_le : q.start ≤ bytes.length := by omega
          obtain ⟨tail, bytes_eq, changed⟩ := foldr_applyTo more h.tail.tail (fun s hs => later (List.mem_cons_of_mem q hs))
            q.start q_le fun s hs => List.rel_of_pairwise_cons h.tail.ascending hs
          refine ⟨q.start, encode q.content.toList, tail, first, by omega, fills, ?_, changed⟩
          have inserted : q.applyTo (bytes.take q.start ++ tail) =
              bytes.take q.start ++ (encode q.content.toList ++ tail) := by
            have made := Replacement.applyTo_take_append (Nat.le_refl q.start) (Nat.le_of_eq point) q_le
              (by simp [point] : q.stop ≤ q.start + ([] : Bytes).length) tail
            rwa [List.nil_append, List.drop_nil, List.append_nil] at made
          rw [List.foldr_cons, bytes_eq, inserted]
    obtain ⟨resume, brought, tail, start_le', le_stop, fills, bytes_eq, changed⟩ := resumed
    have resume_le : resume ≤ bytes.length := Nat.le_trans le_stop stop_le
    have untouched : bytes.take r.start = bytes.take place ++ sliceBytes bytes place r.start := by
      have h := (List.take_append_drop place (bytes.take r.start)).symm
      rwa [List.take_take, Nat.min_eq_left start_le] at h
    refine ⟨sliceBytes bytes place r.start ++ ((encode r.content.toList ++ brought.drop (r.stop - resume)) ++ tail), ?_, ?_⟩
    · rw [List.foldr_cons, bytes_eq, Replacement.applyTo_take_append start_le' le_stop resume_le fills, untouched,
        List.append_assoc]
    · exact changed.upTo (within List.mem_cons_self) start_le start_le' le_stop resume_le _

/-- Stretches of a text of so many bytes, any two of which can be replaced together. -/
structure Coexist (size : Nat) (rs : List Replacement) : Prop where
  forward : ∀ r ∈ rs, r.start ≤ r.stop
  inside : ∀ r ∈ rs, r.stop ≤ size
  compatible : rs.Pairwise Replacement.Compatible

namespace Coexist

variable {size : Nat} {rs ss : List Replacement}

theorem nil (size : Nat) : Coexist size [] := ⟨by simp, by simp, .nil⟩

theorem singleton {r : Replacement} (forward : r.start ≤ r.stop) (inside : r.stop ≤ size) : Coexist size [r] :=
  ⟨by simpa using forward, by simpa using inside, List.pairwise_singleton _ r⟩

theorem append (h : Coexist size rs) (h' : Coexist size ss) (across : ∀ r ∈ rs, ∀ s ∈ ss, r.Compatible s) :
    Coexist size (rs ++ ss) where
  forward := List.forall_mem_append.mpr ⟨h.forward, h'.forward⟩
  inside := List.forall_mem_append.mpr ⟨h.inside, h'.inside⟩
  compatible := List.pairwise_append.mpr ⟨h.compatible, h'.compatible, across⟩

/-- Whatever the order in which they were planned, making the last one first is to spare those behind. -/
theorem sparing_mergeSort {bytes : Bytes} (h : Coexist bytes.length rs) :
    Sparing bytes (rs.mergeSort Replacement.notAfter) := by
  have order := ordered_mergeSort rs
  have sorted := (order.perm.pairwise_iff Replacement.Compatible.symm).mpr h.compatible
  exact
    { forward := fun r hr => h.forward r (order.perm.mem_iff.mp hr)
      inside := fun r hr => h.inside r (order.perm.mem_iff.mp hr)
      ascending := order.ascending.imp fun before => by omega
      spares := by
        apply List.Pairwise.imp_of_mem _ (order.ascending.and sorted)
        intro a b _ hb both
        exact both.2.spares (h.forward b (order.perm.mem_iff.mp hb)) both.1 }

/-- **Splicing leaves alone what no replacement covers.** -/
theorem changedWithin_spliceBytes {bytes : Bytes} (h : Coexist bytes.length rs) :
    ChangedWithin rs 0 bytes (spliceBytes bytes rs) := by
  obtain ⟨tail, spliced, changed⟩ := h.sparing_mergeSort.foldr_applyTo _ (fun r hr => List.mem_mergeSort.mp hr) 0
    (Nat.zero_le _) fun _ _ => Nat.zero_le _
  rw [spliceBytes, spliced]
  exact changed

end Coexist

end Remedy
