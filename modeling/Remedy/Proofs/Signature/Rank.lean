import Mathlib.Data.List.Sort
import Mathlib.Data.Prod.Lex
import Mathlib.Data.String.Basic
import Remedy.Signature.Score

/-!
The order in which candidates are ranked. It is the order of their keys: the length of the path, the path, the line and the
column, one after the other, once the scores have been compared. The first of the ranked candidates is the best one, and if
no two candidates have the same key, it does not matter in which order they were given.
-/

namespace Remedy

namespace Candidate

/-- What decides between candidates of the same score. -/
def rankKey (c : Candidate) : Nat ×ₗ String ×ₗ Int ×ₗ Int :=
  toLex (c.file.length, toLex (c.file, toLex (c.location.line, c.location.column)))

theorem precedes_iff (c d : Candidate) : c.precedes d = true ↔ c.rankKey ≤ d.rankKey := by
  simp only [rankKey, Prod.Lex.toLex_le_toLex]
  by_cases length : c.file.length = d.file.length
  · by_cases file : c.file = d.file
    · by_cases line : c.location.line = d.location.line
      · simp [precedes, file, line]
      · simp [precedes, file, line]
    · simp [precedes, length, file]
  · simp [precedes, length]

end Candidate

namespace Scored

variable {a b c : Scored}

theorem precedes_iff : a.precedes b = true ↔ b.1 < a.1 ∨ a.1 = b.1 ∧ a.2.rankKey ≤ b.2.rankKey := by
  rw [precedes]
  by_cases same : a.1 = b.1
  · simp [same, Candidate.precedes_iff]
  · simp [same]

theorem precedes_trans (a b c : Scored) (ab : a.precedes b = true) (bc : b.precedes c = true) : a.precedes c = true := by
  rw [precedes_iff] at ab bc ⊢
  rcases ab with better | ⟨same, before⟩
  · rcases bc with better' | ⟨same', -⟩
    · exact Or.inl (Nat.lt_trans better' better)
    · exact Or.inl (same' ▸ better)
  · rcases bc with better' | ⟨same', before'⟩
    · exact Or.inl (same.symm ▸ better')
    · exact Or.inr ⟨same.trans same', le_trans before before'⟩

theorem precedes_total (a b : Scored) : (a.precedes b || b.precedes a) = true := by
  rw [Bool.or_eq_true, precedes_iff, precedes_iff]
  rcases Nat.lt_trichotomy a.1 b.1 with worse | same | better
  · exact Or.inr (Or.inl worse)
  · exact (le_total a.2.rankKey b.2.rankKey).imp (fun before => Or.inr ⟨same, before⟩) fun before =>
      Or.inr ⟨same.symm, before⟩
  · exact Or.inl (Or.inl better)

/-- Candidates before and after each other are level in all that counts. -/
theorem precedes_antisymm (ab : a.precedes b = true) (ba : b.precedes a = true) :
    a.1 = b.1 ∧ a.2.rankKey = b.2.rankKey := by
  rw [precedes_iff] at ab ba
  rcases ab with better | ⟨same, before⟩
  · rcases ba with better' | ⟨same', -⟩
    · exact absurd better (Nat.lt_asymm better')
    · exact absurd same' (Nat.ne_of_lt better)
  · rcases ba with better' | ⟨-, before'⟩
    · exact absurd same (Nat.ne_of_lt better')
    · exact ⟨same, le_antisymm before before'⟩

end Scored

namespace Signature

/-- Only a tag of another name scores nothing. -/
theorem score_pos_iff (s : Signature) (c : Candidate) : 0 < s.score c ↔ Text.lower c.tag = Text.lower s.tag := by
  rw [score]
  constructor
  · intro positive
    by_contra other
    rw [if_neg (by simpa using Ne.symm other)] at positive
    exact Nat.lt_irrefl 0 positive
  · intro same
    have base : 0 < weights.tag := by decide
    rw [if_pos (by simpa using same.symm)]
    omega

theorem mem_rank_iff (s : Signature) (cs : List Candidate) (a : Scored) :
    a ∈ s.rank cs ↔ a.2 ∈ cs ∧ a.1 = s.score a.2 ∧ 0 < a.1 := by
  obtain ⟨score, c⟩ := a
  rw [rank, List.mem_mergeSort, List.mem_filter, List.mem_map, decide_eq_true_eq]
  constructor
  · rintro ⟨⟨d, member, same⟩, positive⟩
    obtain ⟨rfl, rfl⟩ := Prod.mk.inj same
    exact ⟨member, rfl, positive⟩
  · rintro ⟨member, same, positive⟩
    exact ⟨⟨c, member, Prod.ext same.symm rfl⟩, positive⟩

/-- The best candidate: one of the tag, with the highest score, and of those with that score the first by its key. -/
structure IsBest (s : Signature) (cs : List Candidate) (best : Scored) : Prop where
  member : best.2 ∈ cs
  score : best.1 = s.score best.2
  tag : Text.lower best.2.tag = Text.lower s.tag
  greatest : ∀ d ∈ cs, s.score d < best.1 ∨ s.score d = best.1 ∧ best.2.rankKey ≤ d.rankKey

theorem rank_eq_nil_iff (s : Signature) (cs : List Candidate) :
    s.rank cs = [] ↔ ∀ d ∈ cs, Text.lower d.tag ≠ Text.lower s.tag := by
  rw [List.eq_nil_iff_forall_not_mem]
  constructor
  · intro unranked d member same
    exact unranked (s.score d, d) ((s.mem_rank_iff cs _).mpr ⟨member, rfl, (s.score_pos_iff d).mpr same⟩)
  · intro other a ranked
    obtain ⟨member, score, positive⟩ := (s.mem_rank_iff cs a).mp ranked
    exact other a.2 member ((s.score_pos_iff a.2).mp (score ▸ positive))

theorem isBest_of_head? {s : Signature} {cs : List Candidate} {best : Scored} (h : (s.rank cs).head? = some best) :
    s.IsBest cs best := by
  obtain ⟨rest, ranked⟩ := List.head?_eq_some_iff.mp h
  have first : best ∈ s.rank cs := ranked ▸ List.mem_cons_self
  obtain ⟨member, score, positive⟩ := (s.mem_rank_iff cs best).mp first
  refine ⟨member, score, (s.score_pos_iff best.2).mp (score ▸ positive), fun d given => ?_⟩
  by_cases fits : 0 < s.score d
  · -- Whatever fits at all is ranked, and nothing ranked comes before the first.
    have later : (s.score d, d) ∈ best :: rest := ranked ▸ (s.mem_rank_iff cs _).mpr ⟨given, rfl, fits⟩
    rcases List.mem_cons.mp later with same | later
    · rw [← same]
      exact Or.inr ⟨rfl, le_rfl⟩
    · have sorted : (best :: rest).Pairwise fun a b => a.precedes b = true := by
        rw [← ranked, rank]
        exact List.pairwise_mergeSort Scored.precedes_trans Scored.precedes_total _
      have before := Scored.precedes_iff.mp (List.rel_of_pairwise_cons sorted later)
      exact before.imp id fun ⟨same, key⟩ => ⟨same.symm, key⟩
  · exact Or.inl (Nat.lt_of_le_of_lt (Nat.le_of_not_lt fits) positive)

/-- Where keys tell candidates apart, the order in which they are given does not matter. -/
theorem rank_perm (s : Signature) {cs ds : List Candidate} (perm : cs.Perm ds)
    (apart : cs.Pairwise fun c d => c.rankKey ≠ d.rankKey) : s.rank cs = s.rank ds := by
  have ranked : (s.rank cs).Perm (s.rank ds) :=
    (List.mergeSort_perm _ _).trans (((perm.map _).filter _).trans (List.mergeSort_perm _ _).symm)
  -- Both lists are sorted and have the same members, so they can only differ where two members are level.
  refine ranked.eq_of_pairwise (fun a b ha hb ab ba => ?_)
    (List.pairwise_mergeSort Scored.precedes_trans Scored.precedes_total _)
    (List.pairwise_mergeSort Scored.precedes_trans Scored.precedes_total _)
  obtain ⟨score, key⟩ := Scored.precedes_antisymm ab ba
  have hb' := perm.mem_iff.mpr ((s.mem_rank_iff ds b).mp hb).1
  have injective := List.inj_on_of_nodup_map (List.pairwise_map.mpr apart : (cs.map Candidate.rankKey).Nodup)
  exact Prod.ext score (injective ((s.mem_rank_iff cs a).mp ha).1 hb' key)

end Signature

end Remedy
