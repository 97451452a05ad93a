import Mathlib.Data.List.Sort

/-!
Lists put in order without disturbing ties. What is tied keeps the order it was given in, and this makes the result of
sorting the only one there is.
-/

namespace Remedy.StableOrder

variable {α : Type} {le : α → α → Bool}

/-- Whether neither of two items comes before the other. -/
def tied (le : α → α → Bool) (a b : α) : Bool := le a b && le b a

/-- Sorting leaves items that are tied with each other as they stand among themselves. -/
theorem filter_mergeSort (trans : ∀ a b c, le a b → le b c → le a c) (total : ∀ a b, le a b || le b a)
    (p : α → Bool) (ties : ∀ a b, p a → p b → le a b) (l : List α) : (l.mergeSort le).filter p = l.filter p := by
  have kept : (l.filter p).Pairwise fun a b => le a b = true := by
    apply List.Pairwise.imp_of_mem (R := fun _ _ => True) _ (List.pairwise_of_forall fun _ _ => trivial)
    intro a b ha hb _
    exact ties a b (List.mem_filter.mp ha).2 (List.mem_filter.mp hb).2
  have sub : (l.filter p).Sublist (l.mergeSort le) := List.sublist_mergeSort trans total kept List.filter_sublist
  have inside : (l.filter p).Sublist ((l.mergeSort le).filter p) := by
    simpa only [List.filter_filter, Bool.and_self] using sub.filter p
  exact (inside.eq_of_length ((List.mergeSort_perm l le).filter p).length_eq.symm).symm

/-- A list in which what passes a test stands before what does not. -/
theorem eq_filter_append_filter {p : α → Bool} {l : List α} (h : l.Pairwise fun a b => p b = true → p a = true) :
    l = l.filter p ++ l.filter fun a => !p a := by
  induction l with
  | nil => rfl
  | cons a l ih =>
    by_cases ha : p a = true
    · rw [List.filter_cons_of_pos ha, List.filter_cons_of_neg (by simp [ha]), List.cons_append, ← ih h.of_cons]
    · have nothing : l.filter p = [] := by
        apply List.filter_eq_nil_iff.mpr
        intro b hb hp
        exact ha (List.rel_of_pairwise_cons h hb hp)
      have all : l.filter (fun a => !p a) = l := by
        have := ih h.of_cons
        rw [nothing, List.nil_append] at this
        exact this.symm
      rw [List.filter_cons_of_neg ha, List.filter_cons_of_pos (by simp [ha]), nothing, all, List.nil_append]

private theorem mem_of_same_ties (total : ∀ a b, le a b || le b a) {s t : List α}
    (same : ∀ a, s.filter (tied le a) = t.filter (tied le a)) {b : α} (h : b ∈ t) : b ∈ s := by
  have self : tied le b b = true := by simpa [tied] using total b b
  have inFilter : b ∈ s.filter (tied le b) := by
    rw [same b]
    exact List.mem_filter.mpr ⟨h, self⟩
  exact (List.mem_filter.mp inFilter).1

/-- Two sorted lists with the same items in the same order among those that are tied are one and the same. -/
theorem eq_of_same_ties (total : ∀ a b, le a b || le b a) {s t : List α} (sortedS : s.Pairwise fun a b => le a b = true)
    (sortedT : t.Pairwise fun a b => le a b = true) (same : ∀ a, s.filter (tied le a) = t.filter (tied le a)) :
    s = t := by
  induction s generalizing t with
  | nil =>
    cases t with
    | nil => rfl
    | cons b t => exact absurd (mem_of_same_ties total same List.mem_cons_self) List.not_mem_nil
  | cons a s ih =>
    cases t with
    | nil => exact absurd (mem_of_same_ties total (fun c => (same c).symm) List.mem_cons_self) List.not_mem_nil
    | cons b t =>
      have self (c : α) : le c c = true := by simpa using total c c
      -- Each head stands before everything in its own list, and is in the other one too.
      have ab : le a b = true := by
        rcases List.mem_cons.mp (mem_of_same_ties total same List.mem_cons_self) with rfl | h
        · exact self b
        · exact List.rel_of_pairwise_cons sortedS h
      have ba : le b a = true := by
        rcases List.mem_cons.mp (mem_of_same_ties total (fun c => (same c).symm) List.mem_cons_self) with rfl | h
        · exact self a
        · exact List.rel_of_pairwise_cons sortedT h
      have heads : a = b := by
        have h := same a
        rw [List.filter_cons_of_pos (by simp [tied, self]), List.filter_cons_of_pos (by simp [tied, ab, ba])] at h
        exact (List.cons.inj h).1
      subst heads
      congr 1
      apply ih sortedS.of_cons sortedT.of_cons
      intro c
      have h := same c
      by_cases hc : tied le c a = true
      · rw [List.filter_cons_of_pos hc, List.filter_cons_of_pos hc] at h
        exact (List.cons.inj h).2
      · rwa [List.filter_cons_of_neg hc, List.filter_cons_of_neg hc] at h

theorem perm_of_mergeSort_eq {s t : List α} (h : s.mergeSort le = t.mergeSort le) : s.Perm t := by
  have sorted := (List.mergeSort_perm s le).symm
  rw [h] at sorted
  exact sorted.trans (List.mergeSort_perm t le)

/-- Sorting what passes a test comes to the same as sorting all of it. -/
theorem filter_mergeSort_comm (trans : ∀ a b c, le a b → le b c → le a c) (total : ∀ a b, le a b || le b a)
    (p : α → Bool) (l : List α) : (l.mergeSort le).filter p = (l.filter p).mergeSort le := by
  apply eq_of_same_ties total ((List.pairwise_mergeSort trans total l).filter p) (List.pairwise_mergeSort trans total _)
  intro a
  have ties (b c : α) (hb : tied le a b = true) (hc : tied le a c = true) : le b c = true := by
    rw [tied, Bool.and_eq_true] at hb hc
    exact trans b a c hb.2 hc.1
  rw [List.filter_comm, filter_mergeSort trans total _ ties, filter_mergeSort trans total _ ties, List.filter_comm]

/-! ### Blocks in another order -/

/-- Of the blocks at most one has anything in it, so their order makes no difference. -/
theorem flatten_eq_of_perm {blocks others : List (List α)} (perm : blocks.Perm others)
    (lone : blocks.Pairwise fun s t => s = [] ∨ t = []) : blocks.flatten = others.flatten := by
  induction perm with
  | nil => rfl
  | cons s _ ih => rw [List.flatten_cons, List.flatten_cons, ih lone.of_cons]
  | swap s t rest =>
    rcases List.rel_of_pairwise_cons lone List.mem_cons_self with rfl | rfl
    · simp
    · simp
  | trans first _ ih ih' =>
    rw [ih lone]
    exact ih' ((first.pairwise_iff fun {_ _} h => h.symm).mp lone)

/-- Blocks in another order come to the same sorted list if nothing in one block is tied with anything in another. -/
theorem mergeSort_flatten_perm (trans : ∀ a b c, le a b → le b c → le a c) (total : ∀ a b, le a b || le b a)
    {blocks others : List (List α)} (perm : blocks.Perm others)
    (untied : blocks.Pairwise fun s t => ∀ a ∈ s, ∀ b ∈ t, tied le a b = false) :
    blocks.flatten.mergeSort le = others.flatten.mergeSort le := by
  apply eq_of_same_ties total (List.pairwise_mergeSort trans total _) (List.pairwise_mergeSort trans total _)
  intro a
  have ties (b c : α) (hb : tied le a b = true) (hc : tied le a c = true) : le b c = true := by
    rw [tied, Bool.and_eq_true] at hb hc
    exact trans b a c hb.2 hc.1
  rw [filter_mergeSort trans total _ ties, filter_mergeSort trans total _ ties, List.filter_flatten, List.filter_flatten]
  apply flatten_eq_of_perm (perm.map _)
  rw [List.pairwise_map]
  apply untied.imp
  intro s t differ
  -- Whatever is left of both blocks would be tied with `a`, and so with each other.
  by_contra both
  rw [not_or] at both
  obtain ⟨b, hb⟩ := List.exists_mem_of_ne_nil _ both.1
  obtain ⟨c, hc⟩ := List.exists_mem_of_ne_nil _ both.2
  obtain ⟨inS, tiedB⟩ := List.mem_filter.mp hb
  obtain ⟨inT, tiedC⟩ := List.mem_filter.mp hc
  have apart := differ b inS c inT
  rw [tied, ties b c tiedB tiedC, ties c b tiedC tiedB] at apart
  cases apart

/-- There is one order only for items that are not tied. -/
theorem mergeSort_of_perm (trans : ∀ a b c, le a b → le b c → le a c) (total : ∀ a b, le a b || le b a) {s t : List α}
    (perm : s.Perm t) (untied : s.Pairwise fun a b => tied le a b = false) : s.mergeSort le = t.mergeSort le := by
  have blocks := mergeSort_flatten_perm trans total (perm.map fun a => [a])
    (List.pairwise_map.mpr (untied.imp fun apart b hb c hc => by
      rwa [List.mem_singleton.mp hb, List.mem_singleton.mp hc]))
  simpa only [← List.flatMap_def, List.flatMap_singleton'] using blocks

/-! ### Items without repetitions -/

section

variable [BEq α] [LawfulBEq α]

theorem nodup_eraseDups (items : List α) : items.eraseDups.Nodup := by
  match items with
  | [] => exact .nil
  | a :: rest =>
    rw [List.eraseDups_cons]
    refine List.nodup_cons.mpr ⟨fun member => ?_, nodup_eraseDups (rest.filter fun b => !b == a)⟩
    have differs := (List.mem_filter.mp (List.mem_eraseDups.mp member)).2
    simp at differs
termination_by items.length
decreasing_by exact Nat.lt_succ_of_le (List.length_filter_le _ rest)

/-- Where no two items are tied, what a list comes to when it is sorted and its repetitions are dropped is told by what is
in it. -/
theorem mergeSort_eraseDups_congr (trans : ∀ a b c, le a b → le b c → le a c) (total : ∀ a b, le a b || le b a)
    (untied : ∀ a b, tied le a b = true → a = b) {s t : List α} (same : ∀ a, a ∈ s ↔ a ∈ t) :
    s.eraseDups.mergeSort le = t.eraseDups.mergeSort le := by
  have perm : s.eraseDups.Perm t.eraseDups := by
    rw [List.perm_ext_iff_of_nodup (nodup_eraseDups s) (nodup_eraseDups t)]
    intro a
    rw [List.mem_eraseDups, List.mem_eraseDups, same]
  refine mergeSort_of_perm trans total perm ((nodup_eraseDups s).imp fun differ => ?_)
  exact Bool.eq_false_iff.mpr fun level => differ (untied _ _ level)

end

end Remedy.StableOrder
