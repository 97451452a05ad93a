import Mathlib.Data.List.Perm.Basic
import Remedy.Fix.Distinct
import Remedy.Proofs.Json.Equality

/-!
Dropping repeated fixes looks at nothing but which identities came before.
-/

namespace Remedy.Fix

theorem isRepeated_iff {before : List Fix} {f : Fix} :
    isRepeated before f = true ↔ ∃ g ∈ before, g.identity = f.identity := by
  simp [isRepeated]

theorem isRepeated_append (xs ys : List Fix) (f : Fix) :
    isRepeated (xs ++ ys) f = (isRepeated xs f || isRepeated ys f) := List.any_append

theorem isRepeated_singleton_iff {f g : Fix} : isRepeated [g] f = true ↔ g.identity = f.identity := by
  simp [isRepeated_iff]

theorem isRepeated_of_identity {before : List Fix} {f g : Fix} (h : f.identity = g.identity) :
    isRepeated before f = isRepeated before g := by
  apply Bool.eq_iff_iff.mpr
  rw [isRepeated_iff, isRepeated_iff, h]

/-- A repeated fix may stand among those before without being noticed. -/
theorem isRepeated_insert {before : List Fix} {f : Fix} (h : isRepeated before f = true) (more : List Fix) (g : Fix) :
    isRepeated (before ++ f :: more) g = isRepeated (before ++ more) g := by
  apply Bool.eq_iff_iff.mpr
  simp only [isRepeated_iff, List.mem_append, List.mem_cons]
  obtain ⟨first, member, same⟩ := isRepeated_iff.mp h
  constructor
  · rintro ⟨e, old | rfl | new, equal⟩
    · exact ⟨e, Or.inl old, equal⟩
    · exact ⟨first, Or.inl member, same.trans equal⟩
    · exact ⟨e, Or.inr new, equal⟩
  · rintro ⟨e, old | new, equal⟩
    · exact ⟨e, Or.inl old, equal⟩
    · exact ⟨e, Or.inr (Or.inr new), equal⟩

theorem distinctFrom_cons (before : List Fix) (f : Fix) (rest : List Fix) :
    distinctFrom before (f :: rest) =
      if isRepeated before f then ((distinctFrom before rest).1, .duplicate f :: (distinctFrom before rest).2)
      else (f :: (distinctFrom (before ++ [f]) rest).1, (distinctFrom (before ++ [f]) rest).2) := rfl

theorem distinctFrom_congr {before other : List Fix} (same : ∀ f, isRepeated before f = isRepeated other f)
    (fixes : List Fix) : distinctFrom before fixes = distinctFrom other fixes := by
  induction fixes generalizing before other with
  | nil => rfl
  | cons f rest ih =>
    have next : ∀ g, isRepeated (before ++ [f]) g = isRepeated (other ++ [f]) g := by
      intro g
      rw [isRepeated_append, isRepeated_append, same]
    rw [distinctFrom_cons, distinctFrom_cons, same, ih same, ih next]

/-- What follows some fixes is gone through as if they all stood before it, the repeated ones, too. -/
theorem distinctFrom_append (before xs ys : List Fix) :
    distinctFrom before (xs ++ ys) =
      ((distinctFrom before xs).1 ++ (distinctFrom (before ++ xs) ys).1,
        (distinctFrom before xs).2 ++ (distinctFrom (before ++ xs) ys).2) := by
  induction xs generalizing before with
  | nil => rw [List.nil_append, List.append_nil]; rfl
  | cons f xs ih =>
    rw [List.cons_append, distinctFrom_cons, distinctFrom_cons]
    split
    next repeated =>
      -- A repeat among those gone through is not noticed by the ones that follow.
      have unnoticed : distinctFrom (before ++ f :: xs) ys = distinctFrom (before ++ xs) ys :=
        distinctFrom_congr (isRepeated_insert repeated xs) ys
      rw [ih, unnoticed]
      rfl
    next =>
      rw [ih, List.append_assoc, List.singleton_append]
      rfl

/-! ### What is kept -/

theorem distinctFrom_sublist (before fixes : List Fix) : (distinctFrom before fixes).1.Sublist fixes := by
  induction fixes generalizing before with
  | nil => exact .slnil
  | cons f rest ih =>
    rw [distinctFrom_cons]
    split
    · exact (ih before).cons f
    · exact (ih (before ++ [f])).cons_cons f

theorem not_isRepeated_of_mem_distinctFrom {before fixes : List Fix} {f : Fix} (h : f ∈ (distinctFrom before fixes).1) :
    isRepeated before f = false := by
  induction fixes generalizing before with
  | nil => cases h
  | cons g rest ih =>
    rw [distinctFrom_cons] at h
    split at h
    next => exact ih h
    next new =>
      rcases List.mem_cons.mp h with rfl | later
      · exact Bool.eq_false_iff.mpr new
      · have both := ih later
        rw [isRepeated_append, Bool.or_eq_false_iff] at both
        exact both.1

/-- Of the fixes kept, no two say the same. -/
theorem pairwise_distinctFrom (before fixes : List Fix) :
    (distinctFrom before fixes).1.Pairwise fun f g => f.identity ≠ g.identity := by
  induction fixes generalizing before with
  | nil => exact .nil
  | cons f rest ih =>
    rw [distinctFrom_cons]
    split
    · exact ih before
    · refine .cons (fun g later same => ?_) (ih (before ++ [f]))
      have new := not_isRepeated_of_mem_distinctFrom later
      rw [isRepeated_append, Bool.or_eq_false_iff] at new
      exact Bool.eq_false_iff.mp new.2 (isRepeated_singleton_iff.mpr same)

/-- Where no two fixes say the same, all are kept. -/
theorem distinctFrom_of_pairwise {before fixes : List Fix} (new : ∀ f ∈ fixes, isRepeated before f = false)
    (differ : fixes.Pairwise fun f g => f.identity ≠ g.identity) : (distinctFrom before fixes).1 = fixes := by
  induction fixes generalizing before with
  | nil => rfl
  | cons f rest ih =>
    have later (g : Fix) (member : g ∈ rest) : isRepeated (before ++ [f]) g = false := by
      rw [isRepeated_append, new g (List.mem_cons_of_mem f member), Bool.false_or, Bool.eq_false_iff, ne_eq, isRepeated_singleton_iff]
      exact List.rel_of_pairwise_cons differ member
    rw [distinctFrom_cons, new f List.mem_cons_self, if_neg Bool.false_ne_true]
    exact congrArg (f :: ·) (ih later differ.of_cons)

/-- Each fix is kept, or says the same as one that came before or is kept. -/
theorem exists_mem_distinctFrom {before fixes : List Fix} {f : Fix} (h : f ∈ fixes) :
    isRepeated before f = true ∨ ∃ g ∈ (distinctFrom before fixes).1, g.identity = f.identity := by
  induction fixes generalizing before with
  | nil => cases h
  | cons e rest ih =>
    rw [distinctFrom_cons]
    split
    next repeated =>
      rcases List.mem_cons.mp h with rfl | later
      · exact Or.inl repeated
      · exact ih later
    next new =>
      rcases List.mem_cons.mp h with rfl | later
      · exact Or.inr ⟨f, List.mem_cons_self, rfl⟩
      · rcases @ih (before ++ [e]) later with seen | ⟨g, member, same⟩
        · rw [isRepeated_append, Bool.or_eq_true] at seen
          rcases seen with old | same
          · exact Or.inl old
          · exact Or.inr ⟨e, List.mem_cons_self, isRepeated_singleton_iff.mp same⟩
        · exact Or.inr ⟨g, List.mem_cons_of_mem e member, same⟩

/-- A fix that says the same as one before it makes no difference to what is kept. -/
theorem distinct_insert {before : List Fix} {f : Fix} (repeated : isRepeated before f = true) (after : List Fix) :
    (distinct (before ++ f :: after)).1 = (distinct (before ++ after)).1 := by
  rw [distinct, distinct, distinctFrom_append, distinctFrom_append, List.nil_append, distinctFrom_cons, if_pos repeated]

/-- One more fix is kept or told as repeated. -/
theorem distinct_concat (fixes : List Fix) (f : Fix) :
    distinct (fixes ++ [f]) =
      if isRepeated fixes f then ((distinct fixes).1, (distinct fixes).2 ++ [.duplicate f])
      else ((distinct fixes).1 ++ [f], (distinct fixes).2) := by
  rw [distinct, distinctFrom_append, List.nil_append, distinctFrom_cons, distinct]
  split
  · exact Prod.ext (List.append_nil _) rfl
  · exact Prod.ext rfl (List.append_nil _)

/-- What is kept of two lists with the same fixes says the same, in one order or another. -/
theorem identities_perm {fixes others : List Fix} (h : fixes.Perm others) :
    ((distinct fixes).1.map identity).Perm ((distinct others).1.map identity) := by
  have nodup (fs : List Fix) : ((distinct fs).1.map identity).Nodup :=
    List.pairwise_map.mpr (pairwise_distinctFrom [] fs)
  have members (fs : List Fix) (i : Json) : i ∈ (distinct fs).1.map identity ↔ ∃ f ∈ fs, f.identity = i := by
    rw [List.mem_map]
    constructor
    · rintro ⟨f, kept, rfl⟩
      exact ⟨f, (distinctFrom_sublist [] fs).subset kept, rfl⟩
    · rintro ⟨f, member, rfl⟩
      exact (exists_mem_distinctFrom member).resolve_left Bool.false_ne_true
  -- Without repeats, it is enough that they have the same members.
  rw [List.perm_ext_iff_of_nodup (nodup fixes) (nodup others)]
  intro i
  simp only [members, h.mem_iff]

/-- So is whatever is told of each fix by its identity alone. -/
theorem map_distinct_perm {β : Type} [Nonempty β] {told : Fix → β} (same : told.FactorsThrough identity)
    {fixes others : List Fix} (h : fixes.Perm others) :
    ((distinct fixes).1.map told).Perm ((distinct others).1.map told) := by
  obtain ⟨byIdentity, rfl⟩ := (Function.factorsThrough_iff told).mp same
  rw [← List.map_map, ← List.map_map]
  exact (identities_perm h).map byIdentity

end Remedy.Fix
