import Remedy.Json.Value

/-!
Setting a key of an object: it keeps its place if it is there, and comes last if it is not.
-/

namespace Remedy.Json

variable {α : Type} {fields : List (String × α)} {key : String}

/-- A key that is not there yet comes last. -/
theorem put_of_ne (h : ∀ kv ∈ fields, kv.1 ≠ key) (value : α) : put fields key value = fields ++ [(key, value)] := by
  induction fields with
  | nil => rfl
  | cons kv rest ih =>
    have other : (kv.1 == key) = false := by simpa using h kv List.mem_cons_self
    rw [put, other, ih fun kv' hkv => h kv' (List.mem_cons_of_mem kv hkv)]
    rfl

/-- A key that is there keeps its place. -/
theorem put_middle {front back : List (String × α)} (first : ∀ kv ∈ front, kv.1 ≠ key) (old value : α) :
    put (front ++ (key, old) :: back) key value = front ++ (key, value) :: back := by
  induction front with
  | nil => simp [put]
  | cons kv rest ih =>
    have other : (kv.1 == key) = false := by simpa using first kv List.mem_cons_self
    rw [List.cons_append, put, other, ih fun kv' h => first kv' (List.mem_cons_of_mem kv h)]
    rfl

theorem mem_put {kv : String × α} {value : α} (h : kv ∈ put fields key value) : kv = (key, value) ∨ kv ∈ fields := by
  induction fields with
  | nil => exact Or.inl (List.mem_singleton.mp h)
  | cons first rest ih =>
    rw [put] at h
    split at h
    · next same =>
      rcases List.mem_cons.mp h with rfl | later
      · exact Or.inl (by rw [beq_iff_eq.mp same])
      · exact Or.inr (List.mem_cons_of_mem _ later)
    · rcases List.mem_cons.mp h with rfl | later
      · exact Or.inr List.mem_cons_self
      · exact (ih later).imp_right (List.mem_cons_of_mem _)

theorem mem_foldl_put {kv : String × α} {added : List (String × α)}
    (h : kv ∈ added.foldl (fun fields kv => put fields kv.1 kv.2) fields) : kv ∈ added ∨ kv ∈ fields := by
  induction added generalizing fields with
  | nil => exact Or.inr h
  | cons first rest ih =>
    rcases ih h with later | put
    · exact Or.inl (List.mem_cons_of_mem first later)
    · refine (mem_put put).imp_left ?_
      rintro rfl
      exact List.mem_cons_self

end Remedy.Json
