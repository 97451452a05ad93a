import Remedy.Edit.Plan
import Remedy.Proofs.Edit.Substitution

/-!
Overlaps in a plan. A batch that overlaps an edit taken before is refused, and a refused batch leaves the plan as it is.
Nothing compares the edits of one batch with each other, so the edits of a plan keep apart just as long as every batch
that is taken keeps apart in itself.
-/

namespace Remedy.EditPlan

/-- What can be asked of a plan: to claim an attribute of the element that begins at a place, or to take a batch. -/
inductive Request where
  | claim (element : Nat) (name : String)
  | add (batch : List Replacement)

/-- The plan after a request. -/
def answer (p : EditPlan) : Request → EditPlan
  | .claim element name => (p.claim element name).2
  | .add batch => (p.add? batch).getD p

/-- The plan after a sequence of requests, from the empty one. -/
def after (requests : List Request) : EditPlan := requests.foldl answer empty

/-- The batches of a sequence of requests that are taken. -/
def taken (p : EditPlan) : List Request → List (List Replacement)
  | [] => []
  | .claim element name :: rest => taken (p.answer (.claim element name)) rest
  | .add batch :: rest =>
    if p.conflicts batch then taken p rest else batch :: taken (p.answer (.add batch)) rest

/-- No stretch of one list overlaps one of the other. -/
def Apart (rs ss : List Replacement) : Prop := ∀ r ∈ rs, ∀ s ∈ ss, r.overlaps s = false

/-- No two stretches of a list overlap. -/
def KeepsApart (rs : List Replacement) : Prop := rs.Pairwise fun a b => a.overlaps b = false

instance (rs : List Replacement) : Decidable (KeepsApart rs) := by
  unfold KeepsApart
  infer_instance

theorem Apart.symm {rs ss : List Replacement} (h : Apart rs ss) : Apart ss rs := by
  intro s hs r hr
  rw [Replacement.overlaps_comm]
  exact h r hr s hs

/-! ### One request -/

variable (p : EditPlan) (batch : List Replacement)

theorem conflicts_iff : p.conflicts batch = true ↔ ∃ r ∈ batch, ∃ s ∈ p.edits, r.overlaps s = true := by
  simp [conflicts]

theorem not_conflicts_iff : p.conflicts batch = false ↔ Apart batch p.edits := by
  simp [conflicts, Apart]

theorem add?_eq_none_iff : p.add? batch = none ↔ p.conflicts batch = true := by
  simp [add?]

@[simp] theorem edits_claim (element : Nat) (name : String) : (p.answer (.claim element name)).edits = p.edits := by
  simp only [answer, claim]
  split <;> rfl

theorem answer_add_refused (h : p.conflicts batch = true) : p.answer (.add batch) = p := by
  simp [answer, add?, h]

theorem edits_add_taken (h : p.conflicts batch = false) : (p.answer (.add batch)).edits = p.edits ++ batch := by
  simp [answer, add?, h]

/-- Taking a batch for a fix is the same request, with a word about the fix if it is refused. -/
theorem addFor_fst (f : Fix) : (p.addFor batch f).1 = p.answer (.add batch) := by
  simp only [addFor, answer]
  cases p.add? batch <;> rfl

/-! ### A sequence of requests -/

/-- The edits of a plan are those it had and those of the batches taken, in order. -/
theorem edits_foldl (requests : List Request) :
    (requests.foldl answer p).edits = p.edits ++ (p.taken requests).flatten := by
  induction requests generalizing p with
  | nil => simp [taken]
  | cons request rest ih =>
    rw [List.foldl_cons, ih]
    cases request with
    | claim element name => rw [taken, edits_claim]
    | add batch =>
      rw [taken]
      split
      next h => rw [answer_add_refused p batch h]
      next h =>
        rw [edits_add_taken p batch (Bool.eq_false_iff.mpr h), List.flatten_cons, List.append_assoc]

/-- Every batch taken keeps apart from the edits the plan had and from the batches taken before. -/
theorem taken_apart (requests : List Request) :
    (∀ batch ∈ p.taken requests, Apart batch p.edits) ∧ (p.taken requests).Pairwise Apart := by
  induction requests generalizing p with
  | nil => simp [taken]
  | cons request rest ih =>
    cases request with
    | claim element name =>
      have later := ih (p.answer (.claim element name))
      rwa [edits_claim] at later
    | add batch =>
      rw [taken]
      split
      next h => exact ih p
      next h =>
        have free := Bool.eq_false_iff.mpr h
        -- Batches taken later are apart from what the plan holds by then, this batch included.
        obtain ⟨behind, apart⟩ := ih (p.answer (.add batch))
        rw [edits_add_taken p batch free] at behind
        constructor
        · intro other member
          rcases List.mem_cons.mp member with rfl | member
          · exact (not_conflicts_iff p other).mp free
          · intro r hr s hs
            exact behind other member r hr s (List.mem_append_left _ hs)
        · refine List.pairwise_cons.mpr ⟨fun other member => ?_, apart⟩
          apply Apart.symm
          intro r hr s hs
          exact behind other member r hr s (List.mem_append_right _ hs)

/-- **Edits of different batches never overlap.** After any requests the plan holds the batches that were taken, one after
the other, and none of these overlaps another. So its edits keep apart exactly if each batch taken keeps apart in itself.
A further batch is refused exactly if one of its edits overlaps one that is held, and then the plan stays as it is. -/
theorem overlaps_stay_in_batches (requests : List Request) :
    (after requests).edits = (taken empty requests).flatten ∧
      (taken empty requests).Pairwise Apart ∧
      (KeepsApart (after requests).edits ↔ ∀ batch ∈ taken empty requests, KeepsApart batch) ∧
      ∀ batch : List Replacement,
        ((after requests).add? batch = none ↔ ∃ r ∈ batch, ∃ s ∈ (after requests).edits, r.overlaps s = true) ∧
        ((after requests).add? batch = none → (after requests).answer (.add batch) = after requests) := by
  have held : (after requests).edits = (taken empty requests).flatten := by
    rw [after, edits_foldl]
    rfl
  have apart := (taken_apart empty requests).2
  refine ⟨held, apart, ?_, fun batch => ⟨?_, fun refused => ?_⟩⟩
  · rw [held, KeepsApart, List.pairwise_flatten]
    exact and_iff_left apart
  · rw [add?_eq_none_iff, conflicts_iff]
  · exact answer_add_refused _ batch ((add?_eq_none_iff _ batch).mp refused)

/-- A batch that overlaps itself is taken, and the plan then holds two edits that overlap. -/
theorem self_overlapping_batch_taken : ¬ KeepsApart (after [.add [⟨0, 3, "a"⟩, ⟨1, 2, "b"⟩]]).edits := by
  decide

end Remedy.EditPlan
