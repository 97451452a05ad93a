import Mathlib.Data.List.Nodup
import Remedy.Edit.LinePlan
import Remedy.Proofs.Edit.StableOrder

/-!
What a plan of line edits keeps to: no two of its edits overlap, and an attribute is claimed exactly if an edit of the plan
writes it, which only one does. Edits of one batch are compared with each other as well as with those taken before.

A batch that is refused, or of which nothing is left, leaves the plan as it is.
-/

namespace Remedy

namespace LineEdit

theorem overlaps_comm (a b : LineEdit) : a.overlaps b = b.overlaps a := by
  apply Bool.eq_iff_iff.mpr
  simp only [overlaps, Bool.and_eq_true, beq_iff_eq, decide_eq_true_eq]
  constructor
  · rintro ⟨⟨line, first⟩, second⟩
    exact ⟨⟨line.symm, second⟩, first⟩
  · rintro ⟨⟨line, first⟩, second⟩
    exact ⟨⟨line.symm, second⟩, first⟩

theorem notAfter_iff {a b : LineEdit} :
    a.notAfter b = true ↔
      a.line < b.line ∨ a.line = b.line ∧ (a.start < b.start ∨ a.start = b.start ∧ a.stop ≤ b.stop) := by
  rw [notAfter]
  split
  next differ =>
    have := bne_iff_ne.mp differ
    simp only [decide_eq_true_eq]
    omega
  next lines =>
    have line : a.line = b.line := by simpa using lines
    split
    next differ =>
      have := bne_iff_ne.mp differ
      simp only [decide_eq_true_eq]
      omega
    next starts =>
      have start : a.start = b.start := by simpa using starts
      simp only [decide_eq_true_eq]
      omega

theorem notAfter_trans (a b c : LineEdit) (ab : a.notAfter b) (bc : b.notAfter c) : a.notAfter c := by
  rw [notAfter_iff] at *
  omega

theorem notAfter_total (a b : LineEdit) : a.notAfter b || b.notAfter a := by
  rw [Bool.or_eq_true, notAfter_iff, notAfter_iff]
  omega

theorem tied_notAfter {a b : LineEdit} :
    StableOrder.tied notAfter a b = true ↔ a.line = b.line ∧ a.start = b.start ∧ a.stop = b.stop := by
  simp only [StableOrder.tied, Bool.and_eq_true, notAfter_iff]
  omega

end LineEdit

namespace LinePlan

/-- No two edits overlap, the claims are those of the edits, and no attribute is claimed twice. -/
structure Sound (p : LinePlan) : Prop where
  apart : p.edits.Pairwise fun a b => a.overlaps b = false
  claims_eq : p.claims = p.edits.filterMap (·.claim)
  claims_nodup : p.claims.Nodup

theorem sound_empty : Sound empty := ⟨.nil, rfl, .nil⟩

/-- A claim is held if and only if an edit of the plan makes it. -/
theorem Sound.mem_claims_iff {p : LinePlan} (h : p.Sound) (c : Nat × Int × String) :
    c ∈ p.claims ↔ ∃ e ∈ p.edits, e.claim = some c := by
  rw [h.claims_eq, List.mem_filterMap]

/-- Two edits of a plan never make the same claim. -/
theorem Sound.claims_differ {p : LinePlan} (h : p.Sound) :
    p.edits.Pairwise fun a b => ∀ c, a.claim = some c → b.claim ≠ some c := by
  have nodup := h.claims_nodup
  rw [h.claims_eq, List.Nodup, List.pairwise_filterMap] at nodup
  apply nodup.imp
  intro a b differ c ha hb
  exact differ c ha c hb rfl

/-- A plan with an edit that overlaps none of it and claims nothing that is claimed. -/
theorem Sound.append {p : LinePlan} (h : p.Sound) {e : LineEdit} (free : p.edits.any e.overlaps = false)
    (unclaimed : ∀ c, e.claim = some c → c ∉ p.claims) :
    Sound ⟨p.edits ++ [e], p.claims ++ e.claim.toList⟩ where
  apart := by
    refine List.pairwise_append.mpr ⟨h.apart, List.pairwise_singleton .., ?_⟩
    intro a ha b hb
    obtain rfl := List.mem_singleton.mp hb
    rw [LineEdit.overlaps_comm]
    exact Bool.eq_false_iff.mpr (List.any_eq_false.mp free a ha)
  claims_eq := by
    rw [List.filterMap_append, h.claims_eq]
    cases hc : e.claim <;> simp [hc]
  claims_nodup := by
    refine List.nodup_append.mpr ⟨h.claims_nodup, ?_, ?_⟩
    · cases e.claim <;> simp
    · rintro c old d new rfl
      exact unclaimed c (Option.mem_toList.mp new) old

/-! ### Gathering a batch -/

variable (p : LinePlan) (f : Fix)

/-- The plan as it would be with what is gathered so far. -/
def together (b : Batch) : LinePlan := ⟨p.edits ++ b.accepted, p.claims ++ b.claims⟩

theorem sound_gather {edits : List LineEdit} {b : Batch} (h : (p.together b).Sound) :
    (p.together (gather p f edits b)).Sound := by
  induction edits generalizing b with
  | nil => exact h
  | cons e rest ih =>
    rw [gather]
    split
    next => exact ih h
    next unclaimed =>
      split
      next => exact h
      next free =>
        -- Past both guards: nothing claims the same, and nothing overlaps, in the plan or in the batch so far.
        apply ih
        have step := h.append (Bool.eq_false_iff.mpr free) (by
          intro c claimed
          have unmatched := Option.filter_eq_none_iff.mp unclaimed c claimed
          simpa [together] using unmatched)
        simpa only [together, List.append_assoc] using step

/-- Gathering only adds edits, each with its claim. -/
theorem gather_extends (edits : List LineEdit) (b : Batch) :
    ∃ more, (gather p f edits b).accepted = b.accepted ++ more ∧
      (gather p f edits b).claims = b.claims ++ more.filterMap (·.claim) := by
  induction edits generalizing b with
  | nil => exact ⟨[], by simp [gather]⟩
  | cons e rest ih =>
    rw [gather]
    split
    next c => exact ih _
    next =>
      split
      next => exact ⟨[], by simp⟩
      next =>
        obtain ⟨more, accepted, claims⟩ := ih { b with accepted := b.accepted ++ [e], claims := b.claims ++ e.claim.toList }
        refine ⟨e :: more, ?_, ?_⟩
        · rw [accepted, List.append_assoc, List.singleton_append]
        · rw [claims, List.append_assoc]
          cases hc : e.claim <;> simp [hc]

/-- An edit without a claim is taken, or the batch is refused. -/
theorem gather_unclaimed {e : LineEdit} (h : e.claim = none) (rest : List LineEdit) (b : Batch) :
    (gather p f (e :: rest) b).refused = true ∨
      gather p f (e :: rest) b = gather p f rest { b with accepted := b.accepted ++ [e] } := by
  rw [gather]
  simp only [h, Option.filter_none, Option.toList_none, List.append_nil]
  split
  · exact Or.inl rfl
  · exact Or.inr rfl

/-- What is taken of a batch stands in it, in this order. -/
theorem gather_sublist (edits : List LineEdit) (b : Batch) :
    ∃ more, (gather p f edits b).accepted = b.accepted ++ more ∧ more.Sublist edits := by
  induction edits generalizing b with
  | nil => exact ⟨[], by simp [gather], .slnil⟩
  | cons e rest ih =>
    rw [gather]
    split
    next =>
      obtain ⟨more, accepted, sub⟩ := ih _
      exact ⟨more, accepted, sub.cons e⟩
    next =>
      split
      next => exact ⟨[], by simp, List.nil_sublist _⟩
      next =>
        obtain ⟨more, accepted, sub⟩ := ih { b with accepted := b.accepted ++ [e], claims := b.claims ++ e.claim.toList }
        refine ⟨e :: more, ?_, sub.cons_cons e⟩
        rw [accepted, List.append_assoc, List.singleton_append]

/-- A batch that overlaps nothing of a plan, and claims nothing that is claimed there. -/
structure Clear (edits : List LineEdit) : Prop where
  apart : ∀ e ∈ edits, ∀ s ∈ p.edits, e.overlaps s = false
  unclaimed : ∀ e ∈ edits, ∀ c, e.claim = some c → c ∉ p.claims

variable {p}

theorem Clear.of_cons {e : LineEdit} {rest : List LineEdit} (h : p.Clear (e :: rest)) : p.Clear rest :=
  ⟨fun d member => h.apart d (List.mem_cons_of_mem e member), fun d member => h.unclaimed d (List.mem_cons_of_mem e member)⟩

/-- Such a batch is gathered as it would be beside the empty plan, for whichever fix. -/
theorem gather_clear {edits : List LineEdit} (h : p.Clear edits) (f g : Fix) {b b' : Batch}
    (accepted : b.accepted = b'.accepted) (claims : b.claims = b'.claims) (refused : b.refused = b'.refused) :
    (gather p f edits b).accepted = (gather empty g edits b').accepted ∧
      (gather p f edits b).claims = (gather empty g edits b').claims ∧
      (gather p f edits b).refused = (gather empty g edits b').refused := by
  induction edits generalizing b b' with
  | nil => exact ⟨accepted, claims, refused⟩
  | cons e rest ih =>
    -- The plan holds nothing against the edit, so only what was gathered before it can.
    have held : (e.claim.filter fun c => p.claims.contains c || b.claims.contains c) =
        e.claim.filter fun c => empty.claims.contains c || b'.claims.contains c := by
      cases claimed : e.claim with
      | none => rfl
      | some c =>
        have absent : p.claims.contains c = false := by simpa using h.unclaimed e List.mem_cons_self c claimed
        rw [Option.filter_some, Option.filter_some, absent, claims]
        rfl
    have overlaps : (p.edits ++ b.accepted).any e.overlaps = (empty.edits ++ b'.accepted).any e.overlaps := by
      have nothing : p.edits.any e.overlaps = false :=
        List.any_eq_false.mpr fun s member => Bool.eq_false_iff.mp (h.apart e List.mem_cons_self s member)
      rw [List.any_append, nothing, accepted]
      rfl
    rw [gather, gather, held, overlaps]
    split
    next => exact ih h.of_cons accepted claims refused
    next =>
      split
      next => exact ⟨accepted, claims, rfl⟩
      next => exact ih h.of_cons (by rw [accepted]) (by rw [claims]) refused

variable (p)

/-! ### Adding a batch -/

theorem sound_addFor {p : LinePlan} (h : p.Sound) (edits : List LineEdit) (f : Fix) : (p.addFor edits f).1.Sound := by
  rw [addFor]
  split
  · exact h
  · exact sound_gather p f (b := ⟨[], [], [], false⟩) (by simpa [together] using h)

/-- What becomes of a batch: edits of it are added at the end, with their claims, or nothing changes. -/
theorem addFor_cases (edits : List LineEdit) :
    (p.accepts edits f = false ∧ (p.addFor edits f).1 = p) ∨
      (p.accepts edits f = true ∧ ∃ added, added ≠ [] ∧ (p.addFor edits f).1.edits = p.edits ++ added) := by
  obtain ⟨more, accepted, claims⟩ := gather_extends p f edits ⟨[], [], [], false⟩
  simp only [List.nil_append] at accepted claims
  rw [accepts, addFor]
  cases refused : (gather p f edits ⟨[], [], [], false⟩).refused with
  | true => left; simp
  | false =>
    cases more with
    | nil => left; simp [accepted, claims]
    | cons e more => right; simp [accepted]

theorem addFor_of_not_accepts {edits : List LineEdit} (h : p.accepts edits f = false) : (p.addFor edits f).1 = p := by
  rcases addFor_cases p f edits with ⟨_, same⟩ | ⟨accepts, _⟩
  · exact same
  · rw [h] at accepts
    contradiction

/-- A batch that is clear of a plan adds to it what it would add to the empty one. -/
theorem addFor_clear {p : LinePlan} {edits : List LineEdit} (h : p.Clear edits) (f g : Fix) :
    (p.addFor edits f).1 =
      ⟨p.edits ++ (empty.addFor edits g).1.edits, p.claims ++ (empty.addFor edits g).1.claims⟩ := by
  obtain ⟨accepted, claims, refused⟩ := gather_clear h f g (b := ⟨[], [], [], false⟩) rfl rfl rfl
  rw [addFor, addFor, accepted, claims, refused]
  split
  · simp [empty]
  · simp [empty]

/-- What a batch adds to a plan stands in the batch, in this order. -/
theorem addFor_sublist (edits : List LineEdit) :
    ∃ added, added.Sublist edits ∧ (p.addFor edits f).1.edits = p.edits ++ added := by
  obtain ⟨more, accepted, sub⟩ := gather_sublist p f edits ⟨[], [], [], false⟩
  rw [addFor]
  split
  · exact ⟨[], List.nil_sublist _, (List.append_nil _).symm⟩
  · exact ⟨more, sub, congrArg (p.edits ++ ·) accepted⟩

/-- An edit without a claim at the head of a batch is added first, or nothing is added. -/
theorem addFor_unclaimed {e : LineEdit} (h : e.claim = none) (rest : List LineEdit) :
    (p.addFor (e :: rest) f).1 = p ∨ ∃ more, (p.addFor (e :: rest) f).1.edits = p.edits ++ e :: more := by
  rw [addFor]
  split
  · exact Or.inl rfl
  · next taken =>
    right
    rcases gather_unclaimed p f h rest ⟨[], [], [], false⟩ with refused | step
    · exact absurd refused taken
    obtain ⟨more, accepted, _⟩ := gather_extends p f rest ⟨[e], [], [], false⟩
    refine ⟨more, ?_⟩
    simp only [List.nil_append] at step
    rw [step, accepted]
    rfl

/-- All that a batch adds to a plan stands in it. -/
theorem addFor_subset (edits : List LineEdit) : (p.addFor edits f).1.edits ⊆ p.edits ++ edits := by
  obtain ⟨added, sub, adds⟩ := addFor_sublist p f edits
  rw [adds]
  exact List.append_subset.mpr ⟨List.subset_append_left _ _, fun e he => List.mem_append_right _ (sub.subset he)⟩

theorem addFor_empty_subset (edits : List LineEdit) (f : Fix) : (empty.addFor edits f).1.edits ⊆ edits :=
  addFor_subset empty f edits

/-- Two edits without claims at the head of a batch are both added, or nothing is. -/
theorem addFor_pair {first second : LineEdit} (h : first.claim = none) (h' : second.claim = none) (rest : List LineEdit) :
    (p.addFor (first :: second :: rest) f).1 = p ∨
      ∃ more, (p.addFor (first :: second :: rest) f).1.edits = p.edits ++ first :: second :: more := by
  rw [addFor]
  split
  · exact Or.inl rfl
  · next taken =>
    right
    rcases gather_unclaimed p f h (second :: rest) ⟨[], [], [], false⟩ with refused | step
    · exact absurd refused taken
    rcases gather_unclaimed p f h' rest ⟨[first], [], [], false⟩ with refused | step'
    · simp only [List.nil_append] at step
      rw [step] at taken
      exact absurd refused taken
    obtain ⟨more, accepted, _⟩ := gather_extends p f rest ⟨[first, second], [], [], false⟩
    refine ⟨more, ?_⟩
    simp only [List.nil_append, List.singleton_append] at step step'
    rw [step, step', accepted]
    rfl

/-! ### A sequence of batches -/

/-- The plan after batches have been added to the empty one. -/
def after (calls : List (List LineEdit × Fix)) : LinePlan := calls.foldl (fun p (edits, f) => (p.addFor edits f).1) empty

theorem after_append (calls : List (List LineEdit × Fix)) (edits : List LineEdit) (f : Fix) :
    after (calls ++ [(edits, f)]) = ((after calls).addFor edits f).1 := by
  simp [after]

theorem sound_after (calls : List (List LineEdit × Fix)) : (after calls).Sound := by
  have run : ∀ p : LinePlan, p.Sound → (calls.foldl (fun p (edits, f) => (p.addFor edits f).1) p).Sound := by
    induction calls with
    | nil => exact fun _ h => h
    | cons call rest ih => exact fun p h => ih _ (sound_addFor h call.1 call.2)
  exact run empty sound_empty

end LinePlan

end Remedy
