import Mathlib.Data.List.Basic
import Remedy.Proofs.Edit.LinePlanOverlap
import Remedy.Proofs.Patch.ComponentTrace
import Remedy.Proofs.Patch.Rejection

/-!
Fixes that keep out of each other's way may be made in any order.

What each of them adds to a plan is what it would add to the empty one, whatever came before it. Nothing that one adds is
level with anything that another one adds, so in whichever order they come, the edits are sorted into the same list.
-/

namespace Remedy

/-- Two insertions at one place: nothing is taken away by either, and they begin and end alike. -/
def Replacement.Coincides (a b : Replacement) : Prop := a.stop ≤ a.start ∧ a.start = b.start ∧ a.stop = b.stop

/-- Two insertions at one place of a line. -/
def LineEdit.Coincides (a b : LineEdit) : Prop :=
  a.line = b.line ∧ a.stop ≤ a.start ∧ a.start = b.start ∧ a.stop = b.stop

/-- Plans that keep out of each other's way: no edit of one overlaps an edit of the other, nothing is inserted by both at
one place, and nothing is claimed by both. -/
structure EditPlan.Independent (p q : EditPlan) : Prop where
  apart : Apart p.edits q.edits
  insertions : ∀ a ∈ p.edits, ∀ b ∈ q.edits, ¬ a.Coincides b
  claims : ∀ c ∈ p.claims, c ∉ q.claims

/-- The same for edits of lines, which carry their claims with them. -/
structure LineEdit.Independent (edits others : List LineEdit) : Prop where
  apart : ∀ a ∈ edits, ∀ b ∈ others, a.overlaps b = false
  insertions : ∀ a ∈ edits, ∀ b ∈ others, ¬ a.Coincides b
  claims : ∀ a ∈ edits, ∀ b ∈ others, ∀ c, a.claim = some c → b.claim ≠ some c

theorem Replacement.Coincides.symm {a b : Replacement} (h : a.Coincides b) : b.Coincides a := by
  obtain ⟨nothing, starts, stops⟩ := h
  exact ⟨by omega, starts.symm, stops.symm⟩

theorem LineEdit.Coincides.symm {a b : LineEdit} (h : a.Coincides b) : b.Coincides a := by
  obtain ⟨lines, nothing, starts, stops⟩ := h
  exact ⟨lines.symm, by omega, starts.symm, stops.symm⟩

theorem EditPlan.Independent.symm {p q : EditPlan} (h : p.Independent q) : q.Independent p where
  apart := h.apart.symm
  insertions a ha b hb same := h.insertions b hb a ha same.symm
  claims c hq hp := h.claims c hp hq

theorem LineEdit.Independent.symm {edits others : List LineEdit} (h : LineEdit.Independent edits others) :
    LineEdit.Independent others edits where
  apart a ha b hb := by
    rw [LineEdit.overlaps_comm]
    exact h.apart b hb a ha
  insertions a ha b hb same := h.insertions b hb a ha same.symm
  claims a ha b hb c hc hc' := h.claims b hb a ha c hc' hc

/-- Edits that are neither insertions at one place nor overlap are put in order by sorting. -/
theorem Replacement.untied {a b : Replacement} (apart : a.overlaps b = false) (differ : ¬ a.Coincides b) :
    StableOrder.tied notAfter a b = false := by
  apply Bool.eq_false_iff.mpr
  intro tie
  rw [tied_notAfter, Bool.and_eq_true, beq_iff_eq, beq_iff_eq] at tie
  obtain ⟨starts, stops⟩ := tie
  rcases Nat.lt_or_ge a.start a.stop with proper | insertion
  · simp [overlaps] at apart
    omega
  · exact differ ⟨insertion, starts.symm, stops.symm⟩

theorem LineEdit.untied {a b : LineEdit} (apart : a.overlaps b = false) (differ : ¬ a.Coincides b) :
    StableOrder.tied notAfter a b = false := by
  apply Bool.eq_false_iff.mpr
  intro tie
  obtain ⟨lines, starts, stops⟩ := tied_notAfter.mp tie
  by_cases proper : a.start < a.stop
  · simp [overlaps, lines] at apart
    omega
  · exact differ ⟨lines, not_lt.mp proper, starts, stops⟩

namespace Patch

/-- Of the plans that fixes of different identities come to, each by itself, any two are independent. -/
def Independent (plan : List Fix → Except PatchError EditPlan) (fixes : List Fix) : Prop :=
  ∀ f ∈ fixes, ∀ g ∈ fixes, f.identity ≠ g.identity → ∀ p q, plan [f] = .ok p → plan [g] = .ok q → p.Independent q

theorem independent_pair {plan : List Fix → Except PatchError EditPlan} {f g : Fix} {p q : EditPlan}
    (first : plan [f] = .ok p) (second : plan [g] = .ok q) (h : p.Independent q) : Independent plan [f, g] := by
  intro d hd e he differ p' q' passed passed'
  rcases List.mem_pair.mp hd with rfl | rfl
  · rcases List.mem_pair.mp he with rfl | rfl
    · exact absurd rfl differ
    · rw [first, Except.ok.injEq] at passed
      rw [second, Except.ok.injEq] at passed'
      exact passed ▸ passed' ▸ h
  · rcases List.mem_pair.mp he with rfl | rfl
    · rw [second, Except.ok.injEq] at passed
      rw [first, Except.ok.injEq] at passed'
      exact passed ▸ passed' ▸ h.symm
    · exact absurd rfl differ

/-- Fixes kept of a list that is put in another order come to the same edits once these are sorted, if fixes of one
identity make the same edits and no edit of one is level with an edit of another. -/
theorem mergeSort_distinct_perm {le : β → β → Bool} (trans : ∀ a b c, le a b → le b c → le a c)
    (total : ∀ a b, le a b || le b a) {own : Fix → List β} (factors : own.FactorsThrough Fix.identity)
    {fixes others : List Fix} (perm : fixes.Perm others)
    (untied : (Fix.distinct fixes).1.Pairwise fun f g => ∀ a ∈ own f, ∀ b ∈ own g, StableOrder.tied le a b = false) :
    ((Fix.distinct fixes).1.map own).flatten.mergeSort le = ((Fix.distinct others).1.map own).flatten.mergeSort le :=
  StableOrder.mergeSort_flatten_perm trans total (Fix.map_distinct_perm factors perm) (List.pairwise_map.mpr untied)

/-! ### Passes over syntax trees -/

namespace Reading

variable (r : Reading)

/-- What a fix comes to by itself. -/
def own (f : Fix) : EditPlan :=
  match r.step f .empty with
  | .ok p => p
  | .error _ => .empty

theorem pass_singleton (f : Fix) : r.pass [f] = r.step f .empty := by
  have alone : r.pass ([] ++ [f]) = _ := r.pass_snoc_new rfl
  exact alone

theorem own_factors (congr : ∀ f g : Fix, f.identity = g.identity → r f = r g) : r.own.FactorsThrough Fix.identity := by
  intro f g same
  rw [own, own, r.step_congr (congr f g same)]

variable {r}

theorem own_some {f : Fix} {q : Proposal} (read : r f = .ok (some q)) :
    (r.own f).edits = q.batch [] ∧ (r.own f).claims = q.fresh [] := by
  have free : EditPlan.empty.conflicts (q.batch EditPlan.empty.claims) = false := by
    simp [EditPlan.conflicts, EditPlan.empty]
  have own : r.own f = EditPlan.empty.consider q := by rw [own, r.step_some read]
  rw [own, EditPlan.edits_consider_taken _ q free, EditPlan.claims_consider]
  exact ⟨rfl, rfl⟩

/-- A fix adds what it comes to by itself to any plan that has none of its claims, and no edit that overlaps its own. -/
theorem step_clear {f : Fix} {x : Option Proposal} (read : r f = .ok x) {p : EditPlan}
    (apart : EditPlan.Apart (r.own f).edits p.edits) (claims : ∀ c ∈ (r.own f).claims, c ∉ p.claims) :
    r.step f p = .ok ⟨p.edits ++ (r.own f).edits, p.claims ++ (r.own f).claims⟩ := by
  cases x with
  | none =>
    have own : r.own f = .empty := by rw [own, r.step_none read]
    rw [r.step_none read, own]
    simp [EditPlan.empty]
  | some q =>
    obtain ⟨ownEdits, ownClaims⟩ := own_some read
    rw [ownEdits] at apart
    rw [ownClaims] at claims
    -- All that the fix asks for is free, so what it finds in the plan is what it finds in the empty one.
    have same (c : Nat × String) (asked : c ∈ q.claims) : c ∈ p.claims ↔ c ∈ ([] : List (Nat × String)) :=
      iff_of_false (claims c (Proposal.mem_fresh.mpr ⟨asked, List.not_mem_nil⟩)) List.not_mem_nil
    have clear : p.conflicts (q.batch p.claims) = false := by
      rw [EditPlan.not_conflicts_iff, Proposal.batch_congr same]
      exact apart
    rw [r.step_some read, ownEdits, ownClaims, Except.ok.injEq, ← Proposal.batch_congr same, ← Proposal.fresh_congr same,
      ← EditPlan.edits_consider_taken p q clear, ← EditPlan.claims_consider]

/-- Fixes add up, if all of them can be read and none overlaps another or claims the same. -/
theorem planFrom_clear {fixes : List Fix} {p : EditPlan} (reads : ∀ f ∈ fixes, ∃ x, r f = .ok x)
    (apart : ∀ f ∈ fixes, EditPlan.Apart (r.own f).edits p.edits)
    (claims : ∀ f ∈ fixes, ∀ c ∈ (r.own f).claims, c ∉ p.claims)
    (clear : fixes.Pairwise fun f g =>
      EditPlan.Apart (r.own f).edits (r.own g).edits ∧ ∀ c ∈ (r.own f).claims, c ∉ (r.own g).claims) :
    (r.planFrom fixes p).map (·.edits) = .ok (p.edits ++ (fixes.map fun f => (r.own f).edits).flatten) := by
  -- A plan that holds the first fixes is still clear of each that is to come.
  induction fixes generalizing p with
  | nil => simp [planFrom, Except.map]
  | cons f rest ih =>
    obtain ⟨x, read⟩ := reads f List.mem_cons_self
    rw [planFrom, step_clear read (apart f List.mem_cons_self) (claims f List.mem_cons_self)]
    rw [List.map_cons, List.flatten_cons, ← List.append_assoc]
    apply ih (fun g member => reads g (List.mem_cons_of_mem f member)) _ _ clear.of_cons
    · intro g member a ha b hb
      rcases List.mem_append.mp hb with old | new
      · exact apart g (List.mem_cons_of_mem f member) a ha b old
      · rw [Replacement.overlaps_comm]
        exact (List.rel_of_pairwise_cons clear member).1 b new a ha
    · intro g member c hc held
      rcases List.mem_append.mp held with old | new
      · exact claims g (List.mem_cons_of_mem f member) c hc old
      · exact (List.rel_of_pairwise_cons clear member).2 c new hc

/-- A fix that cannot be read ends the pass, wherever it comes. -/
theorem planFrom_unread {fixes : List Fix} {f : Fix} (member : f ∈ fixes) {e : PatchError} (unread : r f = .error e)
    (p : EditPlan) : ∃ e', r.planFrom fixes p = .error e' := by
  induction fixes generalizing p with
  | nil => cases member
  | cons g rest ih =>
    rw [planFrom]
    rcases List.mem_cons.mp member with rfl | later
    · exact ⟨e, by rw [r.step_error unread]; rfl⟩
    · cases r.step g p with
      | error e' => exact ⟨e', rfl⟩
      | ok next => exact ih later next

/-- Of the fixes that a pass keeps, no two are in each other's way. -/
theorem pairwise_own {fixes : List Fix} (independent : Independent r.pass fixes) (reads : ∀ f ∈ fixes, ∃ x, r f = .ok x) :
    (Fix.distinct fixes).1.Pairwise fun f g => (r.own f).Independent (r.own g) := by
  have kept := (Fix.distinctFrom_sublist [] fixes).subset
  have passed (f : Fix) (member : f ∈ fixes) : r.pass [f] = .ok (r.own f) := by
    obtain ⟨x, read⟩ := reads f member
    rw [r.pass_singleton, own]
    cases x with
    | none => rw [r.step_none read]
    | some q => rw [r.step_some read]
  apply (Fix.pairwise_distinctFrom [] fixes).imp_of_mem
  intro f g hf hg differ
  exact independent f (kept hf) g (kept hg) differ _ _ (passed f (kept hf)) (passed g (kept hg))

/-- A pass over independent fixes holds the edits of each of them. -/
theorem pass_independent {fixes : List Fix} (independent : Independent r.pass fixes)
    (reads : ∀ f ∈ fixes, ∃ x, r f = .ok x) :
    (r.pass fixes).map (·.edits) = .ok (((Fix.distinct fixes).1.map fun f => (r.own f).edits).flatten) := by
  have kept := (Fix.distinctFrom_sublist [] fixes).subset
  have sum : (r.planFrom (Fix.distinct fixes).1 .empty).map (·.edits) = _ :=
    planFrom_clear (fun f member => reads f (kept member)) (fun _ _ _ _ _ held => by cases held)
      (fun _ _ _ _ held => by cases held)
      ((pairwise_own independent reads).imp fun h => ⟨h.apart, h.claims⟩)
  exact sum

/-- A pass over independent fixes in another order fails as well, or comes to the same edits once they are sorted. -/
theorem pass_perm (congr : ∀ f g : Fix, f.identity = g.identity → r f = r g) {fixes others : List Fix}
    (perm : fixes.Perm others) (independent : Independent r.pass fixes) :
    (∃ e e', r.pass fixes = .error e ∧ r.pass others = .error e') ∨
      ∃ p q, r.pass fixes = .ok p ∧ r.pass others = .ok q ∧
        p.edits.mergeSort Replacement.notAfter = q.edits.mergeSort Replacement.notAfter := by
  by_cases reads : ∀ f ∈ fixes, ∃ x, r f = .ok x
  · -- All fixes can be read: both passes hold what each of them comes to by itself, in one order or the other.
    right
    have reads' (f : Fix) (member : f ∈ others) := reads f (perm.mem_iff.mpr member)
    have independent' : Independent r.pass others := fun f hf g hg =>
      independent f (perm.mem_iff.mpr hf) g (perm.mem_iff.mpr hg)
    have first := pass_independent independent reads
    have second := pass_independent independent' reads'
    have factors : (fun f => (r.own f).edits).FactorsThrough Fix.identity := fun f g same =>
      congrArg EditPlan.edits (r.own_factors congr same)
    have sorted := mergeSort_distinct_perm Replacement.notAfter_trans Replacement.notAfter_total factors perm
      ((pairwise_own independent reads).imp fun apart a ha b hb =>
        Replacement.untied (apart.apart a ha b hb) (apart.insertions a ha b hb))
    cases passed : r.pass fixes with
    | error e => simp [passed, Except.map] at first
    | ok p =>
      cases passed' : r.pass others with
      | error e => simp [passed', Except.map] at second
      | ok q =>
        simp only [passed, Except.map, Except.ok.injEq] at first
        simp only [passed', Except.map, Except.ok.injEq] at second
        exact ⟨p, q, rfl, rfl, by rw [first, second, sorted]⟩
  · left
    simp only [not_forall] at reads
    obtain ⟨f, member, unread⟩ := reads
    have ends (fs : List Fix) (within : f ∈ fs) : ∃ e, r.pass fs = .error e := by
      -- The fix that is kept for it cannot be read either.
      have first : Fix.isRepeated [] f = false := rfl
      obtain ⟨g, kept, same⟩ := (Fix.exists_mem_distinctFrom within).resolve_left (Bool.eq_false_iff.mp first)
      cases read : r g with
      | ok x => exact absurd ⟨x, (congr g f same).symm.trans read⟩ unread
      | error e => exact planFrom_unread kept read .empty
    obtain ⟨e, fails⟩ := ends fixes member
    obtain ⟨e', fails'⟩ := ends others (perm.mem_iff.mp member)
    exact ⟨e, e', fails, fails'⟩

end Reading

/-- What a text becomes depends on nothing but the sorted edits. -/
theorem finish_of_sorted (source : String) (bytes : Text.Bytes) {p q : EditPlan}
    (h : p.edits.mergeSort Replacement.notAfter = q.edits.mergeSort Replacement.notAfter) :
    finish source bytes p = finish source bytes q := by
  have spliced : spliceBytes bytes p.edits = spliceBytes bytes q.edits := by rw [spliceBytes, spliceBytes, h]
  have empty : p.edits.isEmpty = q.edits.isEmpty := (StableOrder.perm_of_mergeSort_eq h).isEmpty_eq
  rw [finish, finish, empty, spliced]

/-! ### Passes over components -/

namespace Component

open Remedy.Component (Line)

variable (lines : List Line)

/-- The edits that a fix plans, whatever else is planned. -/
def plannedEdits (f : Fix) : List LineEdit :=
  match f.location with
  | none => []
  | some l =>
    match lineIndex? lines l.start with
    | none => []
    | some index => (planFix lines index l f).1

/-- Of the edits that fixes of different identities plan, none are in each other's way. -/
def Independent (fixes : List Fix) : Prop :=
  ∀ f ∈ fixes, ∀ g ∈ fixes, f.identity ≠ g.identity →
    LineEdit.Independent (plannedEdits lines f) (plannedEdits lines g)

theorem independent_pair {f g : Fix} (h : LineEdit.Independent (plannedEdits lines f) (plannedEdits lines g)) :
    Independent lines [f, g] := by
  intro d hd e he differ
  rcases List.mem_pair.mp hd with rfl | rfl
  · rcases List.mem_pair.mp he with rfl | rfl
    · exact absurd rfl differ
    · exact h
  · rcases List.mem_pair.mp he with rfl | rfl
    · exact h.symm
    · exact absurd rfl differ

/-- What a fix comes to by itself. -/
def own (f : Fix) : LinePlan := (LinePlan.empty.addFor (plannedEdits lines f) f).1

theorem planOne_eq (f : Fix) (plan : LinePlan) :
    (planOne lines f plan).1 = (plan.addFor (plannedEdits lines f) f).1 := by
  have nothing : (plan.addFor [] f).1 = plan := by simp [LinePlan.addFor, LinePlan.gather]
  cases place : f.location with
  | none => simp only [planOne, plannedEdits, place, nothing]
  | some l =>
    cases onLine : lineIndex? lines l.start with
    | none => simp only [planOne, plannedEdits, place, onLine, nothing]
    | some index => simp only [planOne, plannedEdits, place, onLine]

theorem updateEdits_fst (index : Nat) (l : Location) (f g : Fix) (overwrite : Bool) (updates : List (String × String)) :
    (updateEdits lines index l f overwrite updates).1 = (updateEdits lines index l g overwrite updates).1 := by
  induction updates with
  | nil => rfl
  | cons u rest ih =>
    obtain ⟨name, value⟩ := u
    simp only [updateEdits]
    cases (Remedy.Component.scan lines index l.start.column).or (Remedy.Component.fallback (lineAt lines index) index) with
    | none => exact ih
    | some tag =>
      simp only
      cases attributeEdit lines tag name value overwrite with
      | error reason => exact ih
      | ok e =>
        cases e with
        | none => exact ih
        | some e => exact congrArg (e :: ·) ih

theorem planFix_fst (index : Nat) (l : Location) {f g : Fix} (same : f.change? = g.change?) :
    (planFix lines index l f).1 = (planFix lines index l g).1 := by
  rw [planFix, planFix, same]
  cases g.change? with
  | none => rfl
  | some change =>
    cases change with
    | setAttribute overwrite name value => exact updateEdits_fst lines index l f g overwrite _
    | insert html =>
      simp only
      cases insertEdit lines index l html <;> rfl
    | rename new attributes =>
      simp only
      cases renameEdits lines index l new with
      | error reason => rfl
      | ok names => exact congrArg (names ++ ·) (updateEdits_fst lines index l f g true attributes)

/-- Fixes of one identity plan the same edits. -/
theorem plannedEdits_congr {f g : Fix} (h : f.Agrees g) : plannedEdits lines f = plannedEdits lines g := by
  rw [plannedEdits, plannedEdits, h.location]
  cases g.location with
  | none => rfl
  | some l =>
    simp only
    cases lineIndex? lines l.start with
    | none => rfl
    | some index => exact planFix_fst lines index l h.change

theorem clear_empty (edits : List LineEdit) : LinePlan.empty.Clear edits where
  apart _ _ _ held := by cases held
  unclaimed _ _ _ _ held := by cases held

theorem own_factors : (own lines).FactorsThrough Fix.identity := by
  intro f g same
  rw [own, own, plannedEdits_congr lines (Fix.agrees_of_identity same)]
  have alone := LinePlan.addFor_clear (clear_empty (plannedEdits lines g)) f g
  simpa [LinePlan.empty] using alone

variable {lines}

theorem own_subset (f : Fix) : (own lines f).edits ⊆ plannedEdits lines f := LinePlan.addFor_empty_subset _ f

theorem exists_claim_of_own {f : Fix} {c : Nat × Int × String} (h : c ∈ (own lines f).claims) :
    ∃ e ∈ plannedEdits lines f, e.claim = some c := by
  have sound := LinePlan.sound_addFor LinePlan.sound_empty (plannedEdits lines f) f
  obtain ⟨e, member, claim⟩ := (sound.mem_claims_iff c).mp h
  exact ⟨e, own_subset f member, claim⟩

/-- Independent fixes add up. -/
theorem planAll_independent {fixes : List Fix} {plan : LinePlan} (clear : ∀ f ∈ fixes, plan.Clear (plannedEdits lines f))
    (independent : fixes.Pairwise fun f g => LineEdit.Independent (plannedEdits lines f) (plannedEdits lines g)) :
    (planAll lines fixes plan).1.edits = plan.edits ++ (fixes.map fun f => (own lines f).edits).flatten := by
  induction fixes generalizing plan with
  | nil => simp [planAll]
  | cons f rest ih =>
    rw [planAll_cons, planOne_eq, LinePlan.addFor_clear (clear f List.mem_cons_self) f f, List.map_cons, List.flatten_cons,
      ← List.append_assoc]
    -- The plan with this fix in it is still clear of those that are to come.
    apply ih _ independent.of_cons
    intro g member
    have before := clear g (List.mem_cons_of_mem f member)
    have beside := List.rel_of_pairwise_cons independent member
    constructor
    · intro e he s held
      rcases List.mem_append.mp held with old | new
      · exact before.apart e he s old
      · rw [LineEdit.overlaps_comm]
        exact beside.apart s (own_subset f new) e he
    · intro e he c claim held
      rcases List.mem_append.mp held with old | new
      · exact before.unclaimed e he c claim old
      · obtain ⟨s, planned, claimed⟩ := exists_claim_of_own new
        exact beside.claims s planned e he c claimed claim

theorem pairwise_planned {fixes : List Fix} (independent : Independent lines fixes) :
    (Fix.distinct fixes).1.Pairwise fun f g => LineEdit.Independent (plannedEdits lines f) (plannedEdits lines g) := by
  have kept := (Fix.distinctFrom_sublist [] fixes).subset
  apply (Fix.pairwise_distinctFrom [] fixes).imp_of_mem
  intro f g hf hg differ
  exact independent f (kept hf) g (kept hg) differ

/-- A pass over independent fixes holds the edits of each of them. -/
theorem planOf_independent {fixes : List Fix} (independent : Independent lines fixes) :
    (planOf lines fixes).edits = ((Fix.distinct fixes).1.map fun f => (own lines f).edits).flatten :=
  planAll_independent (fun f _ => clear_empty (plannedEdits lines f)) (pairwise_planned independent)

/-- A pass over independent fixes in another order comes to the same edits once they are sorted. -/
theorem planOf_perm {fixes others : List Fix} (perm : fixes.Perm others) (independent : Independent lines fixes) :
    (planOf lines fixes).edits.mergeSort LineEdit.notAfter = (planOf lines others).edits.mergeSort LineEdit.notAfter := by
  have independent' : Independent lines others := fun f hf g hg =>
    independent f (perm.mem_iff.mpr hf) g (perm.mem_iff.mpr hg)
  have factors : (fun f => (own lines f).edits).FactorsThrough Fix.identity := fun f g same =>
    congrArg LinePlan.edits (own_factors lines same)
  rw [planOf_independent independent, planOf_independent independent']
  apply mergeSort_distinct_perm LineEdit.notAfter_trans LineEdit.notAfter_total factors perm
  apply (pairwise_planned independent).imp
  intro f g apart a ha b hb
  exact LineEdit.untied (apart.apart a (own_subset f ha) b (own_subset g hb))
    (apart.insertions a (own_subset f ha) b (own_subset g hb))

theorem textOf_of_sorted (source : String) {p q : LinePlan}
    (h : p.edits.mergeSort LineEdit.notAfter = q.edits.mergeSort LineEdit.notAfter) :
    textOf source p = textOf source q := by
  rw [textOf, textOf, (StableOrder.perm_of_mergeSort_eq h).isEmpty_eq, LinePlan.apply, LinePlan.apply, h]

end Component

/-- **Independent fixes may come in any order.** If the edits that fixes of different identities make, each by itself, do
not overlap, are not insertions at one place and claim no attribute in common, the text becomes the same whichever way the
fixes are ordered. Where a selector cannot be looked up there is no text, whichever way they are ordered. -/
theorem order_irrelevant (source : String) {fixes others : List Fix} (perm : fixes.Perm others) :
    (∀ root lookup, Independent (Html.planOf source root lookup) fixes →
      (Html.applyTo source root lookup fixes).text.toOption = (Html.applyTo source root lookup others).text.toOption) ∧
    (∀ root, Independent (Jsx.planOf source root) fixes →
      (Jsx.applyTo source root fixes).text = (Jsx.applyTo source root others).text) ∧
    (Component.Independent (Component.linesOf source) fixes →
      (Component.apply source fixes).text = (Component.apply source others).text) := by
  refine ⟨fun root lookup => ?_, fun root => ?_, fun independent => ?_⟩
  · rw [Html.text_applyTo, Html.text_applyTo, Html.planOf_eq]
    intro independent
    have congr (f g : Fix) (same : f.identity = g.identity) :=
      Html.reading_congr (Fix.agrees_of_identity same) (Text.encode source.toList) (Html.targets root) lookup
    rcases Reading.pass_perm congr perm independent with ⟨e, e', fails, fails'⟩ | ⟨p, q, passed, passed', sorted⟩
    · rw [fails, fails']
      rfl
    · rw [passed, passed']
      exact congrArg Except.toOption (finish_of_sorted source _ sorted)
  · rw [Jsx.text_applyTo, Jsx.text_applyTo]
    intro independent
    have equal := Jsx.planOf_eq source root
    rw [equal] at independent
    have congr (f g : Fix) (same : f.identity = g.identity) :=
      Jsx.reading_congr (Fix.agrees_of_identity same) (Text.encode source.toList) (Jsx.targets root)
    rcases Reading.pass_perm congr perm independent with ⟨e, _, fails, _⟩ | ⟨p, q, passed, passed', sorted⟩
    · rw [← equal] at fails
      cases fails
    · rw [equal, passed, passed']
      exact finish_of_sorted source _ sorted
  · rw [Component.text_apply, Component.text_apply,
      Component.textOf_of_sorted source (Component.planOf_perm perm independent)]

namespace Retitled

def language : Replacement := ⟨2, 2, " lang=\"V\""⟩

theorem edits_independent : EditPlan.Independent ⟨names "b", []⟩ ⟨[language], [(0, "lang")]⟩ where
  apart := by simp [EditPlan.Apart, names, language, Replacement.overlaps]
  insertions := by simp [names, language, Replacement.Coincides]
  claims := by simp

theorem Reads.independent {r : Reading} {edit : String → String → Replacement} (h : Reads r edit)
    (write : edit "lang" "V" = language) : Independent r.pass [rename, add "lang"] := by
  have passed : r.pass ([] ++ [add "lang"]) = _ := r.pass_snoc_some rfl rfl h.addsLang
  have alone : r.pass [add "lang"] = .ok ⟨[language], [(0, "lang")]⟩ := by
    simpa [EditPlan.consider, EditPlan.answer, EditPlan.add?, EditPlan.conflicts, EditPlan.empty, Proposal.fresh,
      Proposal.batch, freeUpdates, claimOf, lang_lower, write] using passed
  exact independent_pair h.pass_rename alone edits_independent

theorem script_writes_lang : Jsx.setAttribute (Text.encode source.toList)
    (.mk "jsx_opening_element" true false false 0 3 (some "open_tag") [leaf "identifier" (some "name") 1 2]) "lang" "V" =
      language := by
  rw [encoded]
  rfl

theorem planned_rename : Component.plannedEdits [source.toList] rename = [⟨0, 1, 2, "b", none⟩] := by cbv

theorem planned_lang : Component.plannedEdits [source.toList] (add "lang") =
    [⟨0, 2, 2, " lang=\"V\"", some (0, 2, "lang")⟩] := by
  let tag : Remedy.Component.OpenTag := ⟨[⟨0, 0, 3⟩], 0, 2, false⟩
  have change : (add "lang").change? = some (.setAttribute false "lang" "V") := by cbv
  have location : (add "lang").location = some ⟨"", ⟨1, 0⟩, none⟩ := rfl
  have onLine : Component.lineIndex? [source.toList] ⟨1, 0⟩ = some 0 := by decide
  have found : (Remedy.Component.scan [source.toList] 0 0).or
      (Remedy.Component.fallback (Component.lineAt [source.toList] 0) 0) = some tag := by cbv
  have static : (tag.segments.findSome? fun s => (Remedy.Component.findStatic? "lang".toList
      (Component.lineAt [source.toList] s.line) s).map fun v => (s.line, v)) = none := by cbv
  have bound : (tag.segments.any fun s => Remedy.Component.hasAttribute "lang".toList
      (Component.lineAt [source.toList] s.line) s) = false := by cbv
  have escape : Text.escapeAttribute "V" .double = "V" := by cbv
  have inserted : Component.insertAttribute [source.toList] tag "lang" "V" =
      ⟨0, 2, 2, " lang=\"V\"", some (0, 2, "lang")⟩ := by
    simp only [Component.insertAttribute, lang_lower, escape]
    rfl
  have edit : Component.attributeEdit [source.toList] tag "lang" "V" false =
      .ok (some ⟨0, 2, 2, " lang=\"V\"", some (0, 2, "lang")⟩) := by
    simp only [Component.attributeEdit, static, bound, inserted]
    rfl
  simp only [Component.plannedEdits, location, onLine, Component.planFix, change, Component.updateEdits, found, edit]

theorem component_independent : Component.Independent (Component.linesOf source) [rename, add "lang"] := by
  have lines : Component.linesOf source = [source.toList] := by cbv
  rw [lines]
  apply Component.independent_pair
  rw [planned_rename, planned_lang]
  constructor
  · simp [LineEdit.overlaps]
  · simp [LineEdit.Coincides]
  · simp

end Retitled

/-- A name for a tag and an attribute for it, in both orders: on a page, in a script, and in a component. -/
theorem name_and_attribute_commute :
    (Html.applyTo Retitled.source Retitled.page Retitled.lookup [Retitled.rename, Retitled.add "lang"]).text.toOption =
      (Html.applyTo Retitled.source Retitled.page Retitled.lookup [Retitled.add "lang", Retitled.rename]).text.toOption ∧
    (Jsx.applyTo Retitled.source Retitled.script [Retitled.rename, Retitled.add "lang"]).text =
      (Jsx.applyTo Retitled.source Retitled.script [Retitled.add "lang", Retitled.rename]).text ∧
    (Component.apply Retitled.source [Retitled.rename, Retitled.add "lang"]).text =
      (Component.apply Retitled.source [Retitled.add "lang", Retitled.rename]).text := by
  have perm : [Retitled.rename, Retitled.add "lang"].Perm [Retitled.add "lang", Retitled.rename] := .swap _ _ []
  obtain ⟨onPage, inScript, inComponent⟩ := order_irrelevant Retitled.source perm
  refine ⟨onPage _ _ ?_, inScript _ ?_, inComponent Retitled.component_independent⟩
  · rw [Html.planOf_eq]
    exact Retitled.page_reads.independent (Retitled.page_writes "lang" "V")
  · rw [Jsx.planOf_eq]
    exact Retitled.script_reads.independent Retitled.script_writes_lang

end Patch

end Remedy
