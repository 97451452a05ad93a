import Mathlib.Data.List.Basic
import Remedy.Patch.Html
import Remedy.Patch.Jsx
import Remedy.Proofs.Edit.PlanOverlap
import Remedy.Proofs.Fix.Distinct
import Remedy.Proofs.Fix.Identity

/-!
What fixes propose where a text is patched by its syntax tree.

Which element a fix means, and which edits it would make there, is settled by the text and the fix alone; the plan only
decides which of its attributes are still free, and whether its edits are taken. So a pass over HTML and one over markup in
scripts are the same pass, but for the reading of fixes as proposals.
-/

namespace Remedy

namespace Patch

/-- Edits that a fix makes in any case, and attributes of an element with an edit for each, which is made if the attribute
is still free. -/
structure Proposal where
  element : Nat
  fixed : List Replacement
  updates : List (String × String)
  edit : String → String → Replacement

/-- What claims the attribute of an update. -/
def claimOf (element : Nat) (update : String × String) : Nat × String := (element, Text.lower update.1)

/-- The updates of attributes that are free when some are taken; each of them takes its own. -/
def freeUpdates (element : Nat) (taken : List (Nat × String)) : List (String × String) → List (String × String)
  | [] => []
  | u :: rest =>
    if taken.contains (claimOf element u) then freeUpdates element taken rest
    else u :: freeUpdates element (taken ++ [claimOf element u]) rest

namespace Proposal

/-- The claims that are asked for. -/
def claims (q : Proposal) : List (Nat × String) := q.updates.map (claimOf q.element)

/-- The claims that are new where some are taken. -/
def fresh (q : Proposal) (taken : List (Nat × String)) : List (Nat × String) :=
  (freeUpdates q.element taken q.updates).map (claimOf q.element)

/-- The edits where some claims are taken. -/
def batch (q : Proposal) (taken : List (Nat × String)) : List Replacement :=
  q.fixed ++ (freeUpdates q.element taken q.updates).map fun u => q.edit u.1 u.2

end Proposal

/-! ### Free attributes -/

section

variable {element : Nat} {taken other : List (Nat × String)} {updates : List (String × String)}

theorem freeUpdates_congr (same : ∀ u ∈ updates, claimOf element u ∈ taken ↔ claimOf element u ∈ other) :
    freeUpdates element taken updates = freeUpdates element other updates := by
  induction updates generalizing taken other with
  | nil => rfl
  | cons u rest ih =>
    have later (v : String × String) (h : v ∈ rest) := same v (List.mem_cons_of_mem u h)
    have here : taken.contains (claimOf element u) = other.contains (claimOf element u) := by
      apply Bool.eq_iff_iff.mpr
      simpa only [List.contains_iff_mem] using same u List.mem_cons_self
    have onward : freeUpdates element (taken ++ [claimOf element u]) rest =
        freeUpdates element (other ++ [claimOf element u]) rest := by
      apply ih
      intro v h
      rw [List.mem_append, List.mem_append, later v h]
    rw [freeUpdates, freeUpdates, here, ih later, onward]

theorem freeUpdates_subset : freeUpdates element taken updates ⊆ updates := by
  induction updates generalizing taken with
  | nil => exact List.Subset.refl []
  | cons u rest ih =>
    rw [freeUpdates]
    split
    · exact List.subset_cons_of_subset u ih
    · exact List.cons_subset_cons u ih

theorem not_mem_of_mem_freeUpdates {u : String × String} (h : u ∈ freeUpdates element taken updates) :
    claimOf element u ∉ taken := by
  induction updates generalizing taken with
  | nil => cases h
  | cons v rest ih =>
    rw [freeUpdates] at h
    split at h
    next => exact ih h
    next free =>
      rcases List.mem_cons.mp h with rfl | later
      · simpa using free
      · exact fun member => ih later (List.mem_append_left _ member)

/-- Every attribute is taken, or one of the free updates claims it. -/
theorem exists_mem_freeUpdates {u : String × String} (h : u ∈ updates) :
    claimOf element u ∈ taken ∨ ∃ v ∈ freeUpdates element taken updates, claimOf element v = claimOf element u := by
  induction updates generalizing taken with
  | nil => cases h
  | cons v rest ih =>
    rw [freeUpdates]
    split
    next held =>
      rcases List.mem_cons.mp h with rfl | later
      · exact Or.inl (by simpa using held)
      · exact ih later
    next =>
      rcases List.mem_cons.mp h with rfl | later
      · exact Or.inr ⟨u, List.mem_cons_self, rfl⟩
      · rcases @ih (taken ++ [claimOf element v]) later with held | ⟨w, member, same⟩
        · rcases List.mem_append.mp held with old | new
          · exact Or.inl old
          · exact Or.inr ⟨v, List.mem_cons_self, (List.mem_singleton.mp new).symm⟩
        · exact Or.inr ⟨w, List.mem_cons_of_mem v member, same⟩

/-- No two of the free updates claim the same. -/
theorem pairwise_freeUpdates :
    (freeUpdates element taken updates).Pairwise fun u v => claimOf element u ≠ claimOf element v := by
  induction updates generalizing taken with
  | nil => exact .nil
  | cons u rest ih =>
    rw [freeUpdates]
    split
    · exact ih
    · refine .cons (fun v later same => ?_) ih
      exact not_mem_of_mem_freeUpdates later (List.mem_append_right _ (List.mem_singleton.mpr same.symm))

end

namespace Proposal

variable {q : Proposal} {taken other : List (Nat × String)} {c : Nat × String}

theorem fresh_congr (same : ∀ c ∈ q.claims, c ∈ taken ↔ c ∈ other) : q.fresh taken = q.fresh other := by
  rw [fresh, fresh, freeUpdates_congr]
  exact fun u h => same _ (List.mem_map_of_mem h)

theorem batch_congr (same : ∀ c ∈ q.claims, c ∈ taken ↔ c ∈ other) : q.batch taken = q.batch other := by
  rw [batch, batch, freeUpdates_congr]
  exact fun u h => same _ (List.mem_map_of_mem h)

/-- New are the claims asked for that are not taken. -/
theorem mem_fresh : c ∈ q.fresh taken ↔ c ∈ q.claims ∧ c ∉ taken := by
  rw [fresh, claims, List.mem_map, List.mem_map]
  constructor
  · rintro ⟨u, member, rfl⟩
    exact ⟨⟨u, freeUpdates_subset member, rfl⟩, not_mem_of_mem_freeUpdates member⟩
  · rintro ⟨⟨u, member, rfl⟩, free⟩
    exact (exists_mem_freeUpdates member).resolve_left free

end Proposal

/-- Setting attributes makes the edits of those that are free, and claims them. -/
theorem updateEdits_eq (f : Fix) (start : Nat) (edit : String → String → Replacement) (updates : List (String × String))
    (plan : EditPlan) :
    (updateEdits f start edit updates plan).1 = (freeUpdates start plan.claims updates).map (fun u => edit u.1 u.2) ∧
      (updateEdits f start edit updates plan).2.1 =
        { plan with claims := plan.claims ++ (freeUpdates start plan.claims updates).map (claimOf start) } := by
  induction updates generalizing plan with
  | nil => simp [updateEdits, freeUpdates]
  | cons u rest ih =>
    obtain ⟨name, value⟩ := u
    have held : plan.isClaimed start name = plan.claims.contains (claimOf start (name, value)) := rfl
    cases taken : plan.claims.contains (claimOf start (name, value)) with
    | true =>
      -- The attribute is passed over, and the plan stays as it is.
      have refused : plan.claim start name = (false, plan) := by rw [EditPlan.claim, held, taken, if_pos rfl]
      rw [updateEdits, refused, freeUpdates, taken, if_pos rfl]
      exact ih plan
    | false =>
      have claimed : plan.claim start name =
          (true, { plan with claims := plan.claims ++ [claimOf start (name, value)] }) := by
        rw [EditPlan.claim, held, taken]
        rfl
      obtain ⟨edits, claims⟩ := ih { plan with claims := plan.claims ++ [claimOf start (name, value)] }
      rw [updateEdits, claimed, freeUpdates, taken]
      constructor
      · simp [edits]
      · simp [claims]

end Patch

open Patch (Proposal)

/-! ### A proposal and a plan -/

namespace EditPlan

/-- The plan after a proposal. What is free is claimed, whether or not the edits are taken then. -/
def consider (p : EditPlan) (q : Proposal) : EditPlan :=
  { p with claims := p.claims ++ q.fresh p.claims }.answer (.add (q.batch p.claims))

variable (p : EditPlan) (q : Proposal)

theorem claims_answer_add (batch : List Replacement) : (p.answer (.add batch)).claims = p.claims := by
  simp only [answer, add?]
  split <;> rfl

@[simp] theorem claims_consider : (p.consider q).claims = p.claims ++ q.fresh p.claims := by
  rw [consider, claims_answer_add]

theorem edits_consider_refused (h : p.conflicts (q.batch p.claims) = true) : (p.consider q).edits = p.edits := by
  rw [consider, answer_add_refused]
  exact h

theorem edits_consider_taken (h : p.conflicts (q.batch p.claims) = false) :
    (p.consider q).edits = p.edits ++ q.batch p.claims := by
  rw [consider, edits_add_taken]
  exact h

/-- Edits are only ever added. -/
theorem edits_consider : ∃ added, (p.consider q).edits = p.edits ++ added := by
  cases h : p.conflicts (q.batch p.claims) with
  | true => exact ⟨[], by rw [p.edits_consider_refused q h, List.append_nil]⟩
  | false => exact ⟨_, p.edits_consider_taken q h⟩

/-- No edit is added exactly if there is none, or one of them is in the way. -/
theorem edits_consider_eq_self :
    (p.consider q).edits = p.edits ↔ q.batch p.claims = [] ∨ p.conflicts (q.batch p.claims) = true := by
  cases h : p.conflicts (q.batch p.claims) with
  | true => simp [p.edits_consider_refused q h]
  | false => simp [p.edits_consider_taken q h]

end EditPlan

/-! ### A pass over fixes -/

namespace Patch

/-- What each fix proposes, if anything; a fix that cannot be read ends the pass. -/
abbrev Reading := Fix → Except PatchError (Option Proposal)

namespace Reading

variable (r : Reading)

/-- The plan after one more fix. -/
def step (f : Fix) (p : EditPlan) : Except PatchError EditPlan :=
  (r f).map fun
    | some q => p.consider q
    | none => p

/-- The plan after more fixes. -/
def planFrom : List Fix → EditPlan → Except PatchError EditPlan
  | [], p => .ok p
  | f :: rest, p => (r.step f p).bind (planFrom rest)

/-- Goes on with a pass: `seen` are the fixes gone through, and `p` what has come of them. -/
def passFrom (seen fixes : List Fix) (p : EditPlan) : Except PatchError EditPlan :=
  r.planFrom (Fix.distinctFrom seen fixes).1 p

/-- The plan of a pass. -/
def pass (fixes : List Fix) : Except PatchError EditPlan := r.passFrom [] fixes .empty

theorem step_congr {f g : Fix} (h : r f = r g) (p : EditPlan) : r.step f p = r.step g p := by
  rw [step, step, h]

theorem passFrom_repeated {seen : List Fix} {f : Fix} (h : Fix.isRepeated seen f = true) (rest : List Fix)
    (p : EditPlan) : r.passFrom seen (f :: rest) p = r.passFrom seen rest p := by
  simp [passFrom, Fix.distinctFrom, h]

theorem passFrom_new {seen : List Fix} {f : Fix} (h : Fix.isRepeated seen f = false) (rest : List Fix) (p : EditPlan) :
    r.passFrom seen (f :: rest) p = (r.step f p).bind (r.passFrom (seen ++ [f]) rest) := by
  simp only [passFrom, Fix.distinctFrom, h, Bool.false_eq_true, if_false, planFrom]
  rfl

theorem passFrom_congr {seen other : List Fix} (same : ∀ f, Fix.isRepeated seen f = Fix.isRepeated other f)
    (fixes : List Fix) (p : EditPlan) : r.passFrom seen fixes p = r.passFrom other fixes p := by
  rw [passFrom, passFrom, Fix.distinctFrom_congr same]

theorem planFrom_append (xs ys : List Fix) (p : EditPlan) :
    r.planFrom (xs ++ ys) p = (r.planFrom xs p).bind (r.planFrom ys) := by
  induction xs generalizing p with
  | nil => rfl
  | cons f xs ih =>
    rw [List.cons_append, planFrom, planFrom]
    cases r.step f p with
    | error e => rfl
    | ok next => exact ih next

theorem passFrom_append (seen xs ys : List Fix) (p : EditPlan) :
    r.passFrom seen (xs ++ ys) p = (r.passFrom seen xs p).bind (r.passFrom (seen ++ xs) ys) := by
  rw [passFrom, Fix.distinctFrom_append, planFrom_append]
  rfl

theorem pass_append (xs ys : List Fix) : r.pass (xs ++ ys) = (r.pass xs).bind (r.passFrom xs ys) := by
  rw [pass, passFrom_append, List.nil_append, pass]

/-- The claims that a fix asks for. -/
def asks (f : Fix) : List (Nat × String) :=
  match r f with
  | .ok (some q) => q.claims
  | _ => []

theorem step_error {f : Fix} {e : PatchError} (h : r f = .error e) (p : EditPlan) : r.step f p = .error e := by
  rw [step, h]
  rfl

theorem step_none {f : Fix} (h : r f = .ok none) (p : EditPlan) : r.step f p = .ok p := by
  rw [step, h]
  rfl

theorem step_some {f : Fix} {q : Proposal} (h : r f = .ok (some q)) (p : EditPlan) :
    r.step f p = .ok (p.consider q) := by
  rw [step, h]
  rfl

/-- A step that is made leaves the plan as it is or considers what the fix proposes. -/
theorem step_cases {r : Reading} {f : Fix} {p next : EditPlan} (h : r.step f p = .ok next) :
    r f = .ok none ∧ next = p ∨ ∃ q, r f = .ok (some q) ∧ next = p.consider q := by
  cases read : r f with
  | error e =>
    rw [r.step_error read] at h
    contradiction
  | ok proposed =>
    cases proposed with
    | none => exact Or.inl ⟨rfl, Except.ok.inj (h.symm.trans (r.step_none read p))⟩
    | some q => exact Or.inr ⟨q, rfl, Except.ok.inj (h.symm.trans (r.step_some read p))⟩

theorem pass_snoc_repeated {before : List Fix} {f : Fix} (h : Fix.isRepeated before f = true) :
    r.pass (before ++ [f]) = r.pass before := by
  rw [pass_append]
  cases r.pass before with
  | error e => rfl
  | ok p => exact r.passFrom_repeated h [] p

theorem pass_snoc_new {before : List Fix} {f : Fix} (h : Fix.isRepeated before f = false) :
    r.pass (before ++ [f]) = (r.pass before).bind (r.step f) := by
  rw [pass_append]
  cases r.pass before with
  | error e => rfl
  | ok p =>
    change r.passFrom before [f] p = r.step f p
    rw [r.passFrom_new h]
    cases r.step f p <;> rfl

theorem pass_snoc_some {before : List Fix} {f : Fix} {p : EditPlan} {q : Proposal} (new : Fix.isRepeated before f = false)
    (start : r.pass before = .ok p) (read : r f = .ok (some q)) : r.pass (before ++ [f]) = .ok (p.consider q) := by
  rw [r.pass_snoc_new new, start]
  exact r.step_some read p

end Reading

/-! ### HTML -/

namespace Html

open Text (Bytes)

/-- What a fix proposes for an element. -/
def proposal? (source : Bytes) (f : Fix) (element : Node) : Option Proposal :=
  match opening? element, f.change? with
  | some tag, some change =>
    if byteAt? source (tag.stop - 1) != some 0x3E then none
    else match change with
      | .insert html =>
        if tag.kind == "self_closing_tag" || (Remedy.Html.closeTag? element).isNone then none
        else some ⟨tag.start, [⟨tag.stop, tag.stop, html⟩], [], setAttribute source tag⟩
      | .setAttribute _ _ _ => some ⟨tag.start, [], change.updates, setAttribute source tag⟩
      | .rename new _ => some ⟨tag.start, renameEdits element tag new, change.updates, setAttribute source tag⟩
  | _, _ => none

/-- What fixes propose on a page: each for the element at its place, or for the one that its selector leads to. -/
def reading (source : Bytes) (elements : List Node) (lookup : Lookup) : Reading := fun f =>
  (targetOf lookup f).map fun (place, _) => place.bind fun p => (elementAt? source elements p).bind (proposal? source f)

theorem reading_congr {f g : Fix} (h : f.Agrees g) (source : Bytes) (elements : List Node) (lookup : Lookup) :
    reading source elements lookup f = reading source elements lookup g := by
  have target : targetOf lookup f = targetOf lookup g := by rw [targetOf, targetOf, h.location, h.selector]
  have proposals : proposal? source f = proposal? source g := by
    funext element
    rw [proposal?, proposal?, h.change]
  rw [reading, reading, target, proposals]

theorem planFix_eq (source : Bytes) (element : Node) (f : Fix) (p : EditPlan) :
    ∃ notices, planFix source element f p =
      match proposal? source f element with
      | some q => (some (q.batch p.claims), { p with claims := p.claims ++ q.fresh p.claims }, notices)
      | none => (none, p, notices) := by
  rw [planFix, proposal?]
  cases opening? element with
  | none => exact ⟨[], rfl⟩
  | some tag =>
    cases f.change? with
    | none => exact ⟨[], rfl⟩
    | some change =>
      simp only
      split
      · exact ⟨_, rfl⟩
      · cases change with
        | insert html =>
          simp only
          split
          · exact ⟨_, rfl⟩
          · exact ⟨[], by simp [Proposal.batch, Proposal.fresh, freeUpdates]⟩
        | setAttribute overwrite name value =>
          obtain ⟨edits, claimed⟩ := updateEdits_eq f tag.start (setAttribute source tag)
            (Change.setAttribute overwrite name value).updates p
          exact ⟨_, by simp only [edits, claimed]; rfl⟩
        | rename new attributes =>
          obtain ⟨edits, claimed⟩ := updateEdits_eq f tag.start (setAttribute source tag)
            (Change.rename new attributes).updates p
          exact ⟨_, by simp only [edits, claimed]; rfl⟩

theorem planAt_fst (source : Bytes) (elements : List Node) (f : Fix) (place : Position) (p : EditPlan) :
    (planAt source elements f place p).1 =
      match (elementAt? source elements place).bind (proposal? source f) with
      | some q => p.consider q
      | none => p := by
  rw [planAt]
  cases elementAt? source elements place with
  | none => rfl
  | some element =>
    obtain ⟨notices, planned⟩ := planFix_eq source element f p
    simp only [planned, Option.bind_some]
    cases proposal? source f element with
    | none => rfl
    | some q => exact EditPlan.addFor_fst _ _ f

theorem planAll_fst (source : Bytes) (elements : List Node) (lookup : Lookup) (fixes : List Fix) (p : EditPlan) :
    (planAll source elements lookup fixes p).1 = (reading source elements lookup).planFrom fixes p := by
  induction fixes generalizing p with
  | nil => rfl
  | cons f rest ih =>
    rw [planAll, Reading.planFrom, Reading.step, reading]
    cases targetOf lookup f with
    | error e => rfl
    | ok found =>
      obtain ⟨place, notices⟩ := found
      cases place with
      | none => exact ih p
      | some place =>
        change (planAll source elements lookup rest (planAt source elements f place p).1).1 = _
        rw [ih, planAt_fst]
        rfl

end Html

/-! ### Markup in scripts -/

namespace Jsx

open Text (Bytes)

/-- What a fix proposes for an element. -/
def proposal? (source : Bytes) (f : Fix) (element : Node) : Option Proposal :=
  match Remedy.Jsx.opening? element, f.change? with
  | some tag, some change =>
    match change with
    | .insert html =>
      if Remedy.Jsx.isSelfClosing element then none
      else some ⟨element.start, [⟨tag.stop, tag.stop, html⟩], [], setAttribute source tag⟩
    | .setAttribute _ _ _ => some ⟨element.start, [], change.updates, setAttribute source tag⟩
    | .rename new _ =>
      match Remedy.Jsx.name? tag with
      | none => none
      | some name =>
        if name.kind != "identifier" then none
        else some ⟨element.start, renameEdits element name new, change.updates, setAttribute source tag⟩
  | _, _ => none

/-- What fixes propose in a script: each for the element at its place. -/
def reading (source : Bytes) (elements : List Node) : Reading := fun f =>
  .ok (f.location.bind fun l => (elementAt? source elements l.start).bind (proposal? source f))

theorem reading_congr {f g : Fix} (h : f.Agrees g) (source : Bytes) (elements : List Node) :
    reading source elements f = reading source elements g := by
  have proposals : proposal? source f = proposal? source g := by
    funext element
    rw [proposal?, proposal?, h.change]
  rw [reading, reading, h.location, proposals]

theorem planFix_eq (source : Bytes) (element : Node) (f : Fix) (p : EditPlan) :
    ∃ notices, planFix source element f p =
      match proposal? source f element with
      | some q => (q.batch p.claims, { p with claims := p.claims ++ q.fresh p.claims }, notices)
      | none => ([], p, notices) := by
  rw [planFix, proposal?]
  cases Remedy.Jsx.opening? element with
  | none => exact ⟨[], rfl⟩
  | some tag =>
    cases f.change? with
    | none => exact ⟨[], rfl⟩
    | some change =>
      cases change with
      | insert html =>
        simp only
        split
        · exact ⟨_, rfl⟩
        · exact ⟨[], by simp [Proposal.batch, Proposal.fresh, freeUpdates]⟩
      | setAttribute overwrite name value =>
        obtain ⟨edits, claimed⟩ := updateEdits_eq f element.start (setAttribute source tag)
          (Change.setAttribute overwrite name value).updates p
        refine ⟨(updateEdits f element.start (setAttribute source tag)
          (Change.setAttribute overwrite name value).updates p).2.2, ?_⟩
        exact Prod.ext edits (Prod.ext claimed rfl)
      | rename new attributes =>
        simp only
        cases Remedy.Jsx.name? tag with
        | none => exact ⟨[], rfl⟩
        | some name =>
          simp only
          split
          · exact ⟨_, rfl⟩
          · obtain ⟨edits, claimed⟩ := updateEdits_eq f element.start (setAttribute source tag)
              (Change.rename new attributes).updates p
            exact ⟨_, by simp only [edits, claimed]; rfl⟩

theorem planOne_fst (source : Bytes) (elements : List Node) (f : Fix) (p : EditPlan) :
    .ok (planOne source elements f p).1 = (reading source elements).step f p := by
  rw [planOne, Reading.step, reading]
  cases f.location with
  | none => rfl
  | some l =>
    simp only [Option.bind_some]
    cases elementAt? source elements l.start with
    | none => rfl
    | some element =>
      obtain ⟨notices, planned⟩ := planFix_eq source element f p
      simp only [planned, Option.bind_some]
      cases proposal? source f element with
      | none =>
        -- The empty batch is added, which changes nothing.
        simp [EditPlan.addFor_fst, EditPlan.answer, EditPlan.add?, EditPlan.conflicts, Except.map]
      | some q =>
        simp only [EditPlan.addFor_fst]
        rfl

theorem planAll_fst (source : Bytes) (elements : List Node) (fixes : List Fix) (p : EditPlan) :
    .ok (planAll source elements fixes p).1 = (reading source elements).planFrom fixes p := by
  induction fixes generalizing p with
  | nil => rfl
  | cons f rest ih =>
    rw [Reading.planFrom, ← planOne_fst]
    exact ih (planOne source elements f p).1

end Jsx

/-! ### Texts -/

/-- What a text becomes depends on the edits alone. -/
theorem finish_congr (source : String) (bytes : Text.Bytes) {p q : EditPlan} (h : p.edits = q.edits) :
    finish source bytes p = finish source bytes q := by
  rw [finish, finish, h]

/-- The plan of a pass over a page, whose tree is known. -/
def Html.planOf (source : String) (root : Node) (lookup : Lookup) (fixes : List Fix) : Except PatchError EditPlan :=
  (planAll (Text.encode source.toList) (targets root) lookup (Fix.distinct fixes).1 .empty).1

/-- The plan of a pass over a script, whose tree is known. -/
def Jsx.planOf (source : String) (root : Node) (fixes : List Fix) : Except PatchError EditPlan :=
  .ok (planAll (Text.encode source.toList) (targets root) (Fix.distinct fixes).1 .empty).1

theorem Html.planOf_eq (source : String) (root : Node) (lookup : Lookup) :
    planOf source root lookup = (reading (Text.encode source.toList) (targets root) lookup).pass := by
  funext fixes
  exact planAll_fst _ _ _ _ _

theorem Jsx.planOf_eq (source : String) (root : Node) :
    planOf source root = (reading (Text.encode source.toList) (targets root)).pass := by
  funext fixes
  exact planAll_fst _ _ _ _

theorem Html.text_applyTo (source : String) (root : Node) (lookup : Lookup) (fixes : List Fix) :
    (applyTo source root lookup fixes).text =
      (planOf source root lookup fixes).bind (finish source (Text.encode source.toList)) := rfl

theorem Jsx.text_applyTo (source : String) (root : Node) (fixes : List Fix) :
    (applyTo source root fixes).text =
      (planOf source root fixes).bind (finish source (Text.encode source.toList)) := rfl

/-- So two passes that come to the same edits, or fail alike, leave the same text. -/
theorem bind_finish_congr (source : String) (bytes : Text.Bytes) {a b : Except PatchError EditPlan}
    (h : a.map (·.edits) = b.map (·.edits)) : a.bind (finish source bytes) = b.bind (finish source bytes) := by
  cases a with
  | error e =>
    cases b with
    | error e' =>
      obtain rfl := Except.error.inj h
      rfl
    | ok q => cases h
  | ok p =>
    cases b with
    | error e => cases h
    | ok q => exact finish_congr source bytes (Except.ok.inj h)

end Patch

end Remedy
