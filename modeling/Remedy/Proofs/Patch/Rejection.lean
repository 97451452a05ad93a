import Mathlib.Data.List.Basic
import Remedy.Proofs.Patch.Proposal

/-!
What is left of a fix that a pass over a syntax tree rejects.

Nothing is left of its edits, but a fix whose edits are refused has by then claimed its attributes, and these claims
stay. As long as no later fix sets one of these attributes, the pass comes out the same without the rejected fix, its later
copies included: one that is planned in its place is refused just as well. A fix that does set one of them is turned away
because of a fix that was itself rejected.
-/

namespace Remedy.Patch

/-! ### Rejected fixes -/

section

variable (plan : List Fix → Except PatchError EditPlan)

/-- The edits that a fix adds to those of the fixes before it. -/
def contribution (before : List Fix) (f : Fix) : List Replacement :=
  match plan before, plan (before ++ [f]) with
  | .ok p, .ok q => q.edits.drop p.edits.length
  | _, _ => []

/-- The pass gets to a fix and past it, and takes no edit from it. -/
def Rejects (before : List Fix) (f : Fix) : Prop :=
  ∃ p q, plan before = .ok p ∧ plan (before ++ [f]) = .ok q ∧ q.edits = p.edits

/-- The claims that a fix adds to those of the fixes before it. -/
def newClaims (before : List Fix) (f : Fix) : List (Nat × String) :=
  match plan before, plan (before ++ [f]) with
  | .ok p, .ok q => q.claims.drop p.claims.length
  | _, _ => []

/-- Claims of a rejected fix are in nobody's way: no later fix makes one of them in a pass of its own, unless it is a copy. -/
def Harmless (before : List Fix) (f : Fix) (after : List Fix) : Prop :=
  ∀ g ∈ after, g.identity ≠ f.identity → ∀ c ∈ newClaims plan [] g, c ∉ newClaims plan before f

end

theorem contribution_congr {plan : List Fix → Except PatchError EditPlan} {before other : List Fix} {f : Fix}
    (start : (plan before).map (·.edits) = (plan other).map (·.edits))
    (stop : (plan (before ++ [f])).map (·.edits) = (plan (other ++ [f])).map (·.edits)) :
    contribution plan before f = contribution plan other f := by
  rw [contribution, contribution]
  generalize plan before = a, plan other = b, plan (before ++ [f]) = c, plan (other ++ [f]) = d at start stop
  cases a <;> cases b <;> cases c <;> cases d <;> simp_all [Except.map]

namespace Reading

variable (r : Reading)

/-- In a pass of its own a fix makes all the claims it asks for. -/
theorem mem_newClaims_nil {f : Fix} {c : Nat × String} : c ∈ newClaims r.pass [] f ↔ c ∈ r.asks f := by
  have alone : r.pass ([] ++ [f]) = r.step f .empty := r.pass_snoc_new rfl
  have start : r.pass [] = .ok .empty := rfl
  rw [newClaims, start, alone, asks]
  cases h : r f with
  | error e => rw [r.step_error h]
  | ok proposal =>
    cases proposal with
    | none =>
      rw [r.step_none h]
      simp
    | some q =>
      rw [r.step_some h]
      simp [EditPlan.empty, Proposal.mem_fresh]

/-! ### Plans that differ in nothing but the order of claims -/

/-- Two plans with the same edits and the same claims, whatever their order. -/
structure Alike (p p' : EditPlan) : Prop where
  edits : p.edits = p'.edits
  claims : ∀ c, c ∈ p.claims ↔ c ∈ p'.claims

theorem conflicts_congr {p p' : EditPlan} (h : p.edits = p'.edits) (batch : List Replacement) :
    p.conflicts batch = p'.conflicts batch := by
  rw [EditPlan.conflicts, EditPlan.conflicts, h]

/-- A proposal fares the same in two plans with the same edits that hold the same of the claims asked for. -/
theorem edits_consider_congr {p p' : EditPlan} {q : Proposal} (edits : p.edits = p'.edits)
    (claims : ∀ c ∈ q.claims, c ∈ p.claims ↔ c ∈ p'.claims) : (p.consider q).edits = (p'.consider q).edits := by
  have batch := Proposal.batch_congr claims
  cases h : p.conflicts (q.batch p.claims) with
  | true =>
    have h' := h
    rw [batch, conflicts_congr edits] at h'
    rw [p.edits_consider_refused q h, p'.edits_consider_refused q h', edits]
  | false =>
    have h' := h
    rw [batch, conflicts_congr edits] at h'
    rw [p.edits_consider_taken q h, p'.edits_consider_taken q h', edits, batch]

theorem Alike.consider {p p' : EditPlan} (h : Alike p p') (q : Proposal) : Alike (p.consider q) (p'.consider q) where
  edits := edits_consider_congr h.edits fun c _ => h.claims c
  claims c := by
    rw [EditPlan.claims_consider, EditPlan.claims_consider, Proposal.fresh_congr fun c _ => h.claims c, List.mem_append,
      List.mem_append, h.claims c]

theorem planFrom_alike {p p' : EditPlan} (h : Alike p p') (fixes : List Fix) :
    (r.planFrom fixes p).map (·.edits) = (r.planFrom fixes p').map (·.edits) := by
  induction fixes generalizing p p' with
  | nil => exact congrArg Except.ok h.edits
  | cons f rest ih =>
    rw [planFrom, planFrom]
    cases read : r f with
    | error e => rw [r.step_error read, r.step_error read]
    | ok proposal =>
      cases proposal with
      | none =>
        rw [r.step_none read, r.step_none read]
        exact ih h
      | some q =>
        rw [r.step_some read, r.step_some read]
        exact ih (h.consider q)

/-! ### A pass with a rejected fix beside one without -/

/-- The plan of a pass with a rejected fix beside that of the pass without it: the first has some claims more, and if the
fix were planned in the second it would be rejected again and leave just these. -/
structure Shadows (f : Fix) (left : List (Nat × String)) (p p' : EditPlan) : Prop where
  edits : p.edits = p'.edits
  claims : ∀ c, c ∈ p.claims ↔ c ∈ p'.claims ∨ c ∈ left
  again : ∃ next, r.step f p' = .ok next ∧ next.edits = p'.edits ∧ ∀ c, c ∈ next.claims ↔ c ∈ p'.claims ∨ c ∈ left

variable {r} {f : Fix} {left : List (Nat × String)} {p p' : EditPlan}

/-- A proposal that asks for none of the claims left keeps it that way. -/
theorem Shadows.consider (h : r.Shadows f left p p') {q : Proposal} (free : ∀ c ∈ q.claims, c ∉ left) :
    r.Shadows f left (p.consider q) (p'.consider q) := by
  have same (c : Nat × String) (asked : c ∈ q.claims) : c ∈ p.claims ↔ c ∈ p'.claims := by
    rw [h.claims c, or_iff_left (free c asked)]
  obtain ⟨next, stepped, edits, claims⟩ := h.again
  refine ⟨edits_consider_congr h.edits same, fun c => ?_, ?_⟩
  · -- Both plans take the same new claims.
    rw [EditPlan.claims_consider, EditPlan.claims_consider, Proposal.fresh_congr same, List.mem_append, List.mem_append,
      h.claims c]
    tauto
  obtain ⟨read, rfl⟩ | ⟨own, read, rfl⟩ := step_cases stepped
  · refine ⟨_, r.step_none read _, rfl, fun c => ?_⟩
    -- The fix makes no claims at all, so nothing is left of it that was not there.
    have old := claims c
    rw [EditPlan.claims_consider, List.mem_append]
    tauto
  · simp only [EditPlan.claims_consider, List.mem_append] at claims
    -- Of what the fix asks for, the proposal in between has taken nothing: all of that is left over.
    have unmoved (c : Nat × String) (asked : c ∈ own.claims) : c ∈ (p'.consider q).claims ↔ c ∈ p'.claims := by
      rw [EditPlan.claims_consider, List.mem_append, or_iff_left_iff_imp]
      intro taken
      by_contra absent
      have new := Proposal.mem_fresh.mpr ⟨asked, absent⟩
      exact free c (Proposal.mem_fresh.mp taken).1 (((claims c).mp (Or.inr new)).resolve_left absent)
    refine ⟨_, r.step_some read _, ?_, fun c => ?_⟩
    · rw [EditPlan.edits_consider_eq_self] at edits ⊢
      rw [Proposal.batch_congr unmoved]
      obtain ⟨added, grown⟩ := p'.edits_consider q
      refine edits.imp_right fun conflict => ?_
      rw [EditPlan.conflicts_iff] at conflict ⊢
      obtain ⟨e, member, s, held, overlap⟩ := conflict
      exact ⟨e, member, s, by rw [grown]; exact List.mem_append_left _ held, overlap⟩
    · have old := claims c
      rw [EditPlan.claims_consider, Proposal.fresh_congr unmoved, List.mem_append, EditPlan.claims_consider,
        List.mem_append]
      tauto

/-- The rest of a pass comes to the same edits without a fix that was rejected, if no other fix asks for what it has left. -/
theorem passFrom_forget {seen rest : List Fix} (h : r.Shadows f left p p')
    (copies : ∀ g ∈ rest, g.identity = f.identity → r g = r f)
    (free : ∀ g ∈ rest, g.identity ≠ f.identity → ∀ c ∈ r.asks g, c ∉ left) :
    (r.passFrom (seen ++ [f]) rest p).map (·.edits) = (r.passFrom seen rest p').map (·.edits) := by
  -- The plans shadow one another up to the first copy of the fix, and are alike behind it.
  induction rest generalizing seen p p' with
  | nil => exact congrArg Except.ok h.edits
  | cons g rest ih =>
    have laterCopies (e : Fix) (member : e ∈ rest) := copies e (List.mem_cons_of_mem g member)
    have laterFree (e : Fix) (member : e ∈ rest) := free e (List.mem_cons_of_mem g member)
    by_cases copy : g.identity = f.identity
    · have repeated : Fix.isRepeated (seen ++ [f]) g = true :=
        Fix.isRepeated_iff.mpr ⟨f, List.mem_append_right _ List.mem_cons_self, copy.symm⟩
      rw [r.passFrom_repeated repeated]
      cases old : Fix.isRepeated seen g with
      | true =>
        rw [r.passFrom_repeated old]
        exact ih h laterCopies laterFree
      | false =>
        -- The first copy is planned in place of the fix, and from there on both passes are alike.
        obtain ⟨next, stepped, edits, claims⟩ := h.again
        rw [r.passFrom_new old, r.step_congr (copies g List.mem_cons_self copy), stepped]
        have alike : Alike p next := ⟨h.edits.trans edits.symm, fun c => (h.claims c).trans (claims c).symm⟩
        have same : ∀ e, Fix.isRepeated (seen ++ [f]) e = Fix.isRepeated (seen ++ [g]) e := by
          intro e
          simp [Fix.isRepeated, copy]
        rw [r.passFrom_congr same]
        exact r.planFrom_alike alike _
    · have same : Fix.isRepeated (seen ++ [f]) g = Fix.isRepeated seen g := by
        simp [Fix.isRepeated, Ne.symm copy]
      have swapped : ∀ e, Fix.isRepeated (seen ++ [f] ++ [g]) e = Fix.isRepeated (seen ++ [g] ++ [f]) e := by
        intro e
        simp only [Fix.isRepeated_append]
        rw [Bool.or_right_comm]
      cases old : Fix.isRepeated seen g with
      | true =>
        rw [r.passFrom_repeated (same.trans old), r.passFrom_repeated old]
        exact ih h laterCopies laterFree
      | false =>
        rw [r.passFrom_new (same.trans old), r.passFrom_new old]
        cases read : r g with
        | error e =>
          rw [r.step_error read, r.step_error read]
          rfl
        | ok proposal =>
          cases proposal with
          | none =>
            rw [r.step_none read, r.step_none read]
            change (r.passFrom (seen ++ [f] ++ [g]) rest p).map _ = (r.passFrom (seen ++ [g]) rest p').map _
            rw [r.passFrom_congr swapped]
            exact ih h laterCopies laterFree
          | some q =>
            have asked := free g List.mem_cons_self copy
            rw [asks, read] at asked
            rw [r.step_some read, r.step_some read]
            change (r.passFrom (seen ++ [f] ++ [g]) rest _).map _ = (r.passFrom (seen ++ [g]) rest _).map _
            rw [r.passFrom_congr swapped]
            exact ih (h.consider asked) laterCopies laterFree

/-- A rejected fix may be left out if its claims are harmless. -/
theorem pass_without {before after : List Fix} (rejected : Rejects r.pass before f)
    (copies : ∀ g ∈ after, g.identity = f.identity → r g = r f) (harmless : Harmless r.pass before f after) :
    (r.pass (before ++ f :: after)).map (·.edits) = (r.pass (before ++ after)).map (·.edits) := by
  obtain ⟨p, q, start, stop, edits⟩ := rejected
  rw [List.append_cons, r.pass_append (before ++ [f]), stop, r.pass_append before, start]
  change (r.passFrom (before ++ [f]) after q).map _ = (r.passFrom before after p).map _
  cases old : Fix.isRepeated before f with
  | true =>
    rw [r.pass_snoc_repeated old, start, Except.ok.injEq] at stop
    subst stop
    congr 1
    apply r.passFrom_congr
    intro g
    rw [Fix.isRepeated_insert old [] g, List.append_nil]
  | false =>
    have stepped : r.step f p = .ok q := by rw [← stop, r.pass_snoc_new old, start]; rfl
    have grown : ∃ added, q.claims = p.claims ++ added := by
      obtain ⟨_, rfl⟩ | ⟨own, _, rfl⟩ := step_cases stepped
      · exact ⟨[], by rw [List.append_nil]⟩
      · exact ⟨own.fresh p.claims, EditPlan.claims_consider p own⟩
    obtain ⟨added, claims⟩ := grown
    have left : newClaims r.pass before f = added := by
      simp only [newClaims, start, stop, claims, List.drop_left]
    have members (c : Nat × String) : c ∈ q.claims ↔ c ∈ p.claims ∨ c ∈ added := by rw [claims, List.mem_append]
    have shadows : r.Shadows f added q p := ⟨edits, members, q, stepped, edits, members⟩
    apply passFrom_forget shadows copies
    intro g member other c asked
    have free := harmless g member other c (r.mem_newClaims_nil.mpr asked)
    rwa [left] at free

/-- Then every later fix contributes what it would contribute without the rejected one. -/
theorem contribution_without {before after : List Fix} (rejected : Rejects r.pass before f)
    (copies : ∀ g ∈ after, g.identity = f.identity → r g = r f) (harmless : Harmless r.pass before f after)
    {mid post : List Fix} {g : Fix} (split : after = mid ++ g :: post) :
    contribution r.pass (before ++ f :: mid) g = contribution r.pass (before ++ mid) g := by
  have part (fixes : List Fix) (within : fixes ⊆ after) :
      (r.pass (before ++ f :: fixes)).map (·.edits) = (r.pass (before ++ fixes)).map (·.edits) :=
    pass_without rejected (fun e member => copies e (within member)) fun e member => harmless e (within member)
  apply contribution_congr
  · exact part mid (by simp [split])
  · have last := part (mid ++ [g]) (by simp [split])
    simpa only [List.append_assoc, List.cons_append] using last

end Reading

/-! ### Three fixes for one element

The tag gets one name, then it should get another one and a title, which is refused. The title stays claimed.
-/

namespace Retitled

def source : String := "<a>t</a>"

def leaf (kind : String) (role : Option String) (start stop : Nat) : Node := .mk kind true false false start stop role []

/-- The text as a page. -/
def page : Node :=
  .mk "document" true false false 0 8 none
    [.mk "element" true false false 0 8 none
      [.mk "start_tag" true false false 0 3 none [leaf "tag_name" none 1 2],
       leaf "text" none 3 4,
       .mk "end_tag" true false false 4 8 none [leaf "tag_name" none 6 7]]]

/-- The text as a script. -/
def script : Node :=
  .mk "program" true false false 0 8 none
    [.mk "jsx_element" true false false 0 8 none
      [.mk "jsx_opening_element" true false false 0 3 (some "open_tag") [leaf "identifier" (some "name") 1 2],
       leaf "jsx_text" none 3 4,
       .mk "jsx_closing_element" true false false 4 8 (some "close_tag") [leaf "identifier" (some "name") 6 7]]]

def lookup : Html.Lookup := fun _ => .ok (none, [])

def fixWith (kind : FixKind) (payload : Payload) : Fix :=
  ⟨kind, "", payload, ⟨.null, none, none, some ⟨"", ⟨1, 0⟩, none⟩, []⟩⟩

def rename : Fix := fixWith .convertTag ⟨none, none, none, some "b", []⟩

def retitle : Fix := fixWith .convertTag ⟨none, none, none, some "i", [("title", "T")]⟩

def add (name : String) : Fix := fixWith .addAttribute ⟨some name, some "V", none, none, []⟩

def names (new : String) : List Replacement := [⟨1, 2, new⟩, ⟨6, 7, new⟩]

/-- A reading of the fixes that leaves it open how attributes are written. -/
structure Reads (r : Reading) (edit : String → String → Replacement) : Prop where
  renames : r rename = .ok (some ⟨0, names "b", [], edit⟩)
  retitles : r retitle = .ok (some ⟨0, names "i", [("title", "T")], edit⟩)
  addsTitle : r (add "title") = .ok (some ⟨0, [], [("title", "V")], edit⟩)
  addsLang : r (add "lang") = .ok (some ⟨0, [], [("lang", "V")], edit⟩)

theorem title_lower : Text.lower "title" = "title" := by decide +kernel

theorem lang_lower : Text.lower "lang" = "lang" := by decide +kernel

section

variable {r : Reading} {edit : String → String → Replacement}

theorem Reads.pass_rename (h : Reads r edit) : r.pass [rename] = .ok ⟨names "b", []⟩ := by
  have passed : r.pass ([] ++ [rename]) = _ := r.pass_snoc_some rfl rfl h.renames
  exact passed

theorem Reads.pass_retitle (h : Reads r edit) : r.pass [rename, retitle] = .ok ⟨names "b", [(0, "title")]⟩ := by
  have new : Fix.isRepeated [rename] retitle = false := by cbv
  have passed := r.pass_snoc_some new h.pass_rename h.retitles
  simpa [EditPlan.consider, EditPlan.answer, EditPlan.add?, EditPlan.conflicts, Proposal.fresh, Proposal.batch,
    freeUpdates, claimOf, title_lower, names, Replacement.overlaps] using passed

theorem Reads.rejects (h : Reads r edit) : Rejects r.pass [rename] retitle :=
  ⟨_, _, h.pass_rename, h.pass_retitle, rfl⟩

theorem Reads.newClaims_retitle (h : Reads r edit) : newClaims r.pass [rename] retitle = [(0, "title")] := by
  have pair : [rename] ++ [retitle] = [rename, retitle] := rfl
  simp only [newClaims, pair, h.pass_rename, h.pass_retitle, List.length_nil, List.drop_zero]

/-- The title is in the way of no other attribute. -/
theorem Reads.harmless (h : Reads r edit) : Harmless r.pass [rename] retitle [add "lang"] := by
  intro g member other c asked
  obtain rfl := List.mem_singleton.mp member
  rw [r.mem_newClaims_nil, Reading.asks, h.addsLang] at asked
  rw [h.newClaims_retitle]
  simp_all [Proposal.claims, claimOf, lang_lower]

/-- A title that comes later is left out. -/
theorem Reads.pass_title (h : Reads r edit) :
    r.pass [rename, retitle, add "title"] = .ok ⟨names "b", [(0, "title")]⟩ := by
  have new : Fix.isRepeated [rename, retitle] (add "title") = false := by cbv
  have passed := r.pass_snoc_some new h.pass_retitle h.addsTitle
  simpa [EditPlan.consider, EditPlan.answer, EditPlan.add?, EditPlan.conflicts, Proposal.fresh, Proposal.batch,
    freeUpdates, claimOf, title_lower, names, Replacement.overlaps] using passed

/-- Without the refused fix it is set. -/
theorem Reads.pass_title_alone (h : Reads r edit) (write : edit "title" "V" = ⟨2, 2, " title=\"V\""⟩) :
    r.pass [rename, add "title"] = .ok ⟨names "b" ++ [⟨2, 2, " title=\"V\""⟩], [(0, "title")]⟩ := by
  have new : Fix.isRepeated [rename] (add "title") = false := by cbv
  have passed := r.pass_snoc_some new h.pass_rename h.addsTitle
  simpa [EditPlan.consider, EditPlan.answer, EditPlan.add?, EditPlan.conflicts, Proposal.fresh, Proposal.batch,
    freeUpdates, claimOf, title_lower, names, Replacement.overlaps, write] using passed

end

theorem encoded : Text.encode source.toList = [60, 97, 62, 116, 60, 47, 97, 62] := rfl

theorem page_reads : Reads (Html.reading (Text.encode source.toList) (Html.targets page) lookup)
    (Html.setAttribute (Text.encode source.toList)
      (.mk "start_tag" true false false 0 3 none [leaf "tag_name" none 1 2])) := by
  rw [encoded]
  exact ⟨rfl, rfl, rfl, rfl⟩

theorem script_reads : Reads (Jsx.reading (Text.encode source.toList) (Jsx.targets script))
    (Jsx.setAttribute (Text.encode source.toList)
      (.mk "jsx_opening_element" true false false 0 3 (some "open_tag") [leaf "identifier" (some "name") 1 2])) := by
  rw [encoded]
  exact ⟨rfl, rfl, rfl, rfl⟩

/-- A new attribute of the tag of the page is put before its bracket. -/
theorem page_writes (name value : String) : Html.setAttribute (Text.encode source.toList)
    (.mk "start_tag" true false false 0 3 none [leaf "tag_name" none 1 2]) name value =
      ⟨2, 2, " " ++ Html.rendered name value⟩ := by
  rw [encoded]
  rfl

end Retitled

/-- **A rejected fix whose claims are in nobody's way leaves no trace.** A pass comes to the same text without a fix that it
rejects, and every later fix contributes the same edits, if no later fix of another identity sets an attribute that the
rejected one has claimed. -/
theorem rejection_traceless (source : String) (root : Node) (before : List Fix) (f : Fix) (after : List Fix) :
    (∀ lookup : Html.Lookup, Rejects (Html.planOf source root lookup) before f →
      Harmless (Html.planOf source root lookup) before f after →
      (Html.applyTo source root lookup (before ++ f :: after)).text =
          (Html.applyTo source root lookup (before ++ after)).text ∧
        ∀ mid g post, after = mid ++ g :: post →
          contribution (Html.planOf source root lookup) (before ++ f :: mid) g =
            contribution (Html.planOf source root lookup) (before ++ mid) g) ∧
    (Rejects (Jsx.planOf source root) before f → Harmless (Jsx.planOf source root) before f after →
      (Jsx.applyTo source root (before ++ f :: after)).text = (Jsx.applyTo source root (before ++ after)).text ∧
        ∀ mid g post, after = mid ++ g :: post →
          contribution (Jsx.planOf source root) (before ++ f :: mid) g =
            contribution (Jsx.planOf source root) (before ++ mid) g) := by
  constructor
  · intro lookup
    rw [Html.text_applyTo, Html.text_applyTo, Html.planOf_eq]
    intro rejected harmless
    have copies (g : Fix) (_ : g ∈ after) (same : g.identity = f.identity) :=
      Html.reading_congr (Fix.agrees_of_identity same) (Text.encode source.toList) (Html.targets root) lookup
    exact ⟨bind_finish_congr _ _ (Reading.pass_without rejected copies harmless),
      fun _ _ _ split => Reading.contribution_without rejected copies harmless split⟩
  · rw [Jsx.text_applyTo, Jsx.text_applyTo, Jsx.planOf_eq]
    intro rejected harmless
    have copies (g : Fix) (_ : g ∈ after) (same : g.identity = f.identity) :=
      Jsx.reading_congr (Fix.agrees_of_identity same) (Text.encode source.toList) (Jsx.targets root)
    exact ⟨bind_finish_congr _ _ (Reading.pass_without rejected copies harmless),
      fun _ _ _ split => Reading.contribution_without rejected copies harmless split⟩

/-- The language is set the same way without the fix that was refused, on the page and in the script. -/
theorem refused_title_traceless :
    (Html.applyTo Retitled.source Retitled.page Retitled.lookup
        [Retitled.rename, Retitled.retitle, Retitled.add "lang"]).text =
      (Html.applyTo Retitled.source Retitled.page Retitled.lookup [Retitled.rename, Retitled.add "lang"]).text ∧
    (Jsx.applyTo Retitled.source Retitled.script [Retitled.rename, Retitled.retitle, Retitled.add "lang"]).text =
      (Jsx.applyTo Retitled.source Retitled.script [Retitled.rename, Retitled.add "lang"]).text := by
  have onPage : Html.planOf Retitled.source Retitled.page Retitled.lookup = _ := Html.planOf_eq _ _ _
  have inScript : Jsx.planOf Retitled.source Retitled.script = _ := Jsx.planOf_eq _ _
  constructor
  · have traceless := (rejection_traceless Retitled.source Retitled.page [Retitled.rename] Retitled.retitle
      [Retitled.add "lang"]).1 Retitled.lookup
    rw [onPage] at traceless
    exact (traceless Retitled.page_reads.rejects Retitled.page_reads.harmless).1
  · have traceless := (rejection_traceless Retitled.source Retitled.script [Retitled.rename] Retitled.retitle
      [Retitled.add "lang"]).2
    rw [inScript] at traceless
    exact (traceless Retitled.script_reads.rejects Retitled.script_reads.harmless).1

/-- The title that a refused fix has claimed is not set by the next one, though nothing of the first is in the text. -/
theorem refused_claim_stays :
    ¬ ∀ (source : String) (root : Node) (lookup : Html.Lookup) (before : List Fix) (f : Fix) (after : List Fix),
      Rejects (Html.planOf source root lookup) before f →
      (Html.applyTo source root lookup (before ++ f :: after)).text =
        (Html.applyTo source root lookup (before ++ after)).text := by
  intro traceless
  have same := traceless Retitled.source Retitled.page Retitled.lookup [Retitled.rename] Retitled.retitle
    [Retitled.add "title"]
  rw [Html.text_applyTo, Html.text_applyTo, Html.planOf_eq] at same
  have equal := same Retitled.page_reads.rejects
  simp only [List.cons_append, List.nil_append, Retitled.page_reads.pass_title,
    Retitled.page_reads.pass_title_alone (Retitled.page_writes "title" "V")] at equal
  have left : finish Retitled.source (Text.encode Retitled.source.toList) ⟨Retitled.names "b", [(0, "title")]⟩ =
      .ok "<b>t</b>" := by cbv
  have right : finish Retitled.source (Text.encode Retitled.source.toList)
      ⟨Retitled.names "b" ++ [⟨2, 2, " title=\"V\""⟩], [(0, "title")]⟩ = .ok "<b title=\"V\">t</b>" := by cbv
  have texts : (Except.ok "<b>t</b>" : Except PatchError String) = .ok "<b title=\"V\">t</b>" :=
    left.symm.trans (equal.trans right)
  exact absurd (Except.ok.inj texts) (by decide)

end Remedy.Patch
