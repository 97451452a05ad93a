import Remedy.Proofs.Signature.Evidence

/-!
When an id decides. An id that fits counts as much as it counts, whatever else a candidate has, so it decides between two
candidates as long as the other one is not ahead by as much. For some signatures no candidate can be: those that have little
else to tell of their element.
-/

namespace Remedy.Signature

/-- Two candidates of the tag, of which the first carries an id and the second does not. -/
structure Rivals (s : Signature) (id : String) (c d : Candidate) : Prop where
  tag : Text.lower c.tag = Text.lower s.tag
  otherTag : Text.lower d.tag = Text.lower s.tag
  carries : c.attributes.lookup "id" = some id
  lacks : d.attributes.lookup "id" ≠ some id

variable {s : Signature} {id : String} {c d : Candidate}

theorem idScore_carries (told : s.attributes.lookup "id" = some id) (nonempty : id ≠ "")
    (carries : c.attributes.lookup "id" = some id) : s.idScore c = weights.id := by
  simp [idScore, told, carries, nonempty]

theorem idScore_lacks (told : s.attributes.lookup "id" = some id) (lacks : d.attributes.lookup "id" ≠ some id) :
    s.idScore d = 0 := by
  simp [idScore, told, lacks]

/-- Between rivals the id is one more weight on the one side. -/
theorem score_lt_iff (told : s.attributes.lookup "id" = some id) (nonempty : id ≠ "") (rivals : s.Rivals id c d) :
    s.score d < s.score c ↔ s.evidence d < weights.id + s.evidence c := by
  rw [score_of_tag rivals.tag, score_of_tag rivals.otherTag, idScore_carries told nonempty rivals.carries,
    idScore_lacks told rivals.lacks]
  omega

/-! ### The hardest rivals -/

/-- A candidate with nothing but the tag and the id. -/
def bare (s : Signature) (id : String) : Candidate := ⟨s.tag, "", [], [("id", id)], ⟨1, 0⟩, none, ""⟩

/-- A candidate with all that a signature tells but the id. -/
def nameless (s : Signature) : Candidate :=
  ⟨s.tag, s.text.getD "", s.classes, s.attributes.filter fun u => u.1 != "id", ⟨1, 0⟩, none, ""⟩

theorem isScoredApart_id : isScoredApart "id" = true := by decide +kernel

theorem lookup_of_mem {fields : List (String × String)} (keyed : (fields.map Prod.fst).Nodup) {name value : String}
    (told : (name, value) ∈ fields) : fields.lookup name = some value := by
  obtain ⟨front, rest, split⟩ := List.append_of_mem told
  refine List.lookup_eq_some_iff.mpr ⟨front, rest, split, fun u before => ?_⟩
  rw [split, List.map_append, List.map_cons] at keyed
  have apart := (List.nodup_append.mp keyed).2.2 u.1 (List.mem_map_of_mem before) name List.mem_cons_self
  simpa using Ne.symm apart

theorem rivals_hardest (s : Signature) (id : String) : s.Rivals id (s.bare id) s.nameless where
  tag := rfl
  otherTag := rfl
  carries := rfl
  lacks carried := by
    obtain ⟨front, rest, split, _⟩ := List.lookup_eq_some_iff.mp carried
    have held : ("id", id) ∈ s.nameless.attributes := by simp [split]
    simp [nameless] at held

theorem evidence_bare (s : Signature) (id : String) : s.evidence (s.bare id) = 0 := by
  have text : textScore (s.text.getD "") (s.bare id).text = 0 := (textScore_empty _).2
  have classes : s.classScore (s.bare id) = 0 := by simp [classScore, bare]
  have attributes : s.attributeScore (s.bare id) = 0 := by
    rw [attributeScore, List.filter_eq_nil_iff.mpr, List.length_nil, Nat.mul_zero]
    rintro ⟨name, value⟩ _ counted
    simp only [Bool.and_eq_true, Bool.not_eq_true', beq_iff_eq, bare] at counted
    obtain ⟨scored, carried⟩ := counted
    -- It carries nothing but the id, and that is scored apart.
    by_cases same : name = "id"
    · rw [same, isScoredApart_id] at scored
      cases scored
    · simp [List.lookup_cons, beq_false_of_ne same] at carried
  rw [evidence, text, classes, attributes]

theorem evidence_nameless (keyed : (s.attributes.map Prod.fst).Nodup) : s.evidence s.nameless = s.noise := by
  refine evidence_eq_noise (fun t told => ?_) (List.Subset.refl _) fun u scored => ?_
  · rw [nameless, told, Option.getD_some]
  · obtain ⟨told, apart⟩ := List.mem_filter.mp scored
    have other : u.1 ≠ "id" := by
      intro same
      rw [same, isScoredApart_id] at apart
      cases apart
    exact lookup_of_mem (keyed.sublist (List.filter_sublist.map Prod.fst)) (List.mem_filter.mpr ⟨told, by simpa using other⟩)

/-- **When an id decides.** Of two candidates of the tag, the one with the id scores more exactly if the other one is not ahead in
everything else by as much as an id counts. No candidate without the id can catch up exactly if all else that the signature
tells adds up to less than an id. Where none among the candidates does, no candidate without the id is ranked before one with it. -/
theorem id_decides_iff (told : s.attributes.lookup "id" = some id) (nonempty : id ≠ "")
    (keyed : (s.attributes.map Prod.fst).Nodup) :
    (∀ c d, s.Rivals id c d → (s.score d < s.score c ↔ s.evidence d < weights.id + s.evidence c)) ∧
      ((∀ c d, s.Rivals id c d → s.score d < s.score c) ↔ s.noise < weights.id) ∧
      ∀ cs : List Candidate, (∀ c ∈ cs, ∀ d ∈ cs, s.Rivals id c d → s.evidence d < weights.id + s.evidence c) →
        (s.rank cs).Pairwise fun a b =>
          b.2.attributes.lookup "id" = some id → a.2.attributes.lookup "id" = some id := by
  refine ⟨fun c d => score_lt_iff told nonempty, ⟨?hardest, ?quiet⟩, ?ranked⟩
  case hardest =>
    -- No rivals are further apart than the one with nothing but the id and the one with everything else.
    intro always
    have hardest := (score_lt_iff told nonempty (rivals_hardest s id)).mp (always _ _ (rivals_hardest s id))
    rwa [evidence_bare, evidence_nameless keyed, Nat.add_zero] at hardest
  case quiet =>
    intro quiet c d rivals
    rw [score_lt_iff told nonempty rivals]
    exact Nat.lt_of_lt_of_le (Nat.lt_of_le_of_lt (evidence_le_noise s d) quiet) (Nat.le_add_right _ _)
  case ranked =>
    intro cs behind
    have sorted : (s.rank cs).Pairwise fun a b => a.precedes b = true :=
      List.pairwise_mergeSort Scored.precedes_trans Scored.precedes_total _
    refine sorted.imp_of_mem fun {a b} ha hb before carries => ?_
    by_contra lacks
    obtain ⟨member, score, positive⟩ := (s.mem_rank_iff cs a).mp ha
    obtain ⟨member', score', positive'⟩ := (s.mem_rank_iff cs b).mp hb
    have rivals : s.Rivals id b.2 a.2 :=
      ⟨(s.score_pos_iff _).mp (score' ▸ positive'), (s.score_pos_iff _).mp (score ▸ positive), carries, lacks⟩
    have less := (score_lt_iff told nonempty rivals).mpr (behind _ member' _ member rivals)
    rw [← score, ← score'] at less
    -- What is ranked first scores at least as much.
    rcases Scored.precedes_iff.mp before with more | ⟨same, _⟩
    · exact Nat.lt_asymm less more
    · exact Nat.ne_of_lt less same

/-! ### A button with many classes -/

namespace SaveButton

/-- Eleven classes, as style sheets of small parts ask for. -/
def styles : List String := ["flex", "gap-2", "h-8", "mt-4", "p-2", "ring-1", "rounded", "shadow", "text-sm", "w-8", "z-10"]

/-- A button with the id and another text. -/
def named : Candidate := candidate "Store" [] [("id", "save")]

/-- A button with the text and all the classes, but without the id. -/
def styled (classes : List String) : Candidate := candidate "Save" classes []

theorem rivals (classes : List String) : (signature classes).Rivals "save" named (styled classes) where
  tag := rfl
  otherTag := rfl
  carries := rfl
  lacks := nofun

end SaveButton

open SaveButton in
/-- With one class the id decides, whatever the text is. -/
theorem save_button_decided :
    (signature ["btn"]).score (styled ["btn"]) < (signature ["btn"]).score named ∧
      ((signature ["btn"]).rank [styled ["btn"], named]).Pairwise fun a b =>
        b.2.attributes.lookup "id" = some "save" → a.2.attributes.lookup "id" = some "save" := by
  have told : (signature ["btn"]).attributes.lookup "id" = some "save" := rfl
  obtain ⟨between, always, ranked⟩ := id_decides_iff told (by decide) (by decide)
  have quiet : (signature ["btn"]).noise < weights.id := by decide +kernel
  exact ⟨always.mpr quiet _ _ (rivals ["btn"]), ranked _ fun c _ d _ both => (between c d both).mp (always.mpr quiet c d both)⟩

open SaveButton in
/-- With eleven classes in common it does not: the button without the id is ranked first. -/
theorem styles_outweigh_id :
    (signature styles).rank [styled styles, named] = [(115, styled styles), (110, named)] ∧
      ¬ ∀ (s : Signature) (id : String), s.attributes.lookup "id" = some id → id ≠ "" →
        ∀ c d, s.Rivals id c d → s.score d < s.score c := by
  have more : (signature styles).score (styled styles) = 115 := by decide +kernel
  have less : (signature styles).score named = 110 := by decide +kernel
  refine ⟨?_, fun always => ?_⟩
  · rw [rank, List.map_cons, List.map_cons, more, less]
    exact List.mergeSort_of_pairwise (by decide +kernel)
  · have decided := always (signature styles) "save" rfl (by decide) named (styled styles) (rivals styles)
    rw [more, less] at decided
    exact absurd decided (by decide)

end Remedy.Signature
