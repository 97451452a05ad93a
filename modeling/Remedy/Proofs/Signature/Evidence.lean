import Mathlib.Data.List.Basic
import Remedy.Proofs.Signature.Rank

/-!
How evidence adds up in a score. Whatever a candidate has in common with a signature counts for it, and nothing counts against
it: a candidate with more in common never scores less, and none scores more than one that has all that the signature tells.

An id that fits outweighs the rest as long as the rest adds up to less. How much that may be is told by the signature: by its
text, the number of its classes and the number of its other attributes.
-/

namespace Remedy

/-- A candidate that has whatever another one has: its classes, and its attributes with their values. -/
structure Candidate.Covers (d c : Candidate) : Prop where
  classes : c.classes ⊆ d.classes
  attributes : ∀ name value, c.attributes.lookup name = some value → d.attributes.lookup name = some value

namespace Signature

/-- A candidate that has all that a signature tells of its element. The text may be left open. -/
structure MetBy (s : Signature) (c : Candidate) : Prop where
  tag : Text.lower c.tag = Text.lower s.tag
  text : ∀ t, s.text = some t → c.text = t
  classes : s.classes ⊆ c.classes
  attributes : ∀ u ∈ s.attributes, c.attributes.lookup u.1 = some u.2

section

variable (s : Signature)

/-- What a candidate scores for its text, its classes and its attributes other than the id. -/
def evidence (c : Candidate) : Nat := textScore (s.text.getD "") c.text + s.classScore c + s.attributeScore c

/-! ### What counts most -/

/-- The most that a text can score: nothing where a blank one is looked for. -/
def textWeight (expected : String) : Nat :=
  if (Text.lower (Text.strip expected)).toList.isEmpty then 0 else weights.sameText

def idWeight : Nat :=
  match s.attributes.lookup "id" with
  | some id => if id.isEmpty then 0 else weights.id
  | none => 0

/-- The attributes that are scored one by one. -/
def scoredAttributes : List (String × String) := s.attributes.filter fun u => !isScoredApart u.1

/-- The most that can be scored without the tag and the id. -/
def noise : Nat :=
  textWeight (s.text.getD "") + weights.perClass * s.classes.length + weights.perAttribute * s.scoredAttributes.length

end

variable {s : Signature} {c d : Candidate}

theorem score_of_tag (same : Text.lower c.tag = Text.lower s.tag) : s.score c = weights.tag + s.idScore c + s.evidence c := by
  rw [score, if_pos (by simp [same]), evidence]
  omega

theorem score_of_other (other : Text.lower c.tag ≠ Text.lower s.tag) : s.score c = 0 := by
  rw [score, if_neg (by simpa using Ne.symm other)]

theorem textScore_le (expected found : String) : textScore expected found ≤ textWeight expected := by
  rw [textScore, textWeight]
  cases Text.lower (Text.strip expected) |>.toList.isEmpty with
  | true => simp
  | false =>
    simp only [Bool.false_or, Bool.false_eq_true, if_false]
    split
    · exact Nat.zero_le _
    · split
      · exact le_rfl
      · split <;> decide

theorem textScore_self (text : String) : textScore text text = textWeight text := by
  rw [textScore, textWeight, Bool.or_self]
  simp only [beq_self_eq_true, if_true]

/-- Where one of the two texts is empty, nothing is scored. -/
theorem textScore_empty (text : String) : textScore "" text = 0 ∧ textScore text "" = 0 := by
  have blank : (Text.lower (Text.strip "")).toList.isEmpty = true := by decide +kernel
  constructor
  · rw [textScore, blank, Bool.true_or, if_pos rfl]
  · rw [textScore, blank, Bool.or_true, if_pos rfl]

theorem idScore_le (s : Signature) (c : Candidate) : s.idScore c ≤ s.idWeight := by
  rw [idScore, idWeight]
  cases s.attributes.lookup "id" with
  | none => exact le_rfl
  | some id =>
    simp only
    cases id.isEmpty with
    | true => exact le_rfl
    | false =>
      split
      · exact le_rfl
      · exact Nat.zero_le _

theorem classScore_le (s : Signature) (c : Candidate) : s.classScore c ≤ weights.perClass * s.classes.length :=
  Nat.mul_le_mul_left _ (List.length_filter_le _ _)

theorem attributeScore_le (s : Signature) (c : Candidate) :
    s.attributeScore c ≤ weights.perAttribute * s.scoredAttributes.length := by
  apply Nat.mul_le_mul_left
  rw [scoredAttributes, ← List.countP_eq_length_filter, ← List.countP_eq_length_filter]
  exact List.countP_mono_left fun u _ both => (Bool.and_eq_true_iff.mp both).1

theorem evidence_le_noise (s : Signature) (c : Candidate) : s.evidence c ≤ s.noise :=
  Nat.add_le_add (Nat.add_le_add (textScore_le _ _) (classScore_le s c)) (attributeScore_le s c)

theorem score_le (s : Signature) (c : Candidate) : s.score c ≤ weights.tag + s.idWeight + s.noise := by
  by_cases same : Text.lower c.tag = Text.lower s.tag
  · rw [score_of_tag same]
    exact Nat.add_le_add (Nat.add_le_add_left (idScore_le s c) _) (evidence_le_noise s c)
  · rw [score_of_other same]
    exact Nat.zero_le _

/-! ### More evidence -/

theorem idScore_mono (covers : d.Covers c) : s.idScore c ≤ s.idScore d := by
  rw [idScore, idScore]
  cases s.attributes.lookup "id" with
  | none => exact le_rfl
  | some id =>
    simp only
    split
    next fits =>
      obtain ⟨given, carried⟩ := Bool.and_eq_true_iff.mp fits
      have carried' := covers.attributes "id" id (beq_iff_eq.mp carried)
      rw [if_pos (by simp [given, carried'])]
    · exact Nat.zero_le _

theorem classScore_mono (covers : d.Covers c) : s.classScore c ≤ s.classScore d := by
  apply Nat.mul_le_mul_left
  rw [← List.countP_eq_length_filter, ← List.countP_eq_length_filter]
  apply List.countP_mono_left
  intro name _ shared
  exact List.contains_iff_mem.mpr (covers.classes (List.contains_iff_mem.mp shared))

theorem attributeScore_mono (covers : d.Covers c) : s.attributeScore c ≤ s.attributeScore d := by
  apply Nat.mul_le_mul_left
  rw [← List.countP_eq_length_filter, ← List.countP_eq_length_filter]
  apply List.countP_mono_left
  rintro ⟨name, value⟩ _ shared
  simp only [Bool.and_eq_true, beq_iff_eq] at shared ⊢
  exact ⟨shared.1, covers.attributes name value shared.2⟩

theorem evidence_mono (text : c.text = d.text) (covers : d.Covers c) : s.evidence c ≤ s.evidence d := by
  rw [evidence, evidence, text]
  exact Nat.add_le_add (Nat.add_le_add_left (classScore_mono covers) _) (attributeScore_mono covers)

/-! ### All the evidence -/

theorem textScore_told {found : String} (told : ∀ t, s.text = some t → found = t) :
    textScore (s.text.getD "") found = textWeight (s.text.getD "") := by
  cases text : s.text with
  | none =>
    rw [Option.getD_none, (textScore_empty found).1]
    decide +kernel
  | some t => rw [Option.getD_some, told t text, textScore_self]

theorem classScore_all (classes : s.classes ⊆ c.classes) : s.classScore c = weights.perClass * s.classes.length := by
  rw [classScore, List.filter_eq_self.mpr fun name told => List.contains_iff_mem.mpr (classes told)]

theorem attributeScore_all (attributes : ∀ u ∈ s.scoredAttributes, c.attributes.lookup u.1 = some u.2) :
    s.attributeScore c = weights.perAttribute * s.scoredAttributes.length := by
  have same : (s.attributes.filter fun u => !isScoredApart u.1 && c.attributes.lookup u.1 == some u.2) = s.scoredAttributes := by
    apply List.filter_congr
    intro u told
    cases scored : isScoredApart u.1 with
    | true => rfl
    | false => simp [attributes u (List.mem_filter.mpr ⟨told, by simp [scored]⟩)]
  exact congrArg (fun us => weights.perAttribute * us.length) same

/-- The id aside, nothing is missing from a candidate with the text, all classes and all other attributes. -/
theorem evidence_eq_noise (text : ∀ t, s.text = some t → c.text = t) (classes : s.classes ⊆ c.classes)
    (attributes : ∀ u ∈ s.scoredAttributes, c.attributes.lookup u.1 = some u.2) : s.evidence c = s.noise := by
  rw [evidence, textScore_told text, classScore_all classes, attributeScore_all attributes, noise]

theorem idScore_of_metBy (met : s.MetBy c) : s.idScore c = s.idWeight := by
  rw [idScore, idWeight]
  cases told : s.attributes.lookup "id" with
  | none => rfl
  | some id =>
    obtain ⟨front, rest, split, _⟩ := List.lookup_eq_some_iff.mp told
    have carried := met.attributes ("id", id) (by simp [split])
    simp only at carried ⊢
    rw [carried]
    cases id.isEmpty <;> simp

theorem score_of_metBy (met : s.MetBy c) : s.score c = weights.tag + s.idWeight + s.noise := by
  have attributes (u : String × String) (scored : u ∈ s.scoredAttributes) : c.attributes.lookup u.1 = some u.2 :=
    met.attributes u (List.mem_filter.mp scored).1
  rw [score_of_tag met.tag, idScore_of_metBy met, evidence_eq_noise met.text met.classes attributes]

/-- **Evidence never hurts, and all of it is best.** Of two candidates with the same tag and text, the one that has whatever the
other has scores at least as much. One that has all that the signature tells scores all that there is to score, for the tag, the
id and the rest, and no other candidate scores more. -/
theorem evidence_never_hurts (s : Signature) :
    (∀ c d : Candidate, Text.lower c.tag = Text.lower d.tag → c.text = d.text → d.Covers c → s.score c ≤ s.score d) ∧
      ∀ d, s.MetBy d → s.score d = weights.tag + s.idWeight + s.noise ∧ ∀ c, s.score c ≤ s.score d := by
  constructor
  · intro c d tag text covers
    -- Another tag than that of the signature leaves both with nothing.
    by_cases same : Text.lower c.tag = Text.lower s.tag
    · rw [score_of_tag same, score_of_tag (tag ▸ same)]
      exact Nat.add_le_add (Nat.add_le_add_left (idScore_mono covers) _) (evidence_mono text covers)
    · rw [score_of_other same]
      exact Nat.zero_le _
  · intro d met
    refine ⟨score_of_metBy met, fun c => ?_⟩
    rw [score_of_metBy met]
    exact score_le s c

/-! ### A button to save with -/

namespace SaveButton

def signature (classes : List String) : Signature := ⟨"button", some "Save", classes, [("id", "save"), ("type", "submit")], [], none⟩

def candidate (text : String) (classes : List String) (attributes : List (String × String)) : Candidate :=
  ⟨"button", text, classes, attributes, ⟨1, 0⟩, none, "a.html"⟩

end SaveButton

open SaveButton in
/-- A class and the id more, then all that is told, with another class beside it. -/
theorem save_button_evidence :
    (signature ["btn", "wide"]).score (candidate "save" ["btn"] [("type", "submit")]) ≤
        (signature ["btn", "wide"]).score (candidate "save" ["wide", "btn"] [("id", "save"), ("type", "submit")]) ∧
      (signature ["btn", "wide"]).score (candidate "save" ["wide", "btn"] [("id", "save"), ("type", "submit")]) ≤
        (signature ["btn", "wide"]).score (candidate "Save" ["lg", "wide", "btn"] [("type", "submit"), ("id", "save")]) := by
  obtain ⟨more, all⟩ := evidence_never_hurts (signature ["btn", "wide"])
  refine ⟨more _ _ rfl rfl ⟨by decide, fun name value told => ?_⟩, (all _ ⟨rfl, ?_, by decide, by decide⟩).2 _⟩
  · by_cases same : name = "type"
    · rwa [same] at told ⊢
    · simp [candidate, List.lookup_cons, beq_false_of_ne same] at told
  · rintro t told
    exact Option.some.inj told

end Signature

end Remedy
