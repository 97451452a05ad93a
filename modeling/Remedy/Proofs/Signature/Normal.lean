import Mathlib.Data.List.DropRight
import Mathlib.Data.String.Basic
import Remedy.Proofs.Edit.StableOrder
import Remedy.Proofs.Schema.Reading

/-!
Signatures in normal form: the tag has no blanks around it, and the classes stand in order, each of them once. What is read is in
normal form, and a signature in normal form is read back from what it is written as, in whatever order its classes are written.
-/

namespace Remedy

namespace Text

/-- What has no blanks around it is left as it is. -/
theorem trim_trim (cs : List Char) : trim (trim cs) = trim cs := by
  have front : trimStart (trim cs) = trim cs := by
    rw [trim, trimStart, trimStart]
    -- The end is cut off of a text that begins with no blank.
    cases shape : cs.dropWhile isBlank with
    | nil => rfl
    | cons c rest =>
      have first : isBlank c = false := by
        have head := List.head?_dropWhile_not isBlank cs
        rw [shape] at head
        simpa using head
      have kept : trimEnd (c :: rest) <+: c :: rest := List.rdropWhile_prefix isBlank _
      rcases List.prefix_cons_iff.mp kept with nothing | ⟨rest', same, _⟩
      · rw [nothing]
        rfl
      · rw [same, List.dropWhile_cons, first]
        rfl
  rw [trim, front]
  exact List.rdropWhile_idempotent isBlank _

theorem strip_strip (s : String) : strip (strip s) = strip s := by
  rw [strip, strip, String.toList_ofList, trim_trim]

end Text

namespace Signature

open Schema Schema.Checked

theorem mem_asSet {texts : List String} {s : String} : s ∈ asSet texts ↔ s ∈ texts := by
  rw [asSet, List.mem_mergeSort, List.mem_eraseDups]

/-- A set is told by what is in it. -/
theorem asSet_congr {texts others : List String} (same : ∀ s, s ∈ texts ↔ s ∈ others) : asSet texts = asSet others := by
  apply StableOrder.mergeSort_eraseDups_congr
  · intro a b c ab bc
    simp only [decide_eq_true_eq] at *
    exact le_trans ab bc
  · intro a b
    simpa using le_total a b
  · intro a b level
    simp only [StableOrder.tied, Bool.and_eq_true, decide_eq_true_eq] at level
    exact le_antisymm level.1 level.2
  · exact same

theorem asSet_asSet (texts : List String) : asSet (asSet texts) = asSet texts :=
  asSet_congr fun _ => mem_asSet

/-- What may be read as a signature and would not be read as another one. -/
structure Normal (s : Signature) : Prop where
  tag : Text.strip s.tag = s.tag
  nonempty : s.tag ≠ ""
  classes : asSet s.classes = s.classes

/-! ### What signatures are read from -/

theorem readTag_eq_ok_iff {v : Json} {tag : String} :
    readTag v = .ok tag ↔ ∃ s, v = .str s ∧ Text.strip s = tag ∧ tag ≠ "" := by
  simp only [readTag, bind_eq_ok_iff, asText_eq_ok_iff]
  constructor
  · rintro ⟨s, rfl, read⟩
    split at read
    · cases read
    next named =>
      obtain rfl := Except.ok.inj read
      exact ⟨s, rfl, rfl, by simpa using named⟩
  · rintro ⟨s, rfl, rfl, named⟩
    exact ⟨s, rfl, by simp [named]⟩

theorem readSurroundings_eq_ok_iff {v : Json} {s : Surroundings} :
    readSurroundings v = .ok s ↔ ∃ fields, v = .obj fields ∧
      defaulted fields ["landmark"] none (nullable asText) = .ok s.landmark ∧
      defaulted fields ["parentComponent", "parent_component"] none (nullable asText) = .ok s.parentComponent ∧
      defaulted fields ["surroundingText", "surrounding_text"] none (nullable asText) = .ok s.text := by
  cases s
  simp [readSurroundings]

theorem read_eq_ok_iff {v : Json} {s : Signature} :
    read v = .ok s ↔ ∃ fields, v = .obj fields ∧ required fields ["tag"] readTag = .ok s.tag ∧
      defaulted fields ["text"] none (nullable asText) = .ok s.text ∧
      defaulted fields ["classes"] [] (fun v => (asList .notSet asText v).map asSet) = .ok s.classes ∧
      defaulted fields ["attributes"] [] readAttributes = .ok s.attributes ∧
      defaulted fields ["structure"] [] (asList .notTuple asText) = .ok s.ancestry ∧
      defaulted fields ["context"] none (nullable readSurroundings) = .ok s.context := by
  cases s
  simp [read, and_assoc]

theorem map_asSet_eq_ok_iff {v : Json} {classes : List String} :
    (asList .notSet asText v).map asSet = .ok classes ↔ ∃ texts : List String, v = .arr (texts.map .str) ∧ asSet texts = classes := by
  simp only [map_eq_ok_iff, asList_asText_eq_ok_iff]

theorem normal_of_read {v : Json} {s : Signature} (h : read v = .ok s) : s.Normal := by
  obtain ⟨fields, _, tag, _, classes, _⟩ := read_eq_ok_iff.mp h
  obtain ⟨_, _, _, named⟩ := required_eq_ok_iff.mp tag
  obtain ⟨t, _, stripped, nonempty⟩ := readTag_eq_ok_iff.mp named
  refine ⟨by rw [← stripped, Text.strip_strip], nonempty, ?_⟩
  rcases defaulted_eq_ok_iff.mp classes with ⟨_, standard⟩ | ⟨_, _, _, listed⟩
  · rw [standard, asSet, List.eraseDups_nil, List.mergeSort_nil]
  · obtain ⟨texts, _, same⟩ := map_asSet_eq_ok_iff.mp listed
    rw [← same, asSet_asSet]

/-! ### Reading what was written -/

theorem nullable_ofText? (o : Option String) : nullable asText (ofText? o) = .ok o := by
  cases o <;> rfl

theorem readSurroundings_surroundingsJson (s : Surroundings) : readSurroundings (surroundingsJson s) = .ok s := by
  exact readSurroundings_eq_ok_iff.mpr ⟨_, rfl, defaulted_of_present rfl (nullable_ofText? _),
    defaulted_of_present rfl (nullable_ofText? _), defaulted_of_present rfl (nullable_ofText? _)⟩

/-- A signature is read back, whatever the order in which its classes are written. -/
theorem read_toJson {s : Signature} (h : s.Normal) {classes : List String} (perm : classes.Perm s.classes) :
    read { s with classes }.toJson = .ok s := by
  have same : asSet classes = s.classes := by rw [asSet_congr fun _ => perm.mem_iff, h.classes]
  have attributes : readAttributes (ofTexts s.attributes) = .ok s.attributes := by
    simp [ofTexts, readAttributes, Function.comp_def, attributeText, Json.plain]
  refine read_eq_ok_iff.mpr ⟨_, rfl, ?_, ?_, ?_, ?_, ?_, ?_⟩
  · exact required_of_present rfl (readTag_eq_ok_iff.mpr ⟨_, rfl, h.tag, h.nonempty⟩)
  · exact defaulted_of_present rfl (nullable_ofText? _)
  · exact defaulted_of_present rfl (map_asSet_eq_ok_iff.mpr ⟨_, rfl, same⟩)
  · exact defaulted_of_present rfl attributes
  · exact defaulted_of_present rfl (asList_asText_eq_ok_iff.mpr rfl)
  · refine defaulted_of_present rfl ?_
    cases s.context with
    | none => rfl
    | some c => exact nullable_obj (readSurroundings_surroundingsJson c)

end Signature

end Remedy
