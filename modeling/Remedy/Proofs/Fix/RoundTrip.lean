import Mathlib
import Remedy.Proofs.Fix.Reading
import Remedy.Proofs.Signature.Normal

/-!
Fixes that are read, written and read again. Whatever a fix is read from, by which names its fields go there and how its numbers
and texts are spelled, what it is written as is read as the very same fix.

Reading takes things away (the blanks around a tag, classes that are repeated, how an attribute's value was spelled) and writing
adds the fields that were left out. Both agree because a fix that was read is in normal form: there is nothing left to take away.
-/

namespace Remedy

open Schema Schema.Checked

/-! ### Places and payloads -/

theorem Position.read_toJson (p : Position) : Position.read p.toJson = .ok p :=
  Position.read_eq_ok_iff.mpr ⟨_, rfl, required_of_present rfl rfl, defaulted_of_present rfl rfl⟩

theorem Location.read_toJson (l : Location) : Location.read l.toJson = .ok l := by
  refine Location.read_eq_ok_iff.mpr ⟨_, rfl, required_of_present rfl rfl, required_of_present rfl rfl,
    defaulted_of_present rfl rfl, defaulted_of_present rfl ?_⟩
  cases l.closing with
  | none => rfl
  | some p => exact nullable_obj p.read_toJson

theorem Payload.read_toJson (p : Payload) : Payload.read p.toJson = .ok p :=
  Payload.read_eq_ok_iff.mpr ⟨_, rfl, defaulted_of_present rfl (Signature.nullable_ofText? _),
    defaulted_of_present rfl (Signature.nullable_ofText? _), defaulted_of_present rfl (Signature.nullable_ofText? _),
    defaulted_of_present rfl (Signature.nullable_ofText? _), defaulted_of_present rfl (asTexts_eq_ok_iff.mpr rfl)⟩

/-! ### Metadata -/

namespace Metadata

/-- The names under which metadata are written. -/
def writtenNames : List String := ["context", "signature", "reasoning", "sourceLocation"]

/-- Metadata that would be read as they are: none of the extra fields would be read as anything else. -/
structure Normal (m : Metadata) : Prop where
  signature : ∀ s, m.signature = some s → s.Normal
  extras : ∀ e ∈ m.extras, e.1 ∉ writtenNames

/-- A location under its first name is never an extra field; one under its other name may be. -/
theorem not_mem_writtenNames {fields : List (String × Json)} {e : String × Json} (h : e ∈ extraFields fields) :
    e.1 ∉ writtenNames := by
  obtain ⟨member, unused⟩ := List.mem_filter.mp h
  obtain ⟨context, signature, reasoning, location⟩ :
      e.1 ≠ "context" ∧ e.1 ≠ "signature" ∧ e.1 ≠ "reasoning" ∧ ∀ v, present? fields locationNames ≠ some (e.1, v) := by
    simpa using unused
  have place : e.1 ≠ "sourceLocation" := by
    intro named
    cases found : fields.lookup "sourceLocation" with
    | some v => exact location v (by simp [present?, locationNames, found, named])
    | none => simpa [named] using List.lookup_eq_none_iff.mp found e member
  simp [writtenNames, context, signature, reasoning, place]

theorem normal_of_read {v : Json} {m : Metadata} (h : Metadata.read v = .ok m) : m.Normal := by
  obtain ⟨fields, _, _, signature, _, _, extras⟩ := read_eq_ok_iff.mp h
  refine ⟨fun s same => ?_, fun e member => not_mem_writtenNames (extras ▸ member)⟩
  rw [same] at signature
  rcases defaulted_eq_ok_iff.mp signature with ⟨_, standard⟩ | ⟨_, _, _, readable⟩
  · cases standard
  · exact Signature.normal_of_read (nullable_eq_some_iff.mp readable).2

/-- The same, with the classes of the signature in another order. -/
def reorder (order : List String → List String) (m : Metadata) : Metadata :=
  { m with signature := m.signature.map fun s => { s with classes := order s.classes } }

theorem extraFields_written (context signature reasoning location : Json) {extras : List (String × Json)}
    (h : ∀ e ∈ extras, e.1 ∉ writtenNames) :
    extraFields ([("context", context), ("signature", signature), ("reasoning", reasoning), ("sourceLocation", location)] ++
      extras) = extras := by
  have used : extraFields ([("context", context), ("signature", signature), ("reasoning", reasoning),
      ("sourceLocation", location)] ++ extras) = extras.filter fun e => !writtenNames.contains e.1 := rfl
  rw [used, List.filter_eq_self]
  intro e member
  simpa using h e member

theorem read_toJson {m : Metadata} (h : m.Normal) {order : List String → List String} (perm : ∀ cs, (order cs).Perm cs) :
    Metadata.read (m.reorder order).toJson = .ok m := by
  refine read_eq_ok_iff.mpr ⟨_, rfl, ?_, ?_, ?_, ?_, ?_⟩
  · exact defaulted_of_present rfl rfl
  · refine defaulted_of_present rfl ?_
    cases signed : m.signature with
    | none => simp [signatureJson, reorder, signed, nullable]
    | some s =>
      simp only [signatureJson, reorder, signed, Option.map_some]
      exact nullable_obj (Signature.read_toJson (h.signature s signed) (perm s.classes))
  · exact defaulted_of_present rfl (Signature.nullable_ofText? _)
  · refine defaulted_of_present rfl ?_
    cases place : m.location with
    | none => simp [locationJson, reorder, place, nullable]
    | some l =>
      simp only [locationJson, reorder, place]
      exact nullable_obj l.read_toJson
  · exact extraFields_written _ _ _ _ h.extras

end Metadata

namespace Fix

/-- The same fix, with the classes of its signature in another order. As a set they have none. -/
def reorder (order : List String → List String) (f : Fix) : Fix := { f with metadata := f.metadata.reorder order }

namespace Button

/-- A fix as another program may write it: with the longer names of fields, with numbers and attributes of other kinds, and with
fields that are not known here. -/
def given : Json :=
  .obj [("fix_type", .str "convert-tag"),
    ("payload", .obj [("tag_name", .str "button"), ("attributes", .obj [("title", .str "T"), ("href", .str "H")]), ("note", .null)]),
    ("metadata", .obj [
      ("rule", .int 7),
      ("signature", .obj [("tag", .str " div "), ("classes", .arr [.str "b", .str "a", .str "b"]),
        ("attributes", .obj [("hidden", .bool true), ("alt", .null)]), ("role", .str "none")]),
      ("source_location", .str "kept"),
      ("sourceLocation", .obj [("source", .str "a.vue"), ("line", .str " 4 "), ("column", .bool true),
        ("closing_location", .obj [("line", .str "6.0")])])])]

def signature : Signature := ⟨"div", none, ["a", "b"], [("hidden", "True"), ("alt", "")], [], none⟩

/-- What is read of it. -/
def read : Fix :=
  ⟨.convertTag, "", ⟨none, none, none, some "button", [("title", "T"), ("href", "H")]⟩,
    ⟨.null, some signature, none, some ⟨"a.vue", ⟨4, 1⟩, some ⟨6, 0⟩⟩, [("rule", .int 7), ("source_location", .str "kept")]⟩⟩

end Button

end Fix

end Remedy
