import Remedy.Fix.Wire
import Remedy.Proofs.Schema.Reading

/-!
What fixes, and the records in them, are read from: an object in which each field stands under one of its names, or is left out
where there is something to put in its place.
-/

namespace Remedy

open Schema Schema.Checked

theorem Position.read_eq_ok_iff {v : Json} {p : Position} :
    Position.read v = .ok p ↔ ∃ fields, v = .obj fields ∧ required fields ["line"] asInteger = .ok p.line ∧
      defaulted fields ["column"] 0 asInteger = .ok p.column := by
  cases p
  simp [Position.read]

theorem Location.read_eq_ok_iff {v : Json} {l : Location} :
    Location.read v = .ok l ↔ ∃ fields, v = .obj fields ∧ required fields ["source"] asText = .ok l.source ∧
      required fields ["line"] asInteger = .ok l.start.line ∧ defaulted fields ["column"] 0 asInteger = .ok l.start.column ∧
      defaulted fields ["closingLocation", "closing_location"] none (nullable Position.read) = .ok l.closing := by
  obtain ⟨source, ⟨line, column⟩, closing⟩ := l
  simp [Location.read, and_assoc]

theorem Payload.read_eq_ok_iff {v : Json} {p : Payload} :
    Payload.read v = .ok p ↔ ∃ fields, v = .obj fields ∧ defaulted fields ["attribute"] none (nullable asText) = .ok p.name ∧
      defaulted fields ["value"] none (nullable asText) = .ok p.value ∧
      defaulted fields ["html"] none (nullable asText) = .ok p.html ∧
      defaulted fields ["tagName", "tag_name"] none (nullable asText) = .ok p.tagName ∧
      defaulted fields ["attributes"] [] asTexts = .ok p.attributes := by
  cases p
  simp [Payload.read, and_assoc]

theorem Metadata.read_eq_ok_iff {v : Json} {m : Metadata} :
    Metadata.read v = .ok m ↔ ∃ fields, v = .obj fields ∧ defaulted fields ["context"] .null .ok = .ok m.context ∧
      defaulted fields ["signature"] none (nullable Signature.read) = .ok m.signature ∧
      defaulted fields ["reasoning"] none (nullable asText) = .ok m.reasoning ∧
      defaulted fields locationNames none (nullable Location.read) = .ok m.location ∧ extraFields fields = m.extras := by
  cases m
  simp [Metadata.read, and_assoc]

theorem Fix.read_eq_ok_iff {v : Json} {f : Fix} :
    Fix.read v = .ok f ↔ ∃ fields, v = .obj fields ∧ required fields ["fixType", "fix_type"] FixKind.read = .ok f.kind ∧
      defaulted fields ["selector"] "" asText = .ok f.selector ∧
      defaulted fields ["payload"] .empty Payload.read = .ok f.payload ∧
      defaulted fields ["metadata"] .empty Metadata.read = .ok f.metadata ∧ f.change?.isSome = true := by
  cases f
  simp [Fix.read, and_assoc]

end Remedy
