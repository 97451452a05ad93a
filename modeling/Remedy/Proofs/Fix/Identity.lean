import Mathlib.Data.List.Basic
import Remedy.Fix.Wire

/-!
Fixes of one identity: they are of one kind, with one selector, payload and location, so whatever is planned for the one
is planned for the other.
-/

namespace Remedy

theorem FixKind.name_injective : Function.Injective FixKind.name := by
  intro a b
  cases a <;> cases b <;> decide

namespace Signature

theorem ofText?_injective : Function.Injective ofText? := by
  intro a b h
  cases a <;> cases b <;> simp_all [ofText?]

theorem ofTexts_injective : Function.Injective ofTexts := by
  intro as bs h
  have pairs : Function.Injective fun kv : String × String => (kv.1, Json.str kv.2) := by
    rintro ⟨k, v⟩ ⟨l, w⟩ same
    simpa using same
  exact List.map_injective_iff.mpr pairs (Json.obj.inj h)

end Signature

theorem Payload.toJson_injective : Function.Injective Payload.toJson := by
  rintro ⟨name, value, html, tagName, attributes⟩ ⟨name', value', html', tagName', attributes'⟩ h
  simp only [toJson, Json.obj.injEq, List.cons.injEq, Prod.mk.injEq, true_and, and_true] at h
  obtain ⟨names, values, htmls, tags, sets⟩ := h
  rw [Signature.ofText?_injective names, Signature.ofText?_injective values, Signature.ofText?_injective htmls,
    Signature.ofText?_injective tags, Signature.ofTexts_injective sets]

theorem Position.toJson_injective : Function.Injective Position.toJson := by
  rintro ⟨line, column⟩ ⟨line', column'⟩ h
  simpa [toJson] using h

theorem Location.toJson_injective : Function.Injective Location.toJson := by
  rintro ⟨source, ⟨line, column⟩, closing⟩ ⟨source', ⟨line', column'⟩, closing'⟩ h
  simp only [toJson, Json.obj.injEq, List.cons.injEq, Prod.mk.injEq, true_and, and_true, Json.str.injEq,
    Json.int.injEq] at h
  obtain ⟨rfl, rfl, rfl, ends⟩ := h
  cases closing with
  | none =>
    cases closing' with
    | none => rfl
    | some p' => simp [Position.toJson] at ends
  | some p =>
    cases closing' with
    | none => simp [Position.toJson] at ends
    | some p' => rw [Position.toJson_injective ends]

theorem Metadata.location_eq {m m' : Metadata} (h : m.locationJson = m'.locationJson) : m.location = m'.location := by
  rw [locationJson, locationJson] at h
  cases place : m.location with
  | none =>
    cases place' : m'.location with
    | none => rfl
    | some l' => simp [place, place', Location.toJson] at h
  | some l =>
    cases place' : m'.location with
    | none => simp [place, place', Location.toJson] at h
    | some l' =>
      simp only [place, place'] at h
      rw [Location.toJson_injective h]

namespace Fix

/-- Two fixes that make the same change at the same place. -/
structure Agrees (f g : Fix) : Prop where
  change : f.change? = g.change?
  selector : f.selector = g.selector
  location : f.location = g.location

theorem agrees_of_identity {f g : Fix} (h : f.identity = g.identity) : f.Agrees g := by
  simp only [identity, Json.obj.injEq, List.cons.injEq, Prod.mk.injEq, true_and, and_true, Json.str.injEq,
    List.cons_append, List.nil_append] at h
  obtain ⟨kinds, selectors, payloads, _, places, _⟩ := h
  exact
    { change := by rw [change?, change?, FixKind.name_injective kinds, Payload.toJson_injective payloads]
      selector := selectors
      location := Metadata.location_eq places }

end Fix

end Remedy
