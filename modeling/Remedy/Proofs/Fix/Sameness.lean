import Remedy.Proofs.Fix.Identity
import Remedy.Proofs.Fix.RoundTrip
import Remedy.Proofs.Json.Parsed

/-!
Fixes that say the same. The text by which fixes are told apart is the same for two of them exactly if they agree in all but their
reasoning and what was around them, for the text can be read back.
-/

namespace Remedy

open Schema Schema.Checked

namespace Signature

theorem surroundingsJson_injective : Function.Injective surroundingsJson := by
  rintro ⟨landmark, parent, text⟩ ⟨landmark', parent', text'⟩ h
  simp only [surroundingsJson, Json.obj.injEq, List.cons.injEq, Prod.mk.injEq, true_and, and_true] at h
  obtain ⟨landmarks, parents, texts⟩ := h
  rw [ofText?_injective landmarks, ofText?_injective parents, ofText?_injective texts]

theorem toJson_injective : Function.Injective toJson := by
  rintro ⟨tag, text, classes, attributes, ancestry, context⟩ ⟨tag', text', classes', attributes', ancestry', context'⟩ h
  simp only [toJson, Json.obj.injEq, List.cons.injEq, Prod.mk.injEq, true_and, and_true, Json.str.injEq, Json.arr.injEq] at h
  obtain ⟨rfl, texts, sets, named, tags, contexts⟩ := h
  have strings : Function.Injective (List.map Json.str) := List.map_injective_iff.mpr fun _ _ => Json.str.inj
  rw [ofText?_injective texts, strings sets, ofTexts_injective named, strings tags]
  cases context with
  | none =>
    cases context' with
    | none => rfl
    | some c' => simp [surroundingsJson] at contexts
  | some c =>
    cases context' with
    | none => simp [surroundingsJson] at contexts
    | some c' => rw [surroundingsJson_injective contexts]

end Signature

theorem Metadata.signature_eq {m m' : Metadata} (h : m.signatureJson = m'.signatureJson) : m.signature = m'.signature := by
  rw [signatureJson, signatureJson] at h
  cases signed : m.signature with
  | none =>
    cases signed' : m'.signature with
    | none => rfl
    | some s' => simp [signed, signed', Signature.toJson] at h
  | some s =>
    cases signed' : m'.signature with
    | none => simp [signed, signed', Signature.toJson] at h
    | some s' =>
      simp only [signed, signed'] at h
      rw [Signature.toJson_injective h]

/-! ### Keys -/

namespace Schema

/-- What is read of a field comes from a value that is proper if the object is. -/
theorem proper_of_present {fields : List (String × Json)} {names : List String} {n : String} {v : Json}
    (proper : (Json.obj fields).Proper) (there : present? fields names = some (n, v)) : v.Proper := by
  obtain ⟨name, _, found⟩ := List.exists_of_findSome?_eq_some there
  obtain ⟨w, kept, same⟩ := Option.map_eq_some_iff.mp found
  obtain ⟨before, after, split, _⟩ := List.lookup_eq_some_iff.mp kept
  cases same
  exact Json.properFields_iff.mp proper.2 (n, v) (split ▸ List.mem_append_right before List.mem_cons_self)

end Schema

namespace Signature

theorem proper_ofText? (o : Option String) : (ofText? o).Proper := by
  cases o <;> trivial

theorem keys_ofTexts (kvs : List (String × String)) :
    (kvs.map fun kv => (kv.1, Json.str kv.2)).map (·.1) = kvs.map (·.1) := by
  rw [List.map_map]
  rfl

theorem proper_ofTexts {kvs : List (String × String)} : (ofTexts kvs).Proper ↔ (kvs.map (·.1)).Nodup := by
  have texts : Json.ProperFields (kvs.map fun kv => (kv.1, Json.str kv.2)) := by
    rw [Json.properFields_iff, List.forall_mem_map]
    exact fun _ _ => trivial
  exact ⟨fun proper => keys_ofTexts kvs ▸ proper.1, fun differ => ⟨(keys_ofTexts kvs).symm ▸ differ, texts⟩⟩

/-- No attribute of what was read has its name twice. -/
theorem keys_of_read {v : Json} {s : Signature} (proper : v.Proper) (h : read v = .ok s) : (s.attributes.map (·.1)).Nodup := by
  obtain ⟨fields, rfl, _, _, _, attributes, _⟩ := read_eq_ok_iff.mp h
  rcases defaulted_eq_ok_iff.mp attributes with ⟨_, standard⟩ | ⟨_, w, there, readable⟩
  · rw [standard]
    exact .nil
  · have inner := proper_of_present proper there
    cases w with
    | obj given =>
      rw [← Except.ok.inj readable, List.map_map]
      exact inner.1
    | _ => cases readable

theorem proper_toJson {s : Signature} (keys : (s.attributes.map (·.1)).Nodup) : s.toJson.Proper := by
  refine ⟨by simp, trivial, proper_ofText? s.text, Json.properAll_texts s.classes, proper_ofTexts.mpr keys,
    Json.properAll_texts s.ancestry, ?_, trivial⟩
  cases s.context with
  | none => trivial
  | some c => exact ⟨by simp, proper_ofText? c.landmark, proper_ofText? c.parentComponent, proper_ofText? c.text, trivial⟩

end Signature

theorem Metadata.proper_locationJson (m : Metadata) : m.locationJson.Proper := by
  rw [locationJson]
  cases m.location with
  | none => trivial
  | some l =>
    have ends : ∀ p : Position, p.toJson.Proper := fun p => ⟨by simp, trivial, trivial, trivial⟩
    refine ⟨by simp, trivial, trivial, trivial, ?_, trivial⟩
    cases l.closing with
    | none => trivial
    | some p => exact ends p

namespace Json

theorem keys_finiteFields (fields : List (String × Json)) : (finiteFields fields).map (·.1) = fields.map (·.1) := by
  induction fields with
  | nil => rfl
  | cons kv fields told => rw [finiteFields, List.map_cons, List.map_cons, told]

mutual

theorem proper_finite : (v : Json) → v.Proper → v.finite.Proper
  | .real (.finite _ _ _), proper => proper
  | .real (.infinite _), _ => trivial
  | .real .nan, _ => trivial
  | .null, _ => trivial
  | .bool _, _ => trivial
  | .int _, _ => trivial
  | .str _, _ => trivial
  | .arr items, proper => properAll_finiteAll items proper
  | .obj fields, proper => ⟨keys_finiteFields fields ▸ proper.1, properFields_finiteFields fields proper.2⟩

theorem properAll_finiteAll : (items : List Json) → ProperAll items → ProperAll (finiteAll items)
  | [], _ => trivial
  | v :: rest, proper => ⟨proper_finite v proper.1, properAll_finiteAll rest proper.2⟩

theorem properFields_finiteFields : (fields : List (String × Json)) → ProperFields fields → ProperFields (finiteFields fields)
  | [], _ => trivial
  | (_, v) :: rest, proper => ⟨proper_finite v proper.1, properFields_finiteFields rest proper.2⟩

end

end Json

namespace Fix

/-- Two fixes that differ at most in why they were made and in what was around them. Attributes and extra fields agree in their order,
too. -/
structure Same (f g : Fix) : Prop where
  kind : f.kind = g.kind
  selector : f.selector = g.selector
  payload : f.payload = g.payload
  signature : f.metadata.signature = g.metadata.signature
  location : f.metadata.location = g.metadata.location
  extras : f.metadata.extras = g.metadata.extras

/-- A fix that was read from a text, with nothing beyond all numbers in its extra fields, wherever its element was found to stand
since. -/
inductive Accepted : Fix → Prop
  | read {text : String} {v : Json} {f : Fix} (parsed : Json.parse? text = some v) (readable : Fix.read v = .ok f)
    (finite : Json.finiteFields f.metadata.extras = f.metadata.extras) : Accepted f
  | locate {f : Fix} (accepted : Accepted f) (l : Location) : Accepted (f.locate l)

section

variable {f g : Fix}

theorem Accepted.finite (accepted : f.Accepted) : Json.finiteFields f.metadata.extras = f.metadata.extras := by
  induction accepted with
  | read _ _ finite => exact finite
  | locate _ _ told => exact told

/-! ### Texts -/

/-- No key stands twice in what a fix has by name, and no extra field has the name of another one. -/
structure Keyed (f : Fix) : Prop where
  payload : (f.payload.attributes.map (·.1)).Nodup
  signature : ∀ s, f.metadata.signature = some s → (s.attributes.map (·.1)).Nodup
  extras : (Json.obj f.metadata.extras).Proper
  others : ∀ e ∈ f.metadata.extras, e.1 ∉ Metadata.writtenNames

theorem keyed_of_read {v : Json} (proper : v.Proper) (readable : Fix.read v = .ok f) : f.Keyed := by
  obtain ⟨fields, rfl, _, _, payload, metadata, _⟩ := read_eq_ok_iff.mp readable
  -- What was left out has no keys, and what was given has those of a part of the value.
  have attributes : (f.payload.attributes.map (·.1)).Nodup := by
    rcases defaulted_eq_ok_iff.mp payload with ⟨_, standard⟩ | ⟨_, w, there, inner⟩
    · rw [standard]
      exact .nil
    · obtain ⟨given, rfl, _, _, _, _, named⟩ := Payload.read_eq_ok_iff.mp inner
      rcases defaulted_eq_ok_iff.mp named with ⟨_, standard⟩ | ⟨_, u, there', texts⟩
      · rw [standard]
        exact .nil
      · obtain rfl := asTexts_eq_ok_iff.mp texts
        exact Signature.proper_ofTexts.mp (proper_of_present (proper_of_present proper there) there')
  rcases defaulted_eq_ok_iff.mp metadata with ⟨_, standard⟩ | ⟨_, w, there, inner⟩
  · exact ⟨attributes, by simp [standard, Metadata.empty], by rw [standard]; exact ⟨.nil, trivial⟩, by simp [standard, Metadata.empty]⟩
  · have all := proper_of_present proper there
    refine ⟨attributes, fun s signed => ?_, ?_, (Metadata.normal_of_read inner).extras⟩
    · obtain ⟨given, rfl, _, signature, _⟩ := Metadata.read_eq_ok_iff.mp inner
      rw [signed] at signature
      rcases defaulted_eq_ok_iff.mp signature with ⟨_, standard⟩ | ⟨_, u, there', known⟩
      · cases standard
      · exact Signature.keys_of_read (proper_of_present all there') (nullable_eq_some_iff.mp known).2
    · obtain ⟨given, rfl, _, _, _, _, extras⟩ := Metadata.read_eq_ok_iff.mp inner
      rw [← extras]
      refine ⟨all.1.sublist (List.filter_sublist.map _), Json.properFields_iff.mpr fun kv member => ?_⟩
      exact Json.properFields_iff.mp all.2 kv (List.mem_filter.mp member).1

theorem Accepted.keyed (accepted : f.Accepted) : f.Keyed := by
  induction accepted with
  | read parsed readable => exact keyed_of_read (Json.proper_of_parse? parsed) readable
  | locate _ _ told => exact ⟨told.payload, told.signature, told.extras, told.others⟩

theorem Keyed.proper_identity (keyed : f.Keyed) : f.identity.Proper := by
  have text := Signature.proper_ofText?
  have payload : f.payload.toJson.Proper :=
    ⟨by simp, text _, text _, text _, text _, Signature.proper_ofTexts.mpr keyed.payload, trivial⟩
  have signature : f.metadata.signatureJson.Proper := by
    rw [Metadata.signatureJson]
    cases signed : f.metadata.signature with
    | none => trivial
    | some s => exact Signature.proper_toJson (keyed.signature s signed)
  have extras : (Json.obj (Json.finiteFields f.metadata.extras)).Proper := Json.proper_finite (.obj f.metadata.extras) keyed.extras
  -- Among the fields that are always written, none has the name of an extra one.
  have differ : (["signature", "sourceLocation"] ++ (Json.finiteFields f.metadata.extras).map (·.1)).Nodup := by
    refine List.nodup_append'.mpr ⟨by simp, extras.1, fun k fixed extra => ?_⟩
    rw [Json.keys_finiteFields] at extra
    obtain ⟨e, member, rfl⟩ := List.mem_map.mp extra
    have written : ["signature", "sourceLocation"] ⊆ Metadata.writtenNames := by decide
    exact keyed.others e member (written fixed)
  exact ⟨by simp, trivial, trivial, payload, ⟨differ, signature, f.metadata.proper_locationJson, extras.2⟩, trivial⟩

/-! ### Identities -/

theorem Same.identity_eq (same : f.Same g) : f.identity = g.identity := by
  obtain ⟨kind, selector, payload, signature, location, extras⟩ := same
  rw [identity, identity, kind, selector, payload, Metadata.signatureJson, signature, Metadata.locationJson, location, extras]
  rfl

/-- Fixes of one identity say the same. Only among what is beyond all numbers it makes no difference. -/
theorem Accepted.identity_eq_iff (accepted : f.Accepted) (accepted' : g.Accepted) : f.identity = g.identity ↔ f.Same g := by
  refine ⟨fun h => ?_, Same.identity_eq⟩
  simp only [identity, accepted.finite, accepted'.finite, Json.obj.injEq, List.cons.injEq, Prod.mk.injEq, true_and, and_true,
    Json.str.injEq, List.cons_append, List.nil_append] at h
  obtain ⟨kinds, selectors, payloads, signed, places, extras⟩ := h
  exact
    { kind := FixKind.name_injective kinds
      selector := selectors
      payload := Payload.toJson_injective payloads
      signature := Metadata.signature_eq signed
      location := Metadata.location_eq places
      extras := extras }

/-- Fixes that were accepted have one text exactly if they have one identity: their texts can be read back. -/
theorem Accepted.identityText_eq_iff (accepted : f.Accepted) (accepted' : g.Accepted) :
    f.identityText = g.identityText ↔ f.identity = g.identity :=
  Json.compact_inj accepted.keyed.proper_identity accepted'.keyed.proper_identity

end

end Fix

end Remedy
