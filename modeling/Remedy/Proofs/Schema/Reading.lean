import Mathlib.Data.List.Basic
import Remedy.Signature.Basic

/-!
What can be told of values from which something could be read: one statement for each way in which readings are put together.
Texts, lists of texts and texts by name are read only from what they are written as.
-/

namespace Remedy.Schema

namespace Checked

variable {α β : Type}

@[simp] theorem bind_eq_ok_iff {a : Checked α} {f : α → Checked β} {b : β} : (a >>= f) = .ok b ↔ ∃ x, a = .ok x ∧ f x = .ok b := by
  cases a with
  | error issues => simp [bind, Except.bind]
  | ok x => simp [bind, Except.bind]

@[simp] theorem and_eq_ok_iff {f : Checked (α → β)} {a : Checked α} {b : β} :
    f.and a = .ok b ↔ ∃ g x, f = .ok g ∧ a = .ok x ∧ g x = b := by
  cases f with
  | error issues => cases a <;> simp [Checked.and]
  | ok g => cases a <;> simp [Checked.and]

@[simp] theorem map_eq_ok_iff {a : Checked α} {f : α → β} {b : β} : a.map f = .ok b ↔ ∃ x, a = .ok x ∧ f x = b := by
  cases a <;> simp [Except.map]

@[simp] theorem of_eq_ok_iff {a x : α} : of a = .ok x ↔ a = x := by
  rw [of, Except.ok.injEq]

@[simp] theorem under_eq_ok_iff {step : String} {a : Checked α} {x : α} : a.under step = .ok x ↔ a = .ok x := by
  cases a with
  | error issues => simp [under]
  | ok y => simp [under]

/-- A rule that is checked in the end. -/
@[simp] theorem checked_eq_ok_iff {a b : α} {rule : Bool} {fault : Fault} :
    ((if rule then .ok a else fail fault : Checked α) = .ok b) ↔ rule = true ∧ a = b := by
  cases rule <;> simp [fail]

end Checked

open Checked

section

variable {α : Type} {fields : List (String × Json)} {names : List String} {name : String} {read : Json → Checked α} {v : Json}

@[simp] theorem asText_eq_ok_iff {s : String} : asText v = .ok s ↔ v = .str s := by
  cases v with
  | str t => simp [asText]
  | _ => simp [asText, fail]

@[simp] theorem record_eq_ok_iff : record name v = .ok fields ↔ v = .obj fields := by
  cases v with
  | obj fs => simp [record]
  | _ => simp [record, fail]

theorem nullable_eq_some_iff {a : α} : nullable read v = .ok (some a) ↔ v ≠ .null ∧ read v = .ok a := by
  cases v with
  | null => simp [nullable]
  | _ => cases found : read _ <;> simp [nullable, found, Except.map]

/-- What is read of an object that may be missing. -/
theorem nullable_obj {a : α} (readable : read (.obj fields) = .ok a) : nullable read (.obj fields) = .ok (some a) :=
  Checked.map_eq_ok_iff.mpr ⟨a, readable, rfl⟩

theorem required_eq_ok_iff {a : α} :
    required fields names read = .ok a ↔ ∃ n v, present? fields names = some (n, v) ∧ read v = .ok a := by
  rw [required]
  cases there : present? fields names with
  | none => simp [fail, under]
  | some found =>
    obtain ⟨n, v⟩ := found
    simp [under_eq_ok_iff]

theorem defaulted_eq_ok_iff {a default : α} :
    defaulted fields names default read = .ok a ↔
      present? fields names = none ∧ a = default ∨ ∃ n v, present? fields names = some (n, v) ∧ read v = .ok a := by
  rw [defaulted]
  cases there : present? fields names with
  | none => simp [eq_comm]
  | some found =>
    obtain ⟨n, v⟩ := found
    simp [under_eq_ok_iff]

theorem required_of_present {a : α} (there : present? fields names = some (name, v)) (readable : read v = .ok a) :
    required fields names read = .ok a :=
  required_eq_ok_iff.mpr ⟨name, v, there, readable⟩

theorem defaulted_of_present {a default : α} (there : present? fields names = some (name, v)) (readable : read v = .ok a) :
    defaulted fields names default read = .ok a :=
  defaulted_eq_ok_iff.mpr (Or.inr ⟨name, v, there, readable⟩)

/-- Items of which each is a text are read as these texts, and no others. -/
theorem items_asText_eq_ok_iff {n : Nat} {vs : List Json} {texts : List String} :
    Checked.items asText n vs = .ok texts ↔ vs = texts.map .str := by
  induction vs generalizing n texts with
  | nil => simp [Checked.items, eq_comm]
  | cons v rest ih =>
    simp only [Checked.items, and_eq_ok_iff, of_eq_ok_iff, under_eq_ok_iff, asText_eq_ok_iff, ih]
    constructor
    · rintro ⟨_, more, ⟨_, s, rfl, rfl, rfl⟩, rfl, rfl⟩
      rfl
    · intro same
      cases texts with
      | nil => cases same
      | cons s more =>
        obtain ⟨rfl, rfl⟩ := List.cons.inj same
        exact ⟨_, more, ⟨_, s, rfl, rfl, rfl⟩, rfl, rfl⟩

theorem asList_asText_eq_ok_iff {fault : Fault} {texts : List String} :
    asList fault asText v = .ok texts ↔ v = .arr (texts.map .str) := by
  cases v with
  | arr vs => simp [asList, items_asText_eq_ok_iff]
  | _ => simp [asList, fail]

/-- Texts by name are read only from what they are written as. -/
theorem asTexts_eq_ok_iff {texts : List (String × String)} : asTexts v = .ok texts ↔ v = Signature.ofTexts texts := by
  cases v with
  | obj fields =>
    rw [Signature.ofTexts, Json.obj.injEq]
    induction fields generalizing texts with
    | nil => cases texts <;> simp [asTexts]
    | cons field rest ih =>
      obtain ⟨k, v⟩ := field
      have one : asTexts (.obj ((k, v) :: rest)) =
        ((of fun s kvs => (k, s) :: kvs).and ((asText v).under k)).and (asTexts (.obj rest)) := rfl
      simp only [one, and_eq_ok_iff, of_eq_ok_iff, under_eq_ok_iff, asText_eq_ok_iff, ih]
      constructor
      · rintro ⟨_, more, ⟨_, s, rfl, rfl, rfl⟩, rfl, rfl⟩
        rfl
      · intro same
        cases texts with
        | nil => cases same
        | cons text more =>
          obtain ⟨head, rfl⟩ := List.cons.inj same
          obtain ⟨rfl, rfl⟩ := Prod.mk.inj head
          exact ⟨_, more, ⟨_, text.2, rfl, rfl, rfl⟩, rfl, rfl⟩
  | _ => simp [asTexts, fail, Signature.ofTexts]

end

end Remedy.Schema
