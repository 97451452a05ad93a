import Remedy.Json.Value

/-!
The equality test of JSON values tells exactly the equal ones.
-/

namespace Remedy.Json

mutual

private theorem beq_self : (v : Json) → v.beq v = true
  | .null => rfl
  | .bool _ | .int _ | .real _ | .str _ => by simp [beq]
  | .arr items => by simp [beq, beqAll_self items]
  | .obj fields => by simp [beq, beqFields_self fields]

private theorem beqAll_self : (vs : List Json) → beqAll vs vs = true
  | [] => rfl
  | v :: rest => by simp [beqAll, beq_self v, beqAll_self rest]

private theorem beqFields_self : (fields : List (String × Json)) → beqFields fields fields = true
  | [] => rfl
  | (_, v) :: rest => by simp [beqFields, beq_self v, beqFields_self rest]

end

mutual

private theorem eq_of_beq_true : (v w : Json) → v.beq w = true → v = w
  | .null, w, h => by cases w <;> simp_all [beq]
  | .bool _, w, h => by cases w <;> simp_all [beq]
  | .int _, w, h => by cases w <;> simp_all [beq]
  | .real _, w, h => by cases w <;> simp_all [beq]
  | .str _, w, h => by cases w <;> simp_all [beq]
  | .arr items, w, h => by
    cases w with
    | arr others => rw [eq_of_beqAll_true items others (by simpa [beq] using h)]
    | _ => simp [beq] at h
  | .obj fields, w, h => by
    cases w with
    | obj others => rw [eq_of_beqFields_true fields others (by simpa [beq] using h)]
    | _ => simp [beq] at h

private theorem eq_of_beqAll_true : (vs ws : List Json) → beqAll vs ws = true → vs = ws
  | [], ws, h => by cases ws <;> simp_all [beqAll]
  | v :: vs, ws, h => by
    cases ws with
    | nil => simp [beqAll] at h
    | cons w ws =>
      simp only [beqAll, Bool.and_eq_true] at h
      rw [eq_of_beq_true v w h.1, eq_of_beqAll_true vs ws h.2]

private theorem eq_of_beqFields_true : (fs gs : List (String × Json)) → beqFields fs gs = true → fs = gs
  | [], gs, h => by cases gs <;> simp_all [beqFields]
  | (k, v) :: fs, gs, h => by
    cases gs with
    | nil => simp [beqFields] at h
    | cons g gs =>
      obtain ⟨l, w⟩ := g
      simp only [beqFields, Bool.and_eq_true, beq_iff_eq] at h
      rw [h.1.1, eq_of_beq_true v w h.1.2, eq_of_beqFields_true fs gs h.2]

end

instance : LawfulBEq Json where
  eq_of_beq := eq_of_beq_true _ _
  rfl := beq_self _

end Remedy.Json
