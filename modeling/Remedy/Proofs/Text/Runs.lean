import Mathlib.Data.List.Basic

/-!
Runs of characters of one class: what has been written in a class is read by it up to where it ends.
-/

namespace Remedy

/-- What follows does not go on with a run. -/
def Ends (part : Char → Bool) (rest : List Char) : Prop := ∀ c, rest.head? = some c → part c = false

section

variable {part : Char → Bool} {run rest : List Char}

theorem ends_nil : Ends part [] := nofun

theorem ends_cons {c : Char} (other : part c = false) : Ends part (c :: rest) := by
  intro first same
  rw [← Option.some.inj same, other]

theorem takeWhile_ends (inside : ∀ c ∈ run, part c = true) (ends : Ends part rest) : (run ++ rest).takeWhile part = run := by
  rw [List.takeWhile_append_of_pos inside]
  cases rest with
  | nil => simp
  | cons c rest => simp [ends c rfl]

theorem dropWhile_ends (inside : ∀ c ∈ run, part c = true) (ends : Ends part rest) : (run ++ rest).dropWhile part = rest := by
  have whole := List.takeWhile_append_dropWhile (p := part) (l := run ++ rest)
  rw [takeWhile_ends inside ends] at whole
  exact List.append_cancel_left whole

end

/-! ### Digits -/

theorem toList_toString (n : Nat) : (toString n).toList = Nat.toDigits 10 n := by
  rw [Nat.toString_eq_ofList_toDigits, String.toList_ofList]

theorem isDigit_of_mem_toDigits {n : Nat} {c : Char} (member : c ∈ Nat.toDigits 10 n) : c.isDigit = true :=
  Nat.isDigit_of_mem_toDigits (by decide) (by decide) member

end Remedy
