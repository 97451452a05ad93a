import Remedy.Proofs.Json.RoundTrip

/-!
A value that is written in ASCII has only printable characters in it: whatever its strings hold, no line ends in its text.
-/

namespace Remedy.Json

/-- The characters of ASCII from the space to the tilde. -/
def Printable (c : Char) : Prop := 0x20 ≤ c.toNat ∧ c.toNat < 0x7F

instance (c : Char) : Decidable (Printable c) := inferInstanceAs (Decidable (_ ∧ _))

theorem printable_all {cs : List Char} (all : cs.all (fun c => decide (Printable c)) = true) : ∀ c ∈ cs, Printable c := by
  simpa using all

theorem printable_of_isDigit {c : Char} (digit : c.isDigit = true) : Printable c := by
  simp only [Char.isDigit, Bool.and_eq_true, decide_eq_true_eq] at digit
  have low : 48 ≤ c.toNat := digit.1
  have high : c.toNat ≤ 57 := digit.2
  exact ⟨by omega, by omega⟩

/-! ### Strings -/

theorem printable_hexDigit (n : Nat) : Printable (hexDigit (n % 16)) := by
  have digits : ∀ m < 16, Printable (hexDigit m) := by decide
  exact digits _ (Nat.mod_lt n (by decide))

theorem printable_unicodeEscape {n : Nat} {c : Char} (member : c ∈ unicodeEscape n) : Printable c := by
  simp only [unicodeEscape, hex4, List.mem_cons, List.not_mem_nil, or_false] at member
  rcases member with rfl | rfl | rfl | rfl | rfl | rfl
  · decide
  · decide
  all_goals exact printable_hexDigit _

theorem printable_escapeChar {c x : Char} (member : x ∈ escapeChar true c) : Printable x := by
  have escaped := escaped_escapeChar true c
  generalize escapeChar true c = cs at escaped member
  cases escaped with
  | letter _ printable =>
    rcases List.mem_cons.mp member with rfl | last
    · decide
    · exact List.mem_singleton.mp last ▸ printable
  | plain _ _ control short => exact List.mem_singleton.mp member ▸ ⟨Nat.not_lt.mp control, short rfl⟩
  | single => exact printable_unicodeEscape member
  | pair => exact (List.mem_append.mp member).elim printable_unicodeEscape printable_unicodeEscape

theorem printable_quoted {s : String} {c : Char} (member : c ∈ quoted true s) : Printable c := by
  rw [quoted, List.mem_cons, List.mem_append, List.mem_flatMap, List.mem_singleton] at member
  rcases member with rfl | ⟨_, _, escaped⟩ | rfl
  · decide
  · exact printable_escapeChar escaped
  · decide

/-! ### Numbers -/

theorem printable_signText {negative : Bool} {c : Char} (member : c ∈ signText negative) : Printable c := by
  cases negative with
  | false => cases member
  | true => exact List.mem_singleton.mp member ▸ by decide

theorem Numeral.printable_text {n : Numeral} (valid : n.Valid) {c : Char} (member : c ∈ n.text) : Printable c := by
  rw [text, List.mem_append, List.mem_append] at member
  rcases member with whole | fraction | power
  · exact printable_of_isDigit (valid.whole c whole)
  · rw [fractionText] at fraction
    split at fraction
    · cases fraction
    · rcases List.mem_cons.mp fraction with rfl | digit
      · decide
      · exact printable_of_isDigit (valid.fraction c digit)
  · rw [powerText] at power
    split at power
    next minus digits given =>
      rcases List.mem_cons.mp power with rfl | signed
      · decide
      rcases List.mem_cons.mp signed with rfl | digit
      · cases minus <;> decide
      · exact printable_of_isDigit ((valid.power minus digits given).2 c digit)
    next => cases power

theorem printable_int {n : Int} {c : Char} (member : c ∈ (toString n).toList) : Printable c := by
  obtain ⟨negative, m, text, _⟩ := exists_toString n
  rw [text, List.mem_append] at member
  exact member.elim printable_signText (Numeral.printable_text (Numeral.valid_ofNat m))

theorem printable_real {x : Binary64} (canonical : x.Canonical) {c : Char} (member : c ∈ (realText x).toList) : Printable c := by
  cases x with
  | nan => exact printable_all (show "NaN".toList.all (fun c => decide (Printable c)) = true from rfl) c member
  | infinite negative =>
    cases negative with
    | false => exact printable_all (show "Infinity".toList.all (fun c => decide (Printable c)) = true from rfl) c member
    | true => exact printable_all (show "-Infinity".toList.all (fun c => decide (Printable c)) = true from rfl) c member
  | finite negative m e =>
    obtain ⟨n, text, valid, _⟩ := exists_numeral canonical
    rw [text, List.mem_append] at member
    exact member.elim printable_signText (Numeral.printable_text valid)

/-! ### Values -/

theorem printable_cons {c x : Char} {cs : List Char} (first : Printable c) (more : ∀ x ∈ cs, Printable x) (member : x ∈ c :: cs) :
    Printable x := by
  rcases List.mem_cons.mp member with rfl | later
  · exact first
  · exact more x later

theorem printable_append {x : Char} {cs ds : List Char} (first : ∀ x ∈ cs, Printable x) (more : ∀ x ∈ ds, Printable x)
    (member : x ∈ cs ++ ds) : Printable x :=
  (List.mem_append.mp member).elim (first x) (more x)

theorem printable_gap (style : Style) : ∀ c ∈ style.gap, Printable c := by
  intro c member
  rw [Style.gap] at member
  split at member
  · exact List.mem_singleton.mp member ▸ by decide
  · cases member

mutual

/-- **In ASCII a value is written with printable characters alone.** -/
theorem printable_write (spaced : Bool) : (v : Json) → v.Proper → ∀ c ∈ write ⟨true, spaced⟩ v, Printable c
  | .null, _, c, member => printable_all (show "null".toList.all (fun c => decide (Printable c)) = true from rfl) c member
  | .bool b, _, c, member => by
    cases b with
    | false => exact printable_all (show "false".toList.all (fun c => decide (Printable c)) = true from rfl) c member
    | true => exact printable_all (show "true".toList.all (fun c => decide (Printable c)) = true from rfl) c member
  | .int _, _, _, member => printable_int member
  | .real _, proper, _, member => printable_real proper member
  | .str _, _, _, member => printable_quoted member
  | .arr items, proper, _, member =>
    printable_cons (by decide) (fun _ => printable_append (printable_writeItems spaced items proper) (printable_all rfl)) member
  | .obj fields, proper, _, member =>
    printable_cons (by decide) (fun _ => printable_append (printable_writeFields spaced fields proper.2) (printable_all rfl)) member

theorem printable_writeItems (spaced : Bool) : (items : List Json) → ProperAll items →
    ∀ c ∈ writeItems ⟨true, spaced⟩ items, Printable c
  | [], _, _, member => by cases member
  | [v], proper, c, member => printable_write spaced v proper.1 c member
  | v :: w :: items, proper, _, member =>
    printable_append (printable_write spaced v proper.1) (fun _ => printable_cons (by decide) fun _ =>
      printable_append (printable_gap ⟨true, spaced⟩) (printable_writeItems spaced (w :: items) proper.2)) member

theorem printable_writeFields (spaced : Bool) : (fields : List (String × Json)) → ProperFields fields →
    ∀ c ∈ writeFields ⟨true, spaced⟩ fields, Printable c
  | [], _, _, member => by cases member
  | [(_, v)], proper, _, member =>
    printable_append (fun _ => printable_quoted) (fun _ => printable_cons (by decide) fun _ =>
      printable_append (printable_gap ⟨true, spaced⟩) (printable_write spaced v proper.1)) member
  | (_, v) :: (l, w) :: fields, proper, _, member =>
    printable_append (fun _ => printable_quoted) (fun _ => printable_cons (by decide) fun _ =>
      printable_append (printable_gap ⟨true, spaced⟩) fun _ => printable_append (printable_write spaced v proper.1) fun _ =>
        printable_cons (by decide) fun _ => printable_append (printable_gap ⟨true, spaced⟩)
          (printable_writeFields spaced ((l, w) :: fields) proper.2)) member

end

end Remedy.Json
