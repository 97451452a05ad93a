import Mathlib.Data.List.Basic
import Remedy.Fix.Basic

/-!
What a fix has to say, kind by kind, for the change that it describes, and which tag names it may give: all that are one letter
and then letters, digits and hyphens, with or without one line feed behind them.
-/

namespace Remedy

/-! ### Tag names -/

/-- Characters of a tag name. -/
def isTagPart (c : Char) : Bool := c.isAlphanum || c == '-'

/-- One letter and then letters, digits and hyphens only, up to the end. -/
structure IsTag (cs : List Char) : Prop where
  letter : ∃ c, cs.head? = some c ∧ c.isAlpha = true
  part : ∀ c ∈ cs, isTagPart c = true

theorem isTag_cons_iff {c : Char} {rest : List Char} :
    IsTag (c :: rest) ↔ c.isAlpha = true ∧ rest.all isTagPart = true := by
  constructor
  · rintro ⟨⟨_, first, letter⟩, part⟩
    obtain rfl := Option.some.inj first
    exact ⟨letter, List.all_eq_true.mpr fun d member => part d (List.mem_cons_of_mem c member)⟩
  · rintro ⟨letter, part⟩
    refine ⟨⟨c, rfl, letter⟩, List.forall_mem_cons.mpr ⟨?_, List.all_eq_true.mp part⟩⟩
    simp [isTagPart, Char.isAlphanum, letter]

theorem IsTag.ne_nil {cs : List Char} (h : IsTag cs) : cs ≠ [] := by
  rintro rfl
  obtain ⟨c, first, _⟩ := h.letter
  cases first

theorem IsTag.feed {cs : List Char} (h : IsTag cs) : '\n' ∉ cs :=
  fun member => absurd (h.part _ member) (by decide)

/-- A text that is let pass is a tag name, or one with a line feed at its end. -/
theorem isTagName_iff {s : String} :
    isTagName s = true ↔ ∃ tag, IsTag tag ∧ (s.toList = tag ∨ s.toList = tag ++ ['\n']) := by
  rw [isTagName]
  cases s.toList with
  | nil =>
    refine ⟨nofun, ?_⟩
    rintro ⟨tag, isTag, same | same⟩
    · exact absurd same.symm isTag.ne_nil
    · simp at same
  | cons c rest =>
    simp only [Bool.and_eq_true, beq_iff_eq]
    change c.isAlpha = true ∧ (if rest.getLast? = some '\n' then rest.dropLast else rest).all isTagPart = true ↔ _
    rw [← isTag_cons_iff]
    split
    next last =>
      have cut := List.dropLast_append_getLast? _ last
      constructor
      · intro isTag
        refine ⟨_, isTag, Or.inr ?_⟩
        rw [List.cons_append, cut]
      · rintro ⟨tag, isTag, rfl | same⟩
        · exact absurd (List.mem_cons_of_mem c (List.mem_of_getLast? last)) isTag.feed
        · rw [← cut, ← List.cons_append] at same
          rwa [List.append_cancel_right same]
    next closed =>
      constructor
      · exact fun isTag => ⟨_, isTag, Or.inl rfl⟩
      · rintro ⟨tag, isTag, rfl | same⟩
        · exact isTag
        · cases tag with
          | nil => exact absurd rfl isTag.ne_nil
          | cons d init =>
            obtain ⟨_, rfl⟩ := List.cons.inj same
            exact absurd List.getLast?_concat closed

/-! ### Changes -/

namespace Fix

/-- What a fix says of the change that it describes. -/
inductive Describes (f : Fix) : Change → Prop
  | sets {overwrite : Bool} {name value : String} (kind : f.kind = if overwrite then .replaceAttribute else .addAttribute)
      (named : f.payload.name = some name) (nonempty : name ≠ "") (valued : f.payload.value = some value) :
      Describes f (.setAttribute overwrite name value)
  | inserts {html : String} (kind : f.kind = .addElement) (given : f.payload.html = some html) (nonempty : html ≠ "") :
      Describes f (.insert html)
  | renames {tag : String} (kind : f.kind = .convertTag) (given : f.payload.tagName = some tag) (valid : isTagName tag = true) :
      Describes f (.rename tag f.payload.attributes)

theorem setAttribute?_eq_some_iff {p : Payload} {overwrite : Bool} {c : Change} :
    Payload.change?.setAttribute? p overwrite = some c ↔ ∃ name value, p.name = some name ∧ name ≠ "" ∧ p.value = some value ∧
      c = .setAttribute overwrite name value := by
  rw [Payload.change?.setAttribute?.eq_def]
  constructor
  · intro same
    split at same
    next name value named valued =>
      split at same
      · cases same
      next nonempty =>
        cases same
        exact ⟨name, value, named, by simpa using nonempty, valued, rfl⟩
    next => cases same
  · rintro ⟨name, value, named, nonempty, valued, rfl⟩
    simp [named, valued, nonempty]

theorem change?_eq_some_iff {f : Fix} {c : Change} : f.change? = some c ↔ f.Describes c := by
  rw [Fix.change?, Payload.change?.eq_def]
  constructor
  · intro change
    cases kind : f.kind with
    | addAttribute =>
      rw [kind] at change
      obtain ⟨name, value, named, nonempty, valued, rfl⟩ := setAttribute?_eq_some_iff.mp change
      exact .sets kind named nonempty valued
    | replaceAttribute =>
      rw [kind] at change
      obtain ⟨name, value, named, nonempty, valued, rfl⟩ := setAttribute?_eq_some_iff.mp change
      exact .sets kind named nonempty valued
    | addElement =>
      simp only [kind] at change
      split at change
      next html given =>
        split at change
        · cases change
        next nonempty =>
          cases change
          exact .inserts kind given (by simpa using nonempty)
      · cases change
    | convertTag =>
      simp only [kind] at change
      split at change
      next tag given =>
        split at change
        next valid =>
          cases change
          exact .renames kind given valid
        · cases change
      · cases change
  · intro described
    cases described with
    | @sets overwrite name value kind named nonempty valued =>
      cases overwrite <;>
        simp only [kind, Bool.false_eq_true, if_false, if_true] <;>
        exact setAttribute?_eq_some_iff.mpr ⟨name, value, named, nonempty, valued, rfl⟩
    | inserts kind given nonempty => simp [kind, given, nonempty]
    | renames kind given valid => simp [kind, given, valid]

end Fix

end Remedy
