import Remedy.Proofs.Component.Bounds
import Remedy.Proofs.Edit.LineSubstitution
import Remedy.Proofs.Patch.ComponentTrace

/-!
Where the edits of a pass over a component stand: between columns that its lines have, as long as the places of the fixes
are counted from the left.
-/

namespace Remedy.Patch.Component

open Remedy.Component (Line OpenTag scan fallback)

/-! ### Edits of one fix -/

section

variable {lines : List Line} {index : Nat}

theorem inRange_of_nats {e : LineEdit} {start stop : Nat} (line_lt : e.line < lines.length) (start_eq : e.start = start)
    (stop_eq : e.stop = stop) (forward : start ≤ stop) (inside : stop ≤ (lines.getD e.line []).length) :
    e.InRange lines where
  start := ⟨line_lt, by omega, by omega⟩
  stop := ⟨line_lt, by omega, by omega⟩
  forward := by omega

theorem lineIndex?_eq_some_iff {p : Position} : lineIndex? lines p = some index ↔ p.line = index + 1 ∧ index < lines.length := by
  rw [lineIndex?]
  simp only [Bool.and_eq_true, decide_eq_true_eq]
  constructor
  · intro h
    split at h
    · have := Option.some.inj h
      omega
    · cases h
  · rintro ⟨line, inside⟩
    rw [if_pos (by omega), line]
    simp

theorem lineIndex?_lt {p : Position} (h : lineIndex? lines p = some index) : index < lines.length :=
  (lineIndex?_eq_some_iff.mp h).2

/-- A name stands in the line that it is found in. -/
theorem nameAfter?_within {line : Line} {column start stop : Int} {mark : List Char}
    (h : nameAfter? line column mark = some (start, stop)) : 0 ≤ start ∧ start ≤ stop ∧ stop ≤ line.length := by
  rw [nameAfter?] at h
  split at h
  · contradiction
  next found =>
    simp only at h
    split at h
    · contradiction
    next name =>
      obtain ⟨rfl, rfl⟩ := Prod.mk.inj (Option.some.inj h)
      have nonneg : 0 ≤ column := by
        simp only [Bool.or_eq_true, decide_eq_true_eq, not_or] at found
        omega
      have taken := (List.takeWhile_sublist isTagNamePart (l := line.drop (column + mark.length).toNat)).length_le
      rw [List.length_drop] at taken
      -- A name that is not empty needs a line that goes on behind the mark.
      have nonempty : ((line.drop (column + mark.length).toNat).takeWhile isTagNamePart).length ≠ 0 := by
        simpa [List.length_eq_zero_iff] using name
      omega

theorem renameEdits_inRange {l : Location} {new : String} {edits : List LineEdit} (inside : index < lines.length)
    (h : renameEdits lines index l new = .ok edits) : ∀ e ∈ edits, e.InRange lines := by
  have named {i : Nat} {column start stop : Int} {mark : List Char} (inside : i < lines.length)
      (h : nameAfter? (lineAt lines i) column mark = some (start, stop)) :
      LineEdit.InRange lines { line := i, start, stop, text := new } := by
    obtain ⟨nonneg, forward, le_length⟩ := nameAfter?_within h
    exact ⟨⟨inside, nonneg, Int.le_trans forward le_length⟩, ⟨inside, Int.le_trans nonneg forward, le_length⟩, forward⟩
  rw [renameEdits] at h
  split at h
  · contradiction
  next start stop opening =>
    simp only at h
    split at h
    next =>
      obtain rfl := Except.ok.inj h
      simpa using named inside opening
    next p closing =>
      split at h
      next e closed =>
        obtain rfl := Except.ok.inj h
        obtain ⟨i, onLine, found⟩ := Option.bind_eq_some_iff.mp closed
        obtain ⟨⟨start', stop'⟩, name, rfl⟩ := Option.map_eq_some_iff.mp found
        simpa using And.intro (named inside opening) (named (lineIndex?_lt onLine) name)
      next => contradiction

theorem insertAttribute_inRange {tag : OpenTag} (stands : tag.Stands lines) (name value : String) :
    (insertAttribute lines tag name value).InRange lines := by
  have place : IsColumn lines tag.line tag.column := ⟨stands.line_lt, stands.nonneg, Int.le_of_lt stands.lt_length⟩
  exact ⟨place, place, Int.le_refl _⟩

theorem attributeEdit_inRange {tag : OpenTag} (stands : tag.Stands lines) {name value : String} {overwrite : Bool}
    {e : LineEdit} (h : attributeEdit lines tag name value overwrite = .ok (some e)) : e.InRange lines := by
  rw [attributeEdit] at h
  simp only at h
  split at h
  next line v static =>
    split at h
    · obtain rfl := Option.some.inj (Except.ok.inj h)
      obtain ⟨s, _, found⟩ := List.exists_of_findSome?_eq_some static
      obtain ⟨v', value_, same⟩ := Option.map_eq_some_iff.mp found
      obtain ⟨rfl, rfl⟩ := Prod.mk.inj same
      obtain ⟨positive, forward, inside⟩ := Remedy.Component.findStatic?_within value_
      -- A line that is not there has no values.
      have line_lt : s.line < lines.length := by
        by_contra outside
        rw [lineAt, List.getD_eq_getElem?_getD, List.getElem?_eq_none (by omega)] at inside
        simp only [Option.getD_none, List.length_nil] at inside
        omega
      exact inRange_of_nats line_lt rfl rfl forward inside
    · cases Except.ok.inj h
  next =>
    split at h
    · split at h
      · contradiction
      · cases Except.ok.inj h
    · obtain rfl := Option.some.inj (Except.ok.inj h)
      exact insertAttribute_inRange stands name value

theorem updateEdits_inRange {l : Location} {f : Fix} {overwrite : Bool} (inside : index < lines.length)
    (nonneg : 0 ≤ l.start.column) (updates : List (String × String)) :
    ∀ e ∈ (updateEdits lines index l f overwrite updates).1, e.InRange lines := by
  induction updates with
  | nil => simp [updateEdits]
  | cons u rest ih =>
    obtain ⟨name, value⟩ := u
    simp only [updateEdits]
    split
    · exact ih
    next tag found =>
      have stands : tag.Stands lines := by
        rcases Option.or_eq_some_iff.mp found with scanned | ⟨_, guessed⟩
        · exact Remedy.Component.scan_stands nonneg scanned
        · exact Remedy.Component.fallback_stands inside guessed
      split
      next e made => exact List.forall_mem_cons.mpr ⟨attributeEdit_inRange stands made, ih⟩
      · exact ih
      · exact ih

theorem insertEdit_inRange {l : Location} {html : String} {e : LineEdit} (nonneg : 0 ≤ l.start.column)
    (h : insertEdit lines index l html = .ok e) : e.InRange lines := by
  rw [insertEdit] at h
  split at h
  · contradiction
  next tag scanned =>
    split at h
    · contradiction
    · obtain rfl := Except.ok.inj h
      obtain ⟨line_lt, start, inside⟩ := Remedy.Component.scan_stands nonneg scanned
      have place : IsColumn lines tag.line (tag.column + 1) := ⟨line_lt, by omega, by omega⟩
      exact ⟨place, place, Int.le_refl _⟩

theorem planFix_inRange {l : Location} {f : Fix} (inside : index < lines.length) (nonneg : 0 ≤ l.start.column) :
    ∀ e ∈ (planFix lines index l f).1, e.InRange lines := by
  rw [planFix]
  split
  · simp
  · exact updateEdits_inRange inside nonneg _
  · split
    next e made => simpa using insertEdit_inRange nonneg made
    · simp
  · split
    · simp
    next names made =>
      exact List.forall_mem_append.mpr ⟨renameEdits_inRange inside made, updateEdits_inRange inside nonneg _⟩

end

/-! ### A pass -/

/-- The places of fixes are counted from the left. -/
def CountedFromLeft (fixes : List Fix) : Prop := ∀ f ∈ fixes, ∀ l, f.location = some l → 0 ≤ l.start.column

variable (lines : List Line)

theorem planOne_inRange {f : Fix} (nonneg : ∀ l, f.location = some l → 0 ≤ l.start.column) {plan : LinePlan}
    (held : ∀ e ∈ plan.edits, e.InRange lines) : ∀ e ∈ (planOne lines f plan).1.edits, e.InRange lines := by
  rcases planOne_cases lines f plan with same | ⟨l, index, location, onLine, eq⟩
  · rwa [same]
  · intro e he
    rw [eq] at he
    rcases List.mem_append.mp (LinePlan.addFor_subset plan f _ he) with old | new
    · exact held e old
    · exact planFix_inRange (lineIndex?_lt onLine) (nonneg l location) e new

theorem planOf_inRange {fixes : List Fix} (counted : CountedFromLeft fixes) :
    ∀ e ∈ (planOf lines fixes).edits, e.InRange lines := by
  -- From any plan on, a pass adds only edits between columns that are there.
  have run (fixes : List Fix) (counted : CountedFromLeft fixes) (plan : LinePlan)
      (held : ∀ e ∈ plan.edits, e.InRange lines) : ∀ e ∈ (planAll lines fixes plan).1.edits, e.InRange lines := by
    induction fixes generalizing plan with
    | nil => exact held
    | cons f rest ih =>
      rw [planAll_cons]
      exact ih (fun g hg => counted g (List.mem_cons_of_mem f hg)) _
        (planOne_inRange lines (counted f List.mem_cons_self) held)
  exact run _ (fun f hf => counted f ((Fix.distinctFrom_sublist [] fixes).subset hf)) .empty (by simp [LinePlan.empty])

/-- What is written by a pass is what was read, but for what its edits cover. -/
theorem changedWithin_textOf (source : String) {fixes : List Fix} (counted : CountedFromLeft fixes) :
    ChangedWithin ((planOf (linesOf source) fixes).edits.map (LineEdit.toReplacement (linesOf source))) 0
      (Text.encode source.toList) (Text.encode (textOf source (planOf (linesOf source) fixes)).toList) := by
  have inRange := planOf_inRange (linesOf source) counted
  have apart := (sound_planOf (linesOf source) fixes).apart
  have whole : textOfLines (linesOf source) = source.toList := Text.intercalate_splitAtNewlines source.toList
  have coexist := coexist_toReplacement inRange apart
  have spliced := encode_apply inRange apart (planOf (linesOf source) fixes).claims
  rw [whole] at coexist spliced
  rw [textOf]
  split
  · exact .refl _ 0 _
  · rw [joinLines, String.toList_ofList]
    change ChangedWithin _ 0 _ (Text.encode (textOfLines _))
    rw [spliced]
    exact coexist.changedWithin_spliceBytes

end Remedy.Patch.Component
