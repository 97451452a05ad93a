import Remedy.Proofs.Component.Reading
import Remedy.Proofs.Edit.LineFrame
import Remedy.Proofs.Patch.ComponentPlacement
import Remedy.Proofs.Patch.Independence

/-!
Two fixes of a component in one pass, or in two passes one after the other.

A fix is planned on a few lines: that of its place, those that the search for the end of its tag reads, and that of the
closing tag. Lines that agree on these lead to the same edits, and all edits are on them. So if neither fix edits a line that
the other one examines, neither sees what the other has done.
-/

namespace Remedy.Patch.Component

open Remedy.Component (Line OpenTag Segment scan fallback scanReads findStatic? hasAttribute)

/-! ### What planning examines -/

/-- How many lines are read from that of the fix on. The end of the tag is looked for, unless there is nothing but a name to
change. -/
def linesFrom (lines : List Line) (index : Nat) (l : Location) : Change → Nat
  | .rename _ [] => 1
  | _ => scanReads lines index l.start.column

/-- The line of the closing tag, if that is to be renamed. -/
def closingLine? (lines : List Line) (l : Location) : Change → Option Nat
  | .rename _ _ => l.closing.bind (lineIndex? lines)
  | _ => none

/-- The lines that planning a fix examines. -/
def examined (lines : List Line) (f : Fix) : List Nat :=
  match f.location, f.change? with
  | some l, some change =>
    match lineIndex? lines l.start with
    | some index => List.range' index (linesFrom lines index l change) ++ (closingLine? lines l change).toList
    | none => []
  | _, _ => []

/-- Texts of as many lines, the same ones at some numbers. -/
structure Agree (numbers : List Nat) (lines others : List Line) : Prop where
  length : lines.length = others.length
  at_ : ∀ i ∈ numbers, lines[i]? = others[i]?

def tagAt? (lines : List Line) (index : Nat) (column : Int) : Option OpenTag :=
  (scan lines index column).or (fallback (lineAt lines index) index)

section

variable {lines others : List Line} {index : Nat} {l : Location} {f : Fix}

theorem mem_examined {change : Change} (location : f.location = some l) (planned : f.change? = some change)
    (onLine : lineIndex? lines l.start = some index) (i : Nat) :
    i ∈ examined lines f ↔
      (index ≤ i ∧ i < index + linesFrom lines index l change) ∨ closingLine? lines l change = some i := by
  simp only [examined, location, planned, onLine, List.mem_append, List.mem_range'_1, Option.mem_toList]

theorem one_le_linesFrom (inside : index < lines.length) (change : Change) : 1 ≤ linesFrom lines index l change := by
  rw [linesFrom.eq_def]
  split
  · exact Nat.le_refl 1
  · exact Remedy.Component.one_le_scanReads inside _

theorem tagAt?_spans {column : Int} {tag : OpenTag} (inside : index < lines.length)
    (h : tagAt? lines index column = some tag) : tag.Spans index (index + scanReads lines index column) := by
  rcases Option.or_eq_some_iff.mp h with scanned | ⟨_, guessed⟩
  · exact Remedy.Component.scan_spans scanned
  · have here := Remedy.Component.fallback_spans guessed
    exact ⟨here.segments, here.first_le,
      Nat.lt_of_lt_of_le here.lt_last (Nat.add_le_add_left (Remedy.Component.one_le_scanReads inside column) index)⟩

/-! ### Nothing else counts -/

theorem lineAt_congr {i : Nat} (same : lines[i]? = others[i]?) : lineAt lines i = lineAt others i := by
  rw [lineAt, lineAt, List.getD_eq_getElem?_getD, List.getD_eq_getElem?_getD, same]

theorem lineIndex?_congr (length : lines.length = others.length) (p : Position) :
    lineIndex? lines p = lineIndex? others p := by
  rw [lineIndex?, lineIndex?, length]

theorem scan_eq_of_agree {column : Int} (length : lines.length = others.length)
    (same : ∀ i, index ≤ i → i < index + scanReads lines index column → lines[i]? = others[i]?) :
    scan lines index column = scan others index column := by
  apply Remedy.Component.scan_congr length
  apply List.ext_getElem?
  intro i
  rw [List.getElem?_take, List.getElem?_take]
  split
  · rw [List.getElem?_drop, List.getElem?_drop, same (index + i) (by omega) (by omega)]
  · rfl

theorem tagAt?_congr {column : Int} (inside : index < lines.length) (length : lines.length = others.length)
    (same : ∀ i, index ≤ i → i < index + scanReads lines index column → lines[i]? = others[i]?) :
    tagAt? lines index column = tagAt? others index column := by
  have here := same index (Nat.le_refl _)
    (Nat.lt_add_of_pos_right (Remedy.Component.one_le_scanReads inside column))
  rw [tagAt?, tagAt?, scan_eq_of_agree length same, lineAt_congr here]

theorem attributeEdit_congr {tag : OpenTag} (segments : ∀ s ∈ tag.segments, lineAt lines s.line = lineAt others s.line)
    (last : lineAt lines tag.line = lineAt others tag.line) (name value : String) (overwrite : Bool) :
    attributeEdit lines tag name value overwrite = attributeEdit others tag name value overwrite := by
  have static : (tag.segments.findSome? fun s => (findStatic? name.toList (lineAt lines s.line) s).map fun v => (s.line, v)) =
      tag.segments.findSome? fun s => (findStatic? name.toList (lineAt others s.line) s).map fun v => (s.line, v) := by
    have each := List.map_congr_left fun s hs =>
      congrArg (fun line => (findStatic? name.toList line s).map fun v => (s.line, v)) (segments s hs)
    simpa only [List.findSome?_map, Function.id_comp] using congrArg (List.findSome? id) each
  have bound : (tag.segments.any fun s => hasAttribute name.toList (lineAt lines s.line) s) =
      tag.segments.any fun s => hasAttribute name.toList (lineAt others s.line) s := by
    have each := List.map_congr_left fun s hs =>
      congrArg (fun line => hasAttribute name.toList line s) (segments s hs)
    simpa only [List.any_map, Function.id_comp] using congrArg (List.any · id) each
  rw [attributeEdit, attributeEdit, static, bound, insertAttribute, insertAttribute, last]

theorem updateEdits_congr (inside : index < lines.length) (length : lines.length = others.length)
    (same : ∀ i, index ≤ i → i < index + scanReads lines index l.start.column → lines[i]? = others[i]?) (overwrite : Bool)
    (updates : List (String × String)) :
    updateEdits lines index l f overwrite updates = updateEdits others index l f overwrite updates := by
  have tags := tagAt?_congr inside length same
  induction updates with
  | nil => rfl
  | cons u rest ih =>
    obtain ⟨name, value⟩ := u
    simp only [updateEdits, ← tagAt?.eq_def, ← tags, ← ih]
    cases found : tagAt? lines index l.start.column with
    | none => rfl
    | some tag =>
      obtain ⟨segments, first_le, lt_last⟩ := tagAt?_spans inside found
      have edit := attributeEdit_congr (fun s hs => lineAt_congr (same s.line (segments s hs).1 (by
          have := (segments s hs).2
          omega))) (lineAt_congr (same tag.line first_le lt_last)) name value overwrite
      simp only [edit]

theorem insertEdit_congr (length : lines.length = others.length)
    (same : ∀ i, index ≤ i → i < index + scanReads lines index l.start.column → lines[i]? = others[i]?) (html : String) :
    insertEdit lines index l html = insertEdit others index l html := by
  rw [insertEdit, insertEdit, scan_eq_of_agree length same]

theorem renameEdits_congr (length : lines.length = others.length) (opening : lines[index]? = others[index]?)
    (closing : ∀ i, l.closing.bind (lineIndex? lines) = some i → lines[i]? = others[i]?) (new : String) :
    renameEdits lines index l new = renameEdits others index l new := by
  rw [renameEdits, renameEdits, lineAt_congr opening]
  cases place : l.closing with
  | none => rfl
  | some p =>
    simp only [← lineIndex?_congr length p]
    cases onLine : lineIndex? lines p with
    | none => simp only [Option.bind_none]
    | some i => simp only [Option.bind_some, lineAt_congr (closing i (by rw [place, Option.bind_some, onLine]))]

/-- Lines that agree on all that a fix examines lead to the same edits. -/
theorem plannedEdits_of_agree (agree : Agree (examined lines f) lines others) : plannedEdits lines f = plannedEdits others f := by
  obtain ⟨length, same⟩ := agree
  rw [plannedEdits, plannedEdits]
  cases location : f.location with
  | none => rfl
  | some l =>
    simp only [← lineIndex?_congr length]
    cases onLine : lineIndex? lines l.start with
    | none => rfl
    | some index =>
      simp only
      rw [planFix, planFix]
      cases planned : f.change? with
      | none => rfl
      | some change =>
        have inside := lineIndex?_lt onLine
        have here (i : Nat) (from_ : index ≤ i) (to_ : i < index + linesFrom lines index l change) : lines[i]? = others[i]? :=
          same i ((mem_examined location planned onLine i).mpr (.inl ⟨from_, to_⟩))
        cases change with
        | setAttribute overwrite name value => exact congrArg Prod.fst (updateEdits_congr inside length here _ _)
        | insert html => simp only [insertEdit_congr length here]
        | rename new attributes =>
          have names := renameEdits_congr (l := l) length
            (here index (Nat.le_refl _) (Nat.lt_add_of_pos_right (one_le_linesFrom inside _)))
            (fun i closing => same i ((mem_examined location planned onLine i).mpr (.inr closing))) new
          -- Without attributes nothing is read behind the first line.
          have updates : updateEdits lines index l f true attributes = updateEdits others index l f true attributes := by
            cases attributes with
            | nil => rfl
            | cons u rest => exact updateEdits_congr inside length here true (u :: rest)
          simp only [names, updates]

/-! ### Where the edits stand -/

/-- An edit that claims an attribute of a tag stands on a line of that tag. -/
structure ClaimsWithin (first last : Nat) (e : LineEdit) : Prop where
  first_le : first ≤ e.line
  claim : ∃ line column name, e.claim = some (line, column, name) ∧ e.line ≤ line ∧ line < last

theorem attributeEdit_claims {tag : OpenTag} {first last : Nat} (spans : tag.Spans first last) {name value : String}
    {overwrite : Bool} {e : LineEdit} (h : attributeEdit lines tag name value overwrite = .ok (some e)) :
    ClaimsWithin first last e := by
  rw [attributeEdit] at h
  simp only at h
  split at h
  next line v static =>
    split at h
    · -- A value that stands in the tag is replaced where it stands.
      obtain rfl := Option.some.inj (Except.ok.inj h)
      obtain ⟨s, member, found⟩ := List.exists_of_findSome?_eq_some static
      obtain ⟨v', _, same⟩ := Option.map_eq_some_iff.mp found
      obtain ⟨rfl, rfl⟩ := Prod.mk.inj same
      obtain ⟨first_le, le_line⟩ := spans.segments s member
      exact ⟨first_le, _, _, _, rfl, le_line, spans.lt_last⟩
    · cases Except.ok.inj h
  next =>
    split at h
    · split at h
      · cases h
      · cases Except.ok.inj h
    · -- A new attribute goes to the end of the tag.
      obtain rfl := Option.some.inj (Except.ok.inj h)
      exact ⟨spans.first_le, _, _, _, rfl, Nat.le_refl _, spans.lt_last⟩

theorem updateEdits_claims (inside : index < lines.length) {overwrite : Bool} (updates : List (String × String)) :
    ∀ e ∈ (updateEdits lines index l f overwrite updates).1,
      ClaimsWithin index (index + scanReads lines index l.start.column) e := by
  induction updates with
  | nil => simp [updateEdits]
  | cons u rest ih =>
    obtain ⟨name, value⟩ := u
    simp only [updateEdits, ← tagAt?.eq_def]
    split
    · exact ih
    next tag found =>
      split
      next e made => exact List.forall_mem_cons.mpr ⟨attributeEdit_claims (tagAt?_spans inside found) made, ih⟩
      · exact ih
      · exact ih

theorem length_updateEdits_le {overwrite : Bool} (updates : List (String × String)) :
    (updateEdits lines index l f overwrite updates).1.length ≤ updates.length := by
  induction updates with
  | nil => simp [updateEdits]
  | cons u rest ih =>
    obtain ⟨name, value⟩ := u
    simp only [updateEdits, List.length_cons]
    split
    · exact Nat.le_succ_of_le ih
    · split
      · exact Nat.succ_le_succ ih
      · exact Nat.le_succ_of_le ih
      · exact Nat.le_succ_of_le ih

/-- New names are written on the lines of the two tags, and nothing is claimed. -/
theorem renameEdits_lines {new : String} {edits : List LineEdit} (h : renameEdits lines index l new = .ok edits) :
    ∃ opening rest, edits = opening :: rest ∧ opening.claim = none ∧ opening.line = index ∧
      ∀ e ∈ rest, e.claim = none ∧ l.closing.bind (lineIndex? lines) = some e.line := by
  rw [renameEdits] at h
  split at h
  · cases h
  next start stop _ =>
    simp only at h
    split at h
    next =>
      obtain rfl := Except.ok.inj h
      exact ⟨_, [], rfl, rfl, rfl, by simp⟩
    next p closing =>
      split at h
      next e closed =>
        obtain rfl := Except.ok.inj h
        obtain ⟨i, onLine, found⟩ := Option.bind_eq_some_iff.mp closed
        obtain ⟨span, _, rfl⟩ := Option.map_eq_some_iff.mp found
        refine ⟨_, [_], rfl, rfl, rfl, List.forall_mem_singleton.mpr ⟨rfl, ?_⟩⟩
        rw [closing, Option.bind_some, onLine]
      next => cases h

theorem insertEdit_line {html : String} {e : LineEdit} (h : insertEdit lines index l html = .ok e) :
    e.claim = none ∧ index ≤ e.line ∧ e.line < index + scanReads lines index l.start.column := by
  rw [insertEdit] at h
  split at h
  · cases h
  next tag found =>
    split at h
    · cases h
    · obtain rfl := Except.ok.inj h
      have spans := Remedy.Component.scan_spans found
      exact ⟨rfl, spans.first_le, spans.lt_last⟩

theorem exists_of_mem_planned {e : LineEdit} (he : e ∈ plannedEdits lines f) :
    ∃ l change index, f.location = some l ∧ f.change? = some change ∧ lineIndex? lines l.start = some index ∧
      plannedEdits lines f = (planFix lines index l f).1 := by
  cases location : f.location with
  | none => simp [plannedEdits, location] at he
  | some l =>
    cases onLine : lineIndex? lines l.start with
    | none => simp [plannedEdits, location, onLine] at he
    | some index =>
      have same : plannedEdits lines f = (planFix lines index l f).1 := by simp only [plannedEdits, location, onLine]
      cases planned : f.change? with
      | none => simp [same, planFix, planned] at he
      | some change => exact ⟨l, change, index, rfl, rfl, onLine, same⟩

/-- A fix edits no line but such as it examines. -/
theorem line_mem_examined {e : LineEdit} (he : e ∈ plannedEdits lines f) : e.line ∈ examined lines f := by
  obtain ⟨l, change, index, location, planned, onLine, same⟩ := exists_of_mem_planned he
  have inside := lineIndex?_lt onLine
  rw [mem_examined location planned onLine]
  rw [same, planFix, planned] at he
  have ofClaim {n : Nat} (h : ClaimsWithin index (index + n) e) : index ≤ e.line ∧ e.line < index + n := by
    obtain ⟨first_le, line, _, _, _, le_line, lt_last⟩ := h
    omega
  cases change with
  | setAttribute overwrite name value => exact .inl (ofClaim (updateEdits_claims inside _ e he))
  | insert html =>
    simp only at he
    split at he
    next d made =>
      obtain rfl := List.mem_singleton.mp he
      exact .inl (insertEdit_line made).2
    next => cases he
  | rename new attributes =>
    simp only at he
    split at he
    next => cases he
    next names made =>
      obtain ⟨opening, rest, rfl, _, on, closing⟩ := renameEdits_lines made
      have first := one_le_linesFrom (l := l) inside (.rename new attributes)
      -- The names of the two tags, and then the attributes.
      rw [List.cons_append, List.mem_cons, List.mem_append] at he
      rcases he with rfl | atEnd | update
      · exact .inl (by omega)
      · exact .inr (closing e atEnd).2
      · cases attributes with
        | nil => cases update
        | cons u more => exact .inl (ofClaim (updateEdits_claims inside _ e update))

/-- Where an edit claims an attribute, all lines from the place of the fix up to the end of the tag are examined, and unless
all its edits are refused the fix edits one of them. -/
theorem claim_reaches {e : LineEdit} (he : e ∈ plannedEdits lines f) {line : Nat} {column : Int} {name : String}
    (claim : e.claim = some (line, column, name)) :
    ∃ first, first ≤ e.line ∧ e.line ≤ line ∧ (∀ i, first ≤ i → i ≤ line → i ∈ examined lines f) ∧
      ∀ (p : LinePlan) (added : List LineEdit), (p.addFor (plannedEdits lines f) f).1.edits = p.edits ++ added →
        added = [] ∨ ∃ a ∈ added, first ≤ a.line ∧ a.line ≤ line := by
  obtain ⟨l, change, index, location, planned, onLine, same⟩ := exists_of_mem_planned he
  have inside := lineIndex?_lt onLine
  have reach (within : ClaimsWithin index (index + linesFrom lines index l change) e) :
      index ≤ e.line ∧ e.line ≤ line ∧ ∀ i, index ≤ i → i ≤ line → i ∈ examined lines f := by
    obtain ⟨first_le, line', column', name', claim', le_line, lt_last⟩ := within
    obtain ⟨rfl, _⟩ := Prod.mk.inj (Option.some.inj (claim.symm.trans claim'))
    exact ⟨first_le, le_line, fun i from_ to_ => (mem_examined location planned onLine i).mpr (.inl ⟨from_, by omega⟩)⟩
  rw [same] at he ⊢
  rw [planFix, planned] at he ⊢
  cases change with
  | setAttribute overwrite name' value =>
    obtain ⟨first_le, le_line, all⟩ := reach (updateEdits_claims inside _ e he)
    -- There is only this one edit to add.
    have lone : (updateEdits lines index l f overwrite [(name', value)]).1 = [e] := by
      have length := Nat.le_antisymm (length_updateEdits_le [(name', value)]) (List.length_pos_of_mem he)
      obtain ⟨d, single⟩ := List.length_eq_one_iff.mp length
      rw [single] at he ⊢
      rw [List.mem_singleton.mp he]
    refine ⟨index, first_le, le_line, all, fun p added adds => ?_⟩
    rw [lone] at adds
    obtain ⟨added', sub, adds'⟩ := LinePlan.addFor_sublist p f [e]
    obtain rfl := List.append_cancel_left (adds.symm.trans adds')
    rcases List.sublist_singleton.mp sub with rfl | rfl
    · exact .inl rfl
    · exact .inr ⟨e, List.mem_singleton_self e, first_le, le_line⟩
  | insert html =>
    simp only at he
    split at he
    next d made =>
      obtain rfl := List.mem_singleton.mp he
      rw [(insertEdit_line made).1] at claim
      cases claim
    next => cases he
  | rename new attributes =>
    cases made : renameEdits lines index l new with
    | error reason => simp [made] at he
    | ok names =>
      obtain ⟨opening, rest, rfl, unclaimed, on, closing⟩ := renameEdits_lines made
      simp only [made, List.cons_append] at he ⊢
      have update : e ∈ (updateEdits lines index l f true attributes).1 := by
        rcases List.mem_cons.mp he with rfl | later
        · rw [unclaimed] at claim
          cases claim
        · rcases List.mem_append.mp later with atEnd | update
          · rw [(closing e atEnd).1] at claim
            cases claim
          · exact update
      obtain ⟨first_le, le_line, all⟩ := reach (by
        cases attributes with
        | nil => cases update
        | cons u more => exact updateEdits_claims inside _ e update)
      refine ⟨index, first_le, le_line, all, fun p added adds => ?_⟩
      -- The name in the open tag claims nothing, so it is added first or nothing is.
      rcases LinePlan.addFor_unclaimed p f unclaimed (rest ++ (updateEdits lines index l f true attributes).1) with same | ⟨more, adds'⟩
      · rw [same] at adds
        exact .inl (List.append_right_eq_self.mp adds.symm)
      · obtain rfl := List.append_cancel_left (adds.symm.trans adds')
        exact .inr ⟨opening, List.mem_cons_self, by omega, by omega⟩

end

/-! ### Two fixes -/

/-- Neither of two fixes edits a line that the other one examines. The second one counts alone and behind the first: where the
first claims an attribute, a batch is taken without it that would be refused by itself. -/
structure Separate (lines : List Line) (f g : Fix) : Prop where
  first : ∀ e ∈ contribution lines [] f, e.line ∉ examined lines g
  alone : ∀ e ∈ contribution lines [] g, e.line ∉ examined lines f
  behind : ∀ e ∈ contribution lines [f] g, e.line ∉ examined lines f

section

variable {lines others : List Line} {before : List Fix} {f g : Fix}

theorem planOf_singleton (lines : List Line) (f : Fix) : planOf lines [f] = own lines f := by
  rw [planOf, planFrom_new lines rfl, planFrom_nil, planOne_eq, own]

theorem edits_planOf_singleton (lines : List Line) (f : Fix) : (planOf lines [f]).edits = contribution lines [] f :=
  edits_planOf_snoc lines [] f

/-- A fix that is not a repeat adds its contribution to the plan of those before it. -/
theorem edits_addFor (new : Fix.isRepeated before f = false) :
    ((planOf lines before).addFor (plannedEdits lines f) f).1.edits =
      (planOf lines before).edits ++ contribution lines before f := by
  rw [← edits_planOf_snoc, planOf_append, planFrom_new lines new, planFrom_nil, planOne_eq]

theorem contribution_subset (new : Fix.isRepeated before f = false) : contribution lines before f ⊆ plannedEdits lines f := by
  obtain ⟨added, sub, adds⟩ := LinePlan.addFor_sublist (planOf lines before) f (plannedEdits lines f)
  rw [edits_addFor new] at adds
  rw [List.append_cancel_left adds]
  exact sub.subset

/-- A fix that asks for an attribute which another one claims adds nothing at all, if neither edits what the other examines:
its tag then lies among the lines of the other. -/
theorem contribution_eq_nil_of_claimed (new : Fix.isRepeated before g = false)
    (apart : ∀ d ∈ contribution lines before g, d.line ∉ examined lines f) {a e : LineEdit} (ha : a ∈ plannedEdits lines f)
    (unexamined : a.line ∉ examined lines g) (he : e ∈ plannedEdits lines g) {c : Nat × Int × String} (claim : a.claim = some c)
    (claim' : e.claim = some c) : contribution lines before g = [] := by
  obtain ⟨line, column, name⟩ := c
  obtain ⟨first, first_le, le_line, all, _⟩ := claim_reaches ha claim
  obtain ⟨first', first_le', le_line', all', reach⟩ := claim_reaches he claim'
  -- Were it lower, the other fix would have examined the line that is edited.
  have above : a.line < first' := by
    by_contra below
    exact unexamined (all' a.line (by omega) le_line)
  rcases reach (planOf lines before) (contribution lines before g) (edits_addFor new) with nothing | ⟨d, hd, from_, to_⟩
  · exact nothing
  · exact absurd (all d.line (by omega) to_) (apart d hd)

/-- Behind the first fix the second one adds what it adds alone. -/
theorem Separate.contribution_eq (h : Separate lines f g) (differ : f.identity ≠ g.identity) :
    contribution lines [f] g = contribution lines [] g := by
  have new : Fix.isRepeated [f] g = false := Bool.eq_false_iff.mpr (mt Fix.isRepeated_singleton_iff.mp differ)
  have planned : contribution lines [] f ⊆ plannedEdits lines f := contribution_subset rfl
  by_cases shared : ∃ a ∈ contribution lines [] f, ∃ e ∈ plannedEdits lines g, ∃ c, a.claim = some c ∧ e.claim = some c
  · -- Both add nothing: alone and behind the first fix.
    obtain ⟨a, ha, e, he, c, claim, claim'⟩ := shared
    rw [contribution_eq_nil_of_claimed new h.behind (planned ha) (h.first a ha) he claim claim',
      contribution_eq_nil_of_claimed rfl h.alone (planned ha) (h.first a ha) he claim claim']
  · -- Without a common claim there is nothing in the plan that the second fix could run into.
    have clear : (planOf lines [f]).Clear (plannedEdits lines g) := by
      constructor
      · intro e he s hs
        rw [edits_planOf_singleton] at hs
        have lines_ne : e.line ≠ s.line := fun same => h.first s hs (same ▸ line_mem_examined he)
        simp [LineEdit.overlaps, lines_ne]
      · intro e he c claim held
        obtain ⟨a, ha, claimed⟩ := ((sound_planOf lines [f]).mem_claims_iff c).mp held
        rw [edits_planOf_singleton] at ha
        exact shared ⟨a, ha, e, he, c, claimed, claim⟩
    have adds : ((planOf lines [f]).addFor (plannedEdits lines g) g).1.edits = _ := edits_addFor new
    rw [LinePlan.addFor_clear clear g g] at adds
    rw [← List.append_cancel_left adds, ← own, ← planOf_singleton, edits_planOf_singleton]

/-! ### Two passes -/

theorem textOf_eq (source : String) (p : LinePlan) : textOf source p = joinLines (p.apply (linesOf source)) := by
  rw [textOf]
  split
  next empty =>
    rw [LinePlan.apply, List.isEmpty_iff.mp empty, List.mergeSort_nil, List.foldr_nil, joinLines, linesOf,
      Text.intercalate_splitAtNewlines, String.ofList_toList]
  next => rfl

/-- The lines of a patched text are those that the edits make of the lines. -/
theorem linesOf_textOf {source : String} {p : LinePlan} (brought : ∀ e ∈ p.edits, '\n' ∉ e.text.toList) :
    linesOf (textOf source p) = p.apply (linesOf source) := by
  -- There is always one line at least, if only an empty one.
  have nonempty : p.apply (linesOf source) ≠ [] := by
    intro nothing
    have length := p.length_apply (linesOf source)
    rw [nothing, List.length_nil] at length
    exact Text.splitAtNewlines_ne_nil _ (List.eq_nil_of_length_eq_zero length.symm)
  rw [textOf_eq, joinLines, linesOf, String.toList_ofList]
  exact Text.splitAtNewlines_intercalate nonempty
    (LinePlan.plain_apply brought fun line member => Text.not_mem_of_mem_splitAtNewlines member)

/-- A fix is planned in a second pass as it would have been in the first, if that has edited nothing which it examines. -/
theorem planOf_apply {p : LinePlan} (apart : ∀ e ∈ p.edits, e.line ∉ examined lines g) :
    planOf (p.apply lines) [g] = planOf lines [g] := by
  have agree : Agree (examined lines g) lines (p.apply lines) :=
    ⟨(p.length_apply lines).symm, fun i hi =>
      (LinePlan.getElem?_apply_of_forall_ne (fun e he same => apart e he (same ▸ hi)) lines).symm⟩
  rw [planOf_singleton, planOf_singleton, own, own, plannedEdits_of_agree agree]

/-- Two passes make both plans on the lines as they were, and then the edits of the one and of the other. -/
theorem textOf_textOf {source : String} {p : LinePlan} (brought : ∀ e ∈ p.edits, '\n' ∉ e.text.toList)
    (apart : ∀ e ∈ p.edits, e.line ∉ examined (linesOf source) g) :
    textOf (textOf source p) (planOf (linesOf (textOf source p)) [g]) =
      joinLines ((planOf (linesOf source) [g]).apply (p.apply (linesOf source))) := by
  rw [textOf_eq, linesOf_textOf brought, planOf_apply apart]

/-- **One pass comes to the same as two.** If two different fixes bring no line feed, and neither of them edits a line that
the other one examines, then patching with both at once, with the second after the first, and with the first after the second
all give the same text. -/
theorem pass_eq_passes (source : String) {f g : Fix} (differ : f.identity ≠ g.identity)
    (brought : ∀ e ∈ contribution (linesOf source) [] f ++ contribution (linesOf source) [] g, '\n' ∉ e.text.toList)
    (separate : Separate (linesOf source) f g) :
    ∃ both first second, (apply source [f, g]).text = .ok both ∧
      (apply source [f]).text = .ok first ∧ (apply first [g]).text = .ok both ∧
      (apply source [g]).text = .ok second ∧ (apply second [f]).text = .ok both := by
  have ownF := edits_planOf_singleton (linesOf source) f
  have ownG := edits_planOf_singleton (linesOf source) g
  obtain ⟨broughtF, broughtG⟩ := List.forall_mem_append.mp brought
  -- What the second fix edits it also examines, so the two edit different lines.
  have apart : ∀ a ∈ (planOf (linesOf source) [f]).edits, ∀ b ∈ (planOf (linesOf source) [g]).edits, a.line ≠ b.line := by
    rw [ownF, ownG]
    intro a ha b hb same
    exact separate.first a ha (same ▸ line_mem_examined (contribution_subset rfl hb))
  have together : (planOf (linesOf source) [f, g]).edits =
      (planOf (linesOf source) [f]).edits ++ (planOf (linesOf source) [g]).edits := by
    rw [ownG, ← separate.contribution_eq differ]
    exact edits_planOf_snoc (linesOf source) [f] g
  have applied : (planOf (linesOf source) [f, g]).apply (linesOf source) =
      LinePlan.apply ⟨(planOf (linesOf source) [f]).edits ++ (planOf (linesOf source) [g]).edits, []⟩ (linesOf source) := by
    rw [LinePlan.apply, together, LinePlan.apply]
  refine ⟨_, _, _, text_apply source [f, g], text_apply source [f], ?_, text_apply source [g], ?_⟩
  · rw [text_apply, textOf_textOf (ownF ▸ broughtF) (ownF ▸ separate.first), textOf_eq, applied,
      LinePlan.apply_append apart [] (planOf (linesOf source) [g]).claims (planOf (linesOf source) [f]).claims]
  · rw [text_apply, textOf_textOf (ownG ▸ broughtG) (ownG ▸ separate.alone), textOf_eq, applied,
      LinePlan.apply_append_comm apart [] [],
      LinePlan.apply_append (fun b hb a ha => (apart a ha b hb).symm) [] (planOf (linesOf source) [f]).claims
        (planOf (linesOf source) [g]).claims]

end

namespace Twain

/-- An element on two lines, and another one whose tag takes two lines. -/
def source : String := "<a>t\n</a>\n<b\n>u</b>"

def fixAt (kind : FixKind) (payload : Payload) (start : Position) (closing : Option Position) : Fix :=
  ⟨kind, "", payload, ⟨.null, none, none, some ⟨"", start, closing⟩, []⟩⟩

def rename : Fix := fixAt .convertTag ⟨none, none, none, some "i", []⟩ ⟨1, 0⟩ (some ⟨2, 0⟩)

def insert : Fix := fixAt .addElement ⟨none, none, some "<hr>", none, []⟩ ⟨3, 0⟩ (some ⟨4, 2⟩)

theorem differ : rename.identity ≠ insert.identity :=
  fun same => absurd (Fix.agrees_of_identity same).change (by decide +kernel)

theorem separate : Separate (linesOf source) rename insert := by
  constructor
  · decide +kernel
  · decide +kernel
  · decide +kernel

end Twain

/-- The second fix reads on to the next line, and edits that one; all of it is behind the lines of the first fix. -/
theorem rename_and_insert_in_two_passes :
    examined (linesOf Twain.source) Twain.rename = [0, 1] ∧ examined (linesOf Twain.source) Twain.insert = [2, 3] ∧
      (contribution (linesOf Twain.source) [] Twain.rename).map (·.line) = [0, 1] ∧
      (contribution (linesOf Twain.source) [Twain.rename] Twain.insert).map (·.line) = [3] ∧
      ∃ both first second, (apply Twain.source [Twain.rename, Twain.insert]).text = .ok both ∧
        (apply Twain.source [Twain.rename]).text = .ok first ∧ (apply first [Twain.insert]).text = .ok both ∧
        (apply Twain.source [Twain.insert]).text = .ok second ∧ (apply second [Twain.rename]).text = .ok both :=
  ⟨by decide +kernel, by decide +kernel, by decide +kernel, by decide +kernel,
    pass_eq_passes Twain.source Twain.differ (by decide +kernel) Twain.separate⟩

end Remedy.Patch.Component
