import Mathlib
import Remedy.Patch.Component
import Remedy.Proofs.Component.Lookup

/-!
Which attributes of a component's tag an edit sees.

Names are looked up in the raw text of a tag. For a tag that is written as attributes with blanks between them, the edit is
the one that the attributes call for, as long as nothing else in the tag looks like the name. A value in quotes may well do
so: then a part of it is taken for the attribute that is meant.
-/

namespace Remedy.Patch.Component

open Remedy.Component

/-! ### What the attributes call for -/

/-- The edit that the attributes of a tag call for: the value of a static one is replaced if that is asked for; one that is
there and has no such value is left alone; and one that is not there is inserted. -/
def editAmong (lines : List Line) (tag : OpenTag) (w : Written) (start : Spot) (name value : String) (overwrite : Bool) :
    Except SkipReason (Option LineEdit) :=
  match staticAmong name.toList (spotAfter start ('<' :: w.name)) w.tokens with
  | some (line, v) =>
    if overwrite then
      .ok (some { line, start := v.start, stop := v.stop
                  text := Text.escapeAttribute value (if v.quote == '"' then .double else .single)
                  claim := some (tag.line, tag.column, Text.lower name) })
    else .ok none
  | none =>
    if presentAmong name.toList w.tokens then
      if overwrite then .error (.boundDynamically name) else .ok none
    else .ok (some (insertAttribute lines tag name value))

/-! ### The search in the stretches of a tag -/

/-- The places in the stretches of a tag at which names may begin. -/
def tagPlaces (lines : List Line) (segments : List Segment) : List (Spot × List Char) :=
  segments.flatMap fun s => (nameStarts (lines.getD s.line []) s).map fun e => ((s.line, e.1), e.2)

theorem findSome?_stretches (lines : List Line) (segments : List Segment) (name : List Char) :
    (segments.findSome? fun s => (findStatic? name (lineAt lines s.line) s).map fun v => (s.line, v)) =
      firstStatic name (tagPlaces lines segments) := by
  induction segments with
  | nil => rfl
  | cons s rest ih =>
    have here : (findStatic? name (lineAt lines s.line) s).map (fun v => (s.line, v)) =
        firstStatic name ((nameStarts (lines.getD s.line []) s).map fun e => ((s.line, e.1), e.2)) := by
      rw [findStatic?, List.map_findSome?, firstStatic, List.findSome?_map]
      rfl
    have later : firstStatic name (tagPlaces lines (s :: rest)) =
        (firstStatic name ((nameStarts (lines.getD s.line []) s).map fun e => ((s.line, e.1), e.2))).or
          (firstStatic name (tagPlaces lines rest)) := by
      rw [tagPlaces, List.flatMap_cons, firstStatic, List.findSome?_append]
      rfl
    rw [List.findSome?_cons, here, ih, later]
    cases firstStatic name ((nameStarts (lines.getD s.line []) s).map fun e => ((s.line, e.1), e.2)) <;> rfl

theorem any_stretches (lines : List Line) (segments : List Segment) (name : List Char) :
    (segments.any fun s => hasAttribute name (lineAt lines s.line) s) = present name (tagPlaces lines segments) := by
  rw [present, tagPlaces, List.any_flatMap]
  congr 1
  funext s
  rw [hasAttribute, List.any_map]
  rfl

/-- **The attributes of a tag decide what an edit of it does, as long as nothing else in it looks like the name.** The value
that is replaced, if one is, is that of an attribute of the name, and stands where the edit puts another one. -/
theorem attributes_decide {lines : List Line} (plain : ∀ line ∈ lines, '\n' ∉ line) {number column : Nat} {tag : OpenTag}
    (found : scan lines number column = some tag) {w : Written} (proper : w.Proper) (text : tag.text lines = w.text)
    {name : String} (named : IsName name.toList) (clear : w.hides name.toList = false) (value : String) (overwrite : Bool) :
    attributeEdit lines tag name value overwrite = editAmong lines tag w (number, column) name value overwrite ∧
      ∀ line v, staticAmong name.toList (spotAfter (number, column) ('<' :: w.name)) w.tokens = some (line, v) →
        ∃ t ∈ w.tokens, t.name = name.toList ∧ ∃ a ∈ t.assigned, a.quote = some v.quote ∧
          between (lineAt lines line) v.start v.stop = a.value := by
  have plainAt (n : Nat) : '\n' ∉ lines.getD n [] := by
    rw [List.getD_eq_getElem?_getD]
    cases line : lines[n]? with
    | none => simp
    | some l => exact plain l (List.mem_of_getElem? line)
  have stretches := scan_stretches found
  have written : ['\n'].intercalate (tag.segments.map (·.text lines)) = w.text := text
  -- The search in one stretch after another is one along the text of the tag.
  have places : tagPlaces lines tag.segments =
      namesFrom ((lines.getD number []).take column).getLast? (number, column) w.text := by
    rw [← written]
    exact stretches.names_eq plainAt
  obtain ⟨static, held⟩ := search_tag named proper clear ((lines.getD number []).take column).getLast? (number, column)
  constructor
  · simp only [attributeEdit, findSome?_stretches, any_stretches, places, static, held]
    rfl
  · -- What is found stands where the tag does, at the same distance from its beginning.
    intro line v among
    have laid : Laid lines (number, column) ('<' :: w.name ++ (Component.written w.tokens ++ w.close)) := by
      have laid := stretches.laid plainAt
      rwa [written] at laid
    exact staticAmong_stands proper.tokens laid.append among

namespace Phrase

/-- A phrase whose tag takes two lines; its title ends in the name of an attribute. -/
def lines : List Line := ["<i title=\"my lang\"".toList, "  :class=c lang='fr'>".toList]

def tag : OpenTag := ⟨[⟨0, 0, 18⟩, ⟨1, 0, 21⟩], 1, 20, false⟩

def written : Written where
  name := ['i']
  tokens :=
    [⟨[' '], "title".toList, some ⟨[], [], some '"', "my lang".toList⟩⟩,
      ⟨"\n  ".toList, ":class".toList, some ⟨[], [], none, ['c']⟩⟩,
      ⟨[' '], "lang".toList, some ⟨[], [], some '\'', "fr".toList⟩⟩]
  blanks := []
  slash := false

theorem found : scan lines 0 0 = some tag := by cbv

theorem clear : written.hides "lang".toList = false := by cbv

end Phrase

/-- The language of a phrase is replaced where it stands, on the second line. -/
theorem language_replaced :
    attributeEdit Phrase.lines Phrase.tag "lang" "V" true = .ok (some ⟨1, 17, 19, "V", some (1, 20, "lang")⟩) ∧
      ∃ t ∈ Phrase.written.tokens, t.name = "lang".toList ∧ ∃ a ∈ t.assigned, a.quote = some '\'' ∧
        between (lineAt Phrase.lines 1) 17 19 = a.value := by
  have among : staticAmong "lang".toList (spotAfter (0, 0) ('<' :: Phrase.written.name)) Phrase.written.tokens =
      some (1, ⟨17, 19, '\''⟩) := by decide
  have lower : Text.lower "lang" = "lang" := by decide +kernel
  have escape : Text.escapeAttribute "V" .single = "V" := by cbv
  have called : editAmong Phrase.lines Phrase.tag Phrase.written (0, 0) "lang" "V" true =
      .ok (some ⟨1, 17, 19, "V", some (1, 20, "lang")⟩) := by
    simp only [editAmong, among, lower]
    simp [escape, Phrase.tag]
  obtain ⟨edit, value⟩ := attributes_decide (by decide) Phrase.found (by decide) (by decide) (by decide)
    Phrase.clear "V" true
  exact ⟨edit.trans called, value _ _ among⟩

namespace Quotation

/-- A link whose title quotes the attribute that it does not have. -/
def lines : List Line := ["<a title=\"q href='x' b\">".toList]

def tag : OpenTag := ⟨[⟨0, 0, 24⟩], 0, 23, false⟩

def written : Written :=
  ⟨['a'], [⟨[' '], "title".toList, some ⟨[], [], some '"', "q href='x' b".toList⟩⟩], [], false⟩

end Quotation

/-- What a title quotes is taken for the attribute, and overwritten inside of the title. -/
theorem quotation_overwritten :
    ¬ ∀ (lines : List Line) (number column : Nat) (tag : OpenTag) (w : Written) (name value : String) (overwrite : Bool),
      (∀ line ∈ lines, '\n' ∉ line) → scan lines number column = some tag → w.Proper → tag.text lines = w.text →
      IsName name.toList →
      attributeEdit lines tag name value overwrite = editAmong lines tag w (number, column) name value overwrite := by
  intro decided
  have same := decided Quotation.lines 0 0 Quotation.tag Quotation.written "href" "H" true (by decide) (by cbv)
    (by decide) (by decide) (by decide)
  have static : (Quotation.tag.segments.findSome? fun s =>
      (findStatic? "href".toList (lineAt Quotation.lines s.line) s).map fun v => (s.line, v)) =
        some (0, ⟨18, 19, '\''⟩) := by cbv
  have inside : attributeEdit Quotation.lines Quotation.tag "href" "H" true =
      .ok (some ⟨0, 18, 19, Text.escapeAttribute "H" .single, some (0, 23, Text.lower "href")⟩) := by
    simp only [attributeEdit, static]
    rfl
  have unfound : staticAmong "href".toList (spotAfter (0, 0) ('<' :: Quotation.written.name)) Quotation.written.tokens =
      none := by decide
  have absent : presentAmong "href".toList Quotation.written.tokens = false := by decide
  have behind : editAmong Quotation.lines Quotation.tag Quotation.written (0, 0) "href" "H" true =
      .ok (some (insertAttribute Quotation.lines Quotation.tag "href" "H")) := by
    simp only [editAmong, unfound, absent, Bool.false_eq_true, if_false]
  have edits := Option.some.inj (Except.ok.inj (inside.symm.trans (same.trans behind)))
  have start : (18 : Int) = 23 := congrArg LineEdit.start edits
  exact absurd start (by decide)

end Remedy.Patch.Component
