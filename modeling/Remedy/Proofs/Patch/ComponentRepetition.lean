import Mathlib.Data.List.Basic
import Remedy.Proofs.Component.Scanning
import Remedy.Proofs.Component.Tokens
import Remedy.Proofs.Patch.ComponentAttributes
import Remedy.Proofs.Patch.ComponentPlacement
import Remedy.Proofs.Patch.ComponentSequence
import Remedy.Proofs.Text.Escaping

/-!
Adding an attribute once more changes nothing.

Where a tag takes a new attribute, no quote is open. What is written there closes its own quotes, whatever its value, so the tag
still begins and ends where it did; and its name stands behind a blank and before an equals sign, where it is seen.
-/

namespace Remedy.Component

open Markup (IsInside isPlain quoteAfter?)
open Text (isBlank)

section

variable {name : List Char}

/-- A name may begin behind any character that joins none. -/
theorem mem_namesFrom {previous : Option Char} {xs : List Char} (free : (behindAll previous xs).any joinsName = false)
    (p : Spot) (ys : List Char) : (spotAfter p xs, lineRest ys) ∈ namesFrom previous p (xs ++ ys) := by
  induction xs generalizing previous p with
  | nil =>
    have free : previous.any joinsName = false := free
    cases ys with
    | nil => simp [namesFrom, free, spotAfter, lineRest]
    | cons c ys => simp [namesFrom, free, spotAfter]
  | cons c xs ih =>
    rw [List.cons_append, namesFrom]
    have later : (behindAll (behind c) xs).any joinsName = false := free
    exact List.mem_append_right _ (ih later (stepSpot p c))

/-- An attribute is seen behind a blank and before an equals sign, whatever else is in its tag. -/
theorem present_of_spelled (named : IsName name) {b : Char} (blank : isBlank b = true) (previous : Option Char) (p : Spot)
    (front rest : List Char) : present name (namesFrom previous p ((front ++ [b]) ++ (name ++ '=' :: rest))) = true := by
  have free : (behindAll previous (front ++ [b])).any joinsName = false := by
    rw [behindAll, List.foldl_append, List.foldl_cons, List.foldl_nil]
    exact behind_free (joinsName_of_isBlank blank)
  have word : headWord (name ++ '=' :: rest) = name := headWord_of_isNamePart named.2 (headWord_cons_of_ends (by decide) _)
  rw [present, List.any_eq_true]
  refine ⟨_, mem_namesFrom free p _, ?_⟩
  rw [isAttributeAt_eq named, headWord_lineRest, word]
  simp [spellings]

theorem isPlain_of_isNamePart {c : Char} (h : isNamePart c = true) : isPlain c = true := by
  simp only [isNamePart, Bool.not_eq_true', Bool.or_eq_false_iff, List.contains_eq_mem, decide_eq_false_iff_not, List.mem_cons,
    not_or] at h
  simp [isPlain, h]

end

end Remedy.Component

namespace Remedy.Patch.Component

open Remedy.Component
open Markup (IsInside isPlain quoteAfter?)
open Text (isBlank)

/-! ### What is written -/

section

variable {lines : List Line} {tag : OpenTag} {name value : String}

/-- What is found with a value is seen. -/
theorem present_of_firstStatic (named : IsName name.toList) {places : List (Spot × List Char)} {v : Nat × QuotedValue}
    (h : firstStatic name.toList places = some v) : present name.toList places = true := by
  obtain ⟨e, member, found⟩ := List.exists_of_findSome?_eq_some h
  obtain ⟨w, static, _⟩ := Option.map_eq_some_iff.mp found
  rw [present, List.any_eq_true]
  refine ⟨e, member, ?_⟩
  rw [isAttributeAt_eq named, headWord_of_staticValue? named static]
  simp [spellings]

/-- An attribute is left alone where it is seen, and inserted where it is not. -/
theorem attributeEdit_eq (named : IsName name.toList) (lines : List Line) (tag : OpenTag) (value : String) :
    attributeEdit lines tag name value false =
      .ok (if present name.toList (tagPlaces lines tag.segments) then none else some (insertAttribute lines tag name value)) := by
  simp only [attributeEdit, findSome?_stretches, any_stretches, Bool.false_eq_true, if_false]
  cases found : firstStatic name.toList (tagPlaces lines tag.segments) with
  | none => cases present name.toList (tagPlaces lines tag.segments) <;> rfl
  | some v =>
    rw [present_of_firstStatic named found]
    rfl

/-- An attribute as it is written. -/
def rendered (name value : String) : List Char :=
  name.toList ++ '=' :: ('"' :: ((Text.escapeAttribute value .double).toList ++ ['"']))

/-- A new attribute stands behind a blank that it brings along, or before one and behind a blank of the tag. -/
theorem insertAttribute_text (lines : List Line) (tag : OpenTag) (name value : String) :
    (insertAttribute lines tag name value).text.toList = ' ' :: rendered name value ∨
      (insertAttribute lines tag name value).text.toList = rendered name value ++ [' '] ∧ 0 < tag.column ∧
        ∃ b, (lineAt lines tag.line)[(tag.column - 1).toNat]? = some b ∧ isBlank b = true := by
  have written : (name ++ "=\"" ++ Text.escapeAttribute value .double ++ "\"").toList = rendered name value := by
    simp [rendered, String.toList_append]
  simp only [insertAttribute]
  split
  next spaced =>
    right
    simp only [Bool.and_eq_true, decide_eq_true_eq, Option.any_eq_true] at spaced
    refine ⟨?_, spaced.2.1, ?_⟩
    · rw [String.toList_append, written]
      rfl
    · obtain ⟨b, stands, blank⟩ := spaced.2.2
      exact ⟨b, stands, blank⟩
  next =>
    left
    rw [String.toList_append, written]
    rfl

/-- What is written leaves no quote open. -/
theorem quoteAfter?_rendered (named : IsName name.toList) (value : String) :
    quoteAfter? none (rendered name value) = some none := by
  have front : quoteAfter? none name.toList = some none :=
    Markup.quoteAfter?_plain Markup.isMarks_none fun c member => isPlain_of_isNamePart (named.2 c member)
  have sign : quoteAfter? none ['='] = some none := Markup.quoteAfter?_plain Markup.isMarks_none (by simp [isPlain])
  have quoted := Markup.quoteAfter?_quoted (Text.quote_not_mem_escapeAttribute value .double)
  rw [rendered, Markup.quoteAfter?_append, front, Option.bind_some, ← List.singleton_append, Markup.quoteAfter?_append, sign,
    Option.bind_some, quoted]

/-! ### The tag with the attribute in it -/

variable {front inside body tail : List Char}

/-- What stands right before a column. -/
theorem getLast?_of_cutsAt {i : Nat} {c : Int} {back : List Char} (cut : CutsAt lines i c front back) (positive : 0 < c)
    {b : Char} (stands : (lines.getD i [])[(c - 1).toNat]? = some b) : front.getLast? = some b := by
  have before : c.toNat ≠ 0 := by omega
  have index : (c - 1).toNat = c.toNat - 1 := by omega
  rw [index] at stands
  rw [← cut.front, beforeColumn, List.getLast?_append, List.getLast?_take, if_neg before, stands, Option.some_or, Option.some_or]

/-- What ends a tag is plain. -/
theorem quoteAfter?_slash {quote : Option Char} (marks : Markup.IsMarks quote) : quoteAfter? quote tag.slash = some quote := by
  apply Markup.quoteAfter?_plain marks
  rw [OpenTag.slash]
  split <;> simp [isPlain]

/-- Before it no quote is open, so something else may stand there. -/
theorem isInside_insert (closed : IsInside (body ++ tag.slash)) {text : List Char} (whole : quoteAfter? none text = some none) :
    IsInside (body ++ (text ++ tag.slash)) := by
  rw [IsInside, Markup.quoteAfter?_append] at closed
  obtain ⟨quote, passed, closed⟩ := Option.bind_eq_some_iff.mp closed
  -- Nothing between the place and the bracket closes a quote, so none is open at the place.
  rw [quoteAfter?_slash (Markup.isMarks_none.behind passed)] at closed
  obtain rfl := Option.some.inj closed
  rw [IsInside, Markup.quoteAfter?_append, passed, Option.bind_some, Markup.quoteAfter?_append, whole, Option.bind_some,
    quoteAfter?_slash Markup.isMarks_none]

/-- **A tag with a new attribute in it ends where it did**, and there the attribute is seen. -/
theorem insertAttribute_covers (covers : tag.Covers lines front ('<' :: inside) tail) (closed : IsInside inside)
    (named : IsName name.toList) (value : String) :
    ∃ inside', IsInside inside' ∧
      textOfLines ((insertAttribute lines tag name value).applyTo lines) = front ++ '<' :: (inside' ++ '>' :: tail) ∧
        ∃ before b after, isBlank b = true ∧ '<' :: inside' = (before ++ [b]) ++ (name.toList ++ '=' :: after) := by
  obtain ⟨body, split, cut⟩ := covers.place
  obtain ⟨body, rfl⟩ : ∃ rest, body = '<' :: rest := by
    cases body with
    | nil =>
      rw [List.nil_append, OpenTag.slash] at split
      split at split <;> simp at split
    | cons c rest => exact ⟨rest, by rw [(List.cons.inj split).1]⟩
  obtain rfl := (List.cons.inj split).2
  have inRange : (insertAttribute lines tag name value).InRange lines := ⟨cut.column, cut.column, Int.le_refl _⟩
  have text := inRange.textOfLines_applyTo
  have quotes := quoteAfter?_rendered named value
  have space : quoteAfter? none [' '] = some none := Markup.quoteAfter?_plain Markup.isMarks_none (by simp [isPlain])
  -- The place of the edit is that of the tag, on both sides.
  have back : fromColumn lines (insertAttribute lines tag name value).line (insertAttribute lines tag name value).stop =
    tag.slash ++ '>' :: tail := cut.back
  have before : beforeColumn lines (insertAttribute lines tag name value).line (insertAttribute lines tag name value).start =
    front ++ '<' :: body := cut.front
  rw [before, back] at text
  let quoted : List Char := '"' :: ((Text.escapeAttribute value .double).toList ++ ['"'])
  -- The blank before the name is one that is written, or the one that stands before the place.
  rcases insertAttribute_text lines tag name value with written | ⟨written, positive, b, stands, blank⟩
  · have whole : quoteAfter? none (' ' :: rendered name value) = some none := by
      rw [← List.singleton_append, Markup.quoteAfter?_append, space, Option.bind_some, quotes]
    refine ⟨_, isInside_insert closed whole, by rw [text, written]; simp, '<' :: body, ' ', quoted ++ tag.slash, by decide, ?_⟩
    simp [rendered, quoted]
  · have whole : quoteAfter? none (rendered name value ++ [' ']) = some none := by
      rw [Markup.quoteAfter?_append, quotes, Option.bind_some, space]
    have last := getLast?_of_cutsAt cut positive stands
    rw [List.getLast?_append, List.getLast?_cons, Option.some_or, ← List.getLast?_cons] at last
    obtain ⟨front', same⟩ := List.getLast?_eq_some_iff.mp last
    refine ⟨_, isInside_insert closed whole, by rw [text, written]; simp, front', b, quoted ++ ([' '] ++ tag.slash), blank, ?_⟩
    rw [← List.cons_append, same]
    simp [rendered, quoted]

end

/-! ### Once and once more -/

section

variable {source : String} {f : Fix} {l : Location} {index : Nat} {tag : OpenTag} {name value : String}

/-- What a fix does that adds an attribute to a tag: an edit of its own, or nothing. -/
theorem apply_of_attributeEdit (change : f.change? = some (.setAttribute false name value)) (location : f.location = some l)
    (onLine : lineIndex? (linesOf source) l.start = some index)
    (found : scan (linesOf source) index l.start.column = some tag) {edit : Option LineEdit}
    (made : attributeEdit (linesOf source) tag name value false = .ok edit) :
    apply source [f] = ⟨.ok (edit.elim source fun e => joinLines (e.applyTo (linesOf source))), []⟩ := by
  have planned : planFix (linesOf source) index l f = (edit.toList, []) := by
    rw [planFix, change]
    simp only [updateEdits, found, Option.some_or, made]
    cases edit <;> rfl
  -- In an empty plan, nothing is claimed and nothing overlaps.
  obtain ⟨claims, taken⟩ : ∃ claims, planOne (linesOf source) f .empty = (⟨edit.toList, claims⟩, []) := by
    simp only [planOne, location, onLine, planned]
    cases edit with
    | none => exact ⟨[], rfl⟩
    | some e =>
      refine ⟨e.claim.toList, ?_⟩
      cases claim : e.claim <;> simp [LinePlan.addFor, LinePlan.gather, LinePlan.empty, claim]
  have plan : planAll (linesOf source) [f] .empty = (⟨edit.toList, claims⟩, []) := by simp [planAll, taken]
  have single : Fix.distinct [f] = ([f], []) := rfl
  rw [linesOf] at plan
  simp only [apply, single, plan]
  cases edit with
  | none => rfl
  | some e => simp [LinePlan.apply, linesOf]

/-- **An attribute that was added is not added again.** Take a fix that adds an attribute, whose name has none of the characters
that end names, to a tag whose place is counted from the left and whose end is found. Applied to its own outcome, it changes
nothing, and there is nothing to say about it: whatever is in the source, and whatever the value is. For there the tag is found
again, and the attribute in it. -/
theorem add_attribute_idempotent (source : String) {f : Fix} {name value : String} {l : Location} {index : Nat}
    {tag : OpenTag} (change : f.change? = some (.setAttribute false name value)) (named : IsName name.toList)
    (location : f.location = some l) (onLine : lineIndex? (linesOf source) l.start = some index)
    (nonneg : 0 ≤ l.start.column) (found : scan (linesOf source) index l.start.column = some tag) :
    ∃ once, apply source [f] = ⟨.ok once, []⟩ ∧ apply once [f] = ⟨.ok once, []⟩ ∧
      ∃ tag', scan (linesOf once) index l.start.column = some tag' ∧
        (tag'.segments.any fun s => hasAttribute name.toList (lineAt (linesOf once) s.line) s) = true := by
  have first := attributeEdit_eq named (linesOf source) tag value
  cases seen : present name.toList (tagPlaces (linesOf source) tag.segments) with
  | true =>
    rw [seen, if_pos rfl] at first
    have same := apply_of_attributeEdit change location onLine found first
    refine ⟨source, same, same, tag, found, ?_⟩
    rw [any_stretches, seen]
  | false =>
    rw [seen, if_neg Bool.false_ne_true] at first
    obtain ⟨column, start⟩ := Int.eq_ofNat_of_zero_le nonneg
    rw [start] at found ⊢
    -- The tag is cut out of the source, and the attribute put into it.
    have plain {text : String} : ∀ line ∈ linesOf text, '\n' ∉ line := fun _ => Text.not_mem_of_mem_splitAtNewlines
    obtain ⟨inside, tail, closed, cut⟩ := inside_of_scan found
    obtain ⟨_, again, covers⟩ := scan_covers cut closed
    obtain rfl := Option.some.inj (found.symm.trans again)
    obtain ⟨inside', closed', text, before, b, after, blank, spelled⟩ := insertAttribute_covers covers closed named value
    let once := joinLines ((insertAttribute (linesOf source) tag name value).applyTo (linesOf source))
    have whole : once.toList = beforeColumn (linesOf source) index column ++ '<' :: (inside' ++ '>' :: tail) := by
      rw [← text]
      exact String.toList_ofList
    -- All before the tag is as it was, so the place of the fix is that of the tag still.
    have cut' : CutsAt (linesOf once) index column (beforeColumn (linesOf source) index column)
        ('<' :: (inside' ++ '>' :: tail)) := by
      rw [linesOf, whole]
      exact cut.behind_front plain _
    obtain ⟨tag', found', covers'⟩ := scan_covers cut' closed'
    have onLine' : lineIndex? (linesOf once) l.start = some index :=
      lineIndex?_eq_some_iff.mpr ⟨(lineIndex?_eq_some_iff.mp onLine).1, cut'.column.line_lt⟩
    have seen' : present name.toList (tagPlaces (linesOf once) tag'.segments) = true := by
      have places := (scan_stretches found').names_eq (not_mem_getD plain)
      have written : ['\n'].intercalate (tag'.segments.map (·.text (linesOf once))) = '<' :: inside' ++ ['>'] := covers'.text
      have split : before ++ [b] ++ (name.toList ++ '=' :: after) ++ ['>'] =
          (before ++ [b]) ++ (name.toList ++ '=' :: (after ++ ['>'])) := by simp
      rw [tagPlaces, places, written, spelled, split]
      exact present_of_spelled named blank _ _ before _
    have second := attributeEdit_eq named (linesOf once) tag' value
    rw [seen', if_pos rfl] at second
    refine ⟨once, apply_of_attributeEdit change location onLine (by rwa [start]) first, ?_, tag', found', ?_⟩
    · exact apply_of_attributeEdit change location onLine' (by rwa [start]) second
    · rw [any_stretches, seen']

end

namespace Caption

/-- A picture whose tag takes two lines and closes itself. -/
def source : String := "<p>\n  <img\n    src=\"a.png\" />\n</p>"

/-- A caption with quotes, brackets and line feeds, in which another one seems to stand. -/
def caption : String := "A \"map\"\n> alt=\"x\" />"

def fix : Fix where
  kind := .addAttribute
  selector := ""
  payload := ⟨some "alt", some caption, none, none, []⟩
  metadata := ⟨.null, none, none, some ⟨"a.vue", ⟨2, 2⟩, none⟩, []⟩

def tag : OpenTag := ⟨[⟨1, 2, 6⟩, ⟨2, 0, 18⟩], 2, 16, true⟩

theorem found : scan (linesOf source) 1 2 = some tag := by decide

def once : String := "<p>\n  <img\n    src=\"a.png\" alt=\"A &quot;map&quot;\n> alt=&quot;x&quot; />\" />\n</p>"

end Caption

/-- The caption takes the tag to a third line, and is not added again. -/
theorem caption_added_once :
    (apply Caption.source [Caption.fix]).text = .ok Caption.once ∧ apply Caption.once [Caption.fix] = ⟨.ok Caption.once, []⟩ := by
  obtain ⟨once, first, second, _⟩ :=
    add_attribute_idempotent Caption.source (f := Caption.fix) rfl (by decide) rfl (by decide) (by decide) Caption.found
  have named : IsName "alt".toList := by decide
  have made := attributeEdit_eq named (linesOf Caption.source) Caption.tag Caption.caption
  have unseen : present "alt".toList (tagPlaces (linesOf Caption.source) Caption.tag.segments) = false := by cbv
  rw [unseen, if_neg Bool.false_ne_true] at made
  have text := apply_of_attributeEdit (f := Caption.fix) rfl rfl (by decide) Caption.found made
  have same : joinLines ((insertAttribute (linesOf Caption.source) Caption.tag "alt" Caption.caption).applyTo
      (linesOf Caption.source)) = Caption.once := by decide +kernel
  rw [Option.elim_some, same] at text
  obtain rfl := Except.ok.inj (congrArg Patched.text (text.symm.trans first))
  exact ⟨by rw [first], second⟩

end Remedy.Patch.Component
