import Remedy.Proofs.Html.Lexed
import Remedy.Proofs.Patch.Independence
import Remedy.Proofs.Text.Escaping
import Remedy.Proofs.Text.Places

/-!
Attributes that a fix inserts into a tag of a page, and the attributes that the tag has.

A new attribute goes before the bracket, and before the slash if one stands there. A slash that is the end of an unquoted
value stands there too: then the attribute is put inside of that value. In every other well lexed tag it comes last, and
what the tag had is read as before.
-/

namespace Remedy.Patch.Html

open Text (Bytes encode isBlankByte IsBoundary)
open Remedy.Html (Lexed Reader attributes bracketPlace findAttribute? isNameByte not_mem_of_findAttribute? readAttributes
  readAttributes_eq reads)

/-! ### The place of a new attribute -/

/-- All attributes of a tag end before its bracket. -/
def Bracketed (tag : Node) : Prop := ∀ a ∈ attributes tag, a.stop ≤ bracketPlace tag

/-- The slash before the bracket of a start tag belongs to the value of an attribute. -/
def OwnsSlash (source : Bytes) (tag : Node) : Prop :=
  tag.kind ≠ "self_closing_tag" ∧ byteAt? source (tag.stop - 2) = some 0x2F ∧
    ∃ a ∈ attributes tag, a.stop = tag.stop - 1 ∧ a.start + 1 < a.stop

/-- A new attribute would stand inside of one that the tag has. -/
def Splits (source : Bytes) (tag : Node) (name value : String) : Prop :=
  ∃ a ∈ attributes tag, a.start < (insertAttribute source tag name value).start ∧
    (insertAttribute source tag name value).start < a.stop

section

variable {source : Bytes} {tag : Node}

theorem insertAttribute_self (closing : (tag.kind == "self_closing_tag") = true) (name value : String) :
    insertAttribute source tag name value =
      if 0 < bracketPlace tag ∧ ∃ b, source[bracketPlace tag - 1]? = some b ∧ isBlankByte b = true then
        ⟨bracketPlace tag, bracketPlace tag, rendered name value ++ " "⟩
      else ⟨bracketPlace tag, bracketPlace tag, " " ++ rendered name value⟩ := by
  have place : tag.stop - 1 - 1 = bracketPlace tag := by rw [bracketPlace, closing]; rfl
  have parted : ((byteAt? source (bracketPlace tag - 1)).map isBlankByte).getD false = true ↔
      ∃ b, source[bracketPlace tag - 1]? = some b ∧ isBlankByte b = true := by
    rw [byteAt?]
    cases source[bracketPlace tag - 1]? <;> simp
  simp only [insertAttribute, closing, Bool.true_or, if_true, place, Bool.and_eq_true, decide_eq_true_eq, parted]

theorem start_insertAttribute_slash (opening : (tag.kind == "self_closing_tag") = false) (more : 1 < tag.stop)
    (slash : byteAt? source (tag.stop - 2) = some 0x2F) (name value : String) :
    (insertAttribute source tag name value).start = tag.stop - 2 := by
  have slash : byteAt? source (tag.stop - 1 - 1) = some 0x2F := slash
  have inside : 0 < tag.stop - 1 := by omega
  simp only [insertAttribute, opening, inside, slash, decide_true, beq_self_eq_true, Bool.and_true, Bool.or_true, if_true]
  split <;> rfl

theorem insertAttribute_plain (opening : (tag.kind == "self_closing_tag") = false)
    (plain : tag.stop ≤ 1 ∨ byteAt? source (tag.stop - 2) ≠ some 0x2F) (name value : String) :
    insertAttribute source tag name value = ⟨bracketPlace tag, bracketPlace tag, " " ++ rendered name value⟩ := by
  have unslashed : (decide (0 < tag.stop - 1) && byteAt? source (tag.stop - 1 - 1) == some 0x2F) = false := by
    rcases plain with short | other
    · rw [decide_eq_false (by omega), Bool.false_and]
    · rw [Bool.and_eq_false_iff, beq_eq_false_iff_ne]
      exact Or.inr other
  simp only [insertAttribute, opening, unslashed, bracketPlace, Bool.or_false, Bool.false_eq_true, if_false]

/-- **A new attribute is put inside of another one exactly where a slash before the bracket belongs to that one.** -/
theorem splits_iff (bracketed : Bracketed tag) (name value : String) :
    Splits source tag name value ↔ OwnsSlash source tag := by
  rw [Splits]
  cases kind : tag.kind == "self_closing_tag" with
  | true =>
    have place : (insertAttribute source tag name value).start = bracketPlace tag := by
      rw [insertAttribute_self kind]
      split <;> rfl
    rw [place]
    constructor
    · rintro ⟨a, ha, _, after⟩
      have := bracketed a ha
      omega
    · rintro ⟨other, _⟩
      exact absurd (beq_iff_eq.mp kind) other
  | false =>
    have place : bracketPlace tag = tag.stop - 1 := by rw [bracketPlace, kind]; rfl
    -- The byte before the bracket decides, whatever it belongs to.
    by_cases slash : 1 < tag.stop ∧ byteAt? source (tag.stop - 2) = some 0x2F
    · rw [start_insertAttribute_slash kind slash.1 slash.2]
      constructor
      · rintro ⟨a, ha, before, after⟩
        have := bracketed a ha
        exact ⟨by simpa using kind, slash.2, a, ha, by omega, by omega⟩
      · rintro ⟨_, _, a, ha, stop, inside⟩
        exact ⟨a, ha, by omega, by omega⟩
    · have plain : tag.stop ≤ 1 ∨ byteAt? source (tag.stop - 2) ≠ some 0x2F := by
        by_cases short : tag.stop ≤ 1
        · exact Or.inl short
        · exact Or.inr fun same => slash ⟨by omega, same⟩
      rw [insertAttribute_plain kind plain]
      constructor
      · rintro ⟨a, ha, before, after⟩
        have := bracketed a ha
        simp only at after
        omega
      · rintro ⟨_, same, a, ha, stop, inside⟩
        exact absurd ⟨by omega, same⟩ slash

end

/-! ### What is written -/

theorem encode_rendered (name value : String) : encode (rendered name value).toList =
    Remedy.Html.written (encode name.toList) (encode (Text.escapeAttribute value .double).toList) := by
  simp only [rendered, String.toList_append, Text.encode_append, Remedy.Html.written, List.append_assoc]
  rfl

/-- The byte of a quote is in no value that is escaped for it. -/
theorem quote_not_mem_escaped (value : String) (quote : Text.Quote) :
    quote.char.toUInt8 ∉ encode (Text.escapeAttribute value quote).toList := by
  intro member
  have inside := Text.mem_of_mem_encode member (by cases quote <;> decide)
  exact Text.quote_not_mem_escapeAttribute value quote (by cases quote <;> exact inside)

/-- In a well lexed tag whose bracket has its slash to itself, a new attribute goes before the bracket, with a blank where
one is needed. -/
theorem insertAttribute_cases {source : Bytes} {tag : Node} (h : Lexed source tag) (own : ¬ OwnsSlash source tag)
    (name value : String) :
    ∃ lead trail : String,
      insertAttribute source tag name value = ⟨bracketPlace tag, bracketPlace tag, lead ++ rendered name value ++ trail⟩ ∧
      (∀ b ∈ encode lead.toList ++ encode trail.toList, isBlankByte b = true) ∧
      (encode lead.toList ≠ [] ∨ ∃ b, source[bracketPlace tag - 1]? = some b ∧ isBlankByte b = true) := by
  have blank : ∀ b ∈ [(0x20 : UInt8)], isBlankByte b = true := by simp [isBlankByte]
  have before (more : Prop) : (∀ b ∈ encode " ".toList ++ encode "".toList, isBlankByte b = true) ∧
      (encode " ".toList ≠ [] ∨ more) := ⟨blank, Or.inl (by decide)⟩
  cases kind : tag.kind == "self_closing_tag" with
  | true =>
    rw [insertAttribute_self kind]
    split
    · next parted => exact ⟨"", " ", by rw [String.empty_append], blank, Or.inr parted.2⟩
    · exact ⟨" ", "", by rw [String.append_empty], before _⟩
  | false =>
    have place : bracketPlace tag = tag.stop - 1 := by rw [bracketPlace, kind]; rfl
    have plain : byteAt? source (tag.stop - 2) ≠ some 0x2F := by
      intro slash
      obtain ⟨a, ha, stop, more⟩ := h.slash_owned (by rw [place]; exact slash)
      exact own ⟨by simpa using kind, slash, a, ha, stop.trans place, more⟩
    exact ⟨" ", "", by rw [insertAttribute_plain kind (Or.inr plain), String.append_empty], before _⟩

theorem applyTo_inserted (source : Bytes) (place : Nat) (lead trail name value : String) :
    (⟨place, place, lead ++ rendered name value ++ trail⟩ : Replacement).applyTo source =
      source.take place ++ ((encode lead.toList ++ (Remedy.Html.written (encode name.toList)
        (encode (Text.escapeAttribute value .double).toList) ++ encode trail.toList)) ++ source.drop place) := by
  simp only [Replacement.applyTo, String.toList_append, Text.encode_append, encode_rendered, List.append_assoc]

/-! ### What is read afterwards -/

/-- One replacement between places where characters begin makes a text. -/
theorem finish_replacement {source : String} {r : Replacement} (first : IsBoundary source.toList r.start)
    (last : IsBoundary source.toList r.stop) (claims : List (Nat × String)) :
    ∃ out, finish source (encode source.toList) ⟨[r], claims⟩ = .ok out ∧
      encode out.toList = r.applyTo (encode source.toList) := by
  obtain ⟨before, rest, split, length⟩ := first
  obtain ⟨after, drop⟩ := last.drop_eq_encode
  have take : (encode source.toList).take r.start = encode before := by
    rw [split, Text.encode_append, ← length, List.take_left]
  have spliced : spliceBytes (encode source.toList) [r] = encode (before ++ (r.content.toList ++ after)) := by
    simp [spliceBytes, Replacement.applyTo, take, drop]
  refine ⟨String.ofList (before ++ (r.content.toList ++ after)), ?_, ?_⟩
  · simp only [finish, List.isEmpty_cons, Bool.false_eq_true, if_false, spliced, Text.decode?_encode]
  · rw [Replacement.applyTo, take, drop, String.toList_ofList, Text.encode_append, Text.encode_append, List.append_assoc]

/-- Where the bracket of a well lexed tag begins, a character does. -/
theorem boundary_bracket {cs : List Char} {tag : Node} (h : Lexed (encode cs) tag) : IsBoundary cs (bracketPlace tag) := by
  obtain ⟨b, byte, which⟩ := h.begins_bracket
  refine .of_byte byte ?_
  rcases which with rfl | rfl <;> decide

section

variable {source : String} {root element tag : Node} {lookup : Lookup} {f : Fix} {place : Position}
  {notices : List Notice} {overwrite : Bool} {name value : String}

/-- A pass with one fix that sets an attribute comes to the one edit that sets it. -/
theorem planOf_setAttribute (target : targetOf lookup f = .ok (some place, notices))
    (found : elementAt? (encode source.toList) (targets root) place = some element) (opened : opening? element = some tag)
    (closed : byteAt? (encode source.toList) (tag.stop - 1) = some 0x3E)
    (change : f.change? = some (.setAttribute overwrite name value)) :
    ∃ claims, planOf source root lookup [f] = .ok ⟨[setAttribute (encode source.toList) tag name value], claims⟩ := by
  let q : Proposal := ⟨tag.start, [], [(name, value)], setAttribute (encode source.toList) tag⟩
  -- The fix proposes one attribute, which nothing claims yet, in a batch that meets no other.
  have proposed : proposal? (encode source.toList) f element = some q := by
    simp only [proposal?, opened, change, closed, bne_self_eq_false, Bool.false_eq_true, if_false]
    rfl
  have read : reading (encode source.toList) (targets root) lookup f = .ok (some q) := by
    rw [reading, target]
    simp only [Except.map, Option.bind_some, found, proposed]
  have edits : (EditPlan.empty.consider q).edits = [setAttribute (encode source.toList) tag name value] := by
    rw [EditPlan.edits_consider_taken _ _ (by simp [EditPlan.conflicts, EditPlan.empty])]
    rfl
  rw [planOf_eq, Reading.pass_singleton, Reading.step_some _ read, ← edits]
  exact ⟨_, rfl⟩

/-- A new attribute is inserted. -/
theorem setAttribute_of_absent {source : Bytes} (absent : findAttribute? source tag name = none) (value : String) :
    setAttribute source tag name value = insertAttribute source tag name value := by
  simp only [setAttribute, absent]

/-- No fix sets an attribute without a name. -/
theorem name_ne_empty (change : f.change? = some (.setAttribute overwrite name value)) : name ≠ "" := by
  rintro rfl
  have impossible {p : Payload} {o : Bool} (set : Payload.change?.setAttribute? p o = some (.setAttribute overwrite "" value)) :
      False := by
    rw [Payload.change?.setAttribute?.eq_def] at set
    split at set
    · next name' _ _ _ =>
      split at set
      · cases set
      · next nonempty =>
        obtain ⟨_, rfl, _⟩ := Change.setAttribute.inj (Option.some.inj set)
        exact nonempty rfl
    · cases set
  rw [Fix.change?, Payload.change?.eq_def] at change
  split at change
  · exact impossible change
  · exact impossible change
  · split at change
    · split at change <;> cases change
    · cases change
  · split at change
    · split at change <;> cases change
    · cases change

end

/-! ### A title for a link -/

namespace Link

/-- A link to an unquoted address that ends at an offset, right before the bracket. -/
def tag (stop : Nat) : Node :=
  .mk "start_tag" true false false 0 (stop + 1) none
    [Retitled.leaf "tag_name" none 1 2,
     .mk "attribute" true false false 3 stop none
      [Retitled.leaf "attribute_name" none 3 7, Retitled.leaf "attribute_value" none 8 stop]]

def element (stop : Nat) : Node :=
  .mk "element" true false false 0 (stop + 6) none
    [tag stop,
     .mk "end_tag" true false false (stop + 2) (stop + 6) none [Retitled.leaf "tag_name" none (stop + 4) (stop + 5)]]

def page (stop : Nat) : Node := .mk "document" true false false 0 (stop + 6) none [element stop]

def plain : String := "<a href=x>t</a>"

/-- Here the address ends in a slash. -/
def slashed : String := "<a href=x/>t</a>"

def fix : Fix := Retitled.fixWith .addAttribute ⟨some "title", some "T", none, none, []⟩

/-- The tag of the patched text. -/
def titled : Node :=
  .mk "self_closing_tag" true false false 0 21 none
    [Retitled.leaf "tag_name" none 1 2,
     .mk "attribute" true false false 3 9 none
      [Retitled.leaf "attribute_name" none 3 7, Retitled.leaf "attribute_value" none 8 9],
     .mk "attribute" true false false 10 19 none
      [Retitled.leaf "attribute_name" none 10 15,
       .mk "quoted_attribute_value" true false false 16 19 none [Retitled.leaf "attribute_value" none 17 18]]]

theorem change : fix.change? = some (.setAttribute false "title" "T") := rfl

theorem names : ∀ b ∈ encode "title".toList, isNameByte b = true := by
  rw [show encode "title".toList = [0x74, 0x69, 0x74, 0x6C, 0x65] from rfl]
  simp [isNameByte, Remedy.Html.isValueByte, Remedy.Html.isQuoteByte, isBlankByte]

theorem target : targetOf Retitled.lookup fix = .ok (some ⟨1, 0⟩, []) := rfl

/-- A link whose tag is well lexed and has its address, but no title. -/
structure Bare (source : String) (stop : Nat) (address : String) : Prop where
  lexed : Lexed (encode source.toList) (tag stop)
  read : readAttributes (encode source.toList) (tag stop) true = [("href", address)]
  absent : findAttribute? (encode source.toList) (tag stop) "title" = none

instance (source : String) (stop : Nat) (address : String) : Decidable (Bare source stop address) :=
  decidable_of_iff (Lexed (encode source.toList) (tag stop) ∧
    readAttributes (encode source.toList) (tag stop) true = [("href", address)] ∧
    (findAttribute? (encode source.toList) (tag stop) "title").isNone = true) <| by
    rw [Option.isNone_iff_eq_none]
    exact ⟨fun ⟨lexed, read, absent⟩ => ⟨lexed, read, absent⟩, fun bare => ⟨bare.lexed, bare.read, bare.absent⟩⟩

theorem bare_plain : Bare plain 9 "x" := by decide +kernel

theorem bare_slashed : Bare slashed 10 "x/" := by decide +kernel

theorem found_plain : elementAt? (encode plain.toList) (targets (page 9)) ⟨1, 0⟩ = some (element 9) := by rfl

theorem found_slashed : elementAt? (encode slashed.toList) (targets (page 10)) ⟨1, 0⟩ = some (element 10) := by rfl

end Link

/-! ### The main result -/

section

variable {source : String} {root element tag : Node} {lookup : Lookup} {f : Fix} {place : Position}
  {notices : List Notice} {overwrite : Bool} {name value : String}

/-- **What a new attribute does to the others of its tag.** Its place is inside of one of them exactly if the slash before
the bracket of a start tag belongs to an unquoted value. If the tag is well lexed and this is not so, no attribute is split,
the text is patched, a tag still begins where it did, and all that it had is read with the values of before, followed by
what is new. -/
theorem insertion_spares_attributes (target : targetOf lookup f = .ok (some place, notices))
    (found : elementAt? (encode source.toList) (targets root) place = some element) (opened : opening? element = some tag)
    (change : f.change? = some (.setAttribute overwrite name value))
    (absent : findAttribute? (encode source.toList) tag name = none) :
    (Bracketed tag → (Splits (encode source.toList) tag name value ↔ OwnsSlash (encode source.toList) tag)) ∧
    (Lexed (encode source.toList) tag → (∀ b ∈ encode name.toList, isNameByte b = true) →
      ¬ OwnsSlash (encode source.toList) tag →
      ¬ Splits (encode source.toList) tag name value ∧ ∃ out, (applyTo source root lookup [f]).text = .ok out ∧
        (∃ stop, (Reader.run (encode out.toList) tag.start).phase = .done stop (tag.kind == "self_closing_tag")) ∧
        ∀ tag' : Node, tag'.start = tag.start → Lexed (encode out.toList) tag' →
          readAttributes (encode out.toList) tag' true = readAttributes (encode source.toList) tag true ++
            [(Text.lower name, Text.unescape (Text.escapeAttribute value .double))]) := by
  refine ⟨fun bracketed => splits_iff bracketed name value, fun lexed names own => ?_⟩
  have nonempty : encode name.toList ≠ [] := fun nothing =>
    name_ne_empty change (String.toList_eq_nil_iff.mp (Text.encode_eq_nil nothing))
  -- What is inserted is an attribute between blanks, and the text is cut where its bracket begins.
  obtain ⟨lead, trail, inserted, blank, apart⟩ := insertAttribute_cases lexed own name value
  obtain ⟨claims, planned⟩ := planOf_setAttribute target found opened lexed.bracket change
  rw [setAttribute_of_absent absent, inserted] at planned
  obtain ⟨out, text, bytes⟩ := finish_replacement
    (r := ⟨bracketPlace tag, bracketPlace tag, lead ++ rendered name value ++ trail⟩) (boundary_bracket lexed)
    (boundary_bracket lexed) claims
  rw [applyTo_inserted] at bytes
  obtain ⟨still, new⟩ := lexed.reads_insert blank apart names nonempty (quote_not_mem_escaped value .double)
  rw [← bytes] at still new
  refine ⟨(splits_iff lexed.stop_le_bracketPlace name value).not.mpr own, out, ?_, still, fun tag' start lexed' => ?_⟩
  · rw [text_applyTo, planned]
    exact text
  · -- No attribute of before has the name, so the new one comes last.
    rw [readAttributes_eq, new tag' start lexed', List.foldl_append, ← readAttributes_eq, String.ofList_toList,
      String.ofList_toList]
    refine Json.put_of_ne (fun kv member => ?_) _
    rw [readAttributes_eq] at member
    rcases Json.mem_foldl_put member with old | nothing
    · exact not_mem_of_findAttribute? absent kv old
    · cases nothing

end

/-- A link gets its title behind an address that ends in no slash. -/
theorem title_after_address :
    ∃ out, (applyTo Link.plain (Link.page 9) Retitled.lookup [Link.fix]).text = .ok out ∧
      ∀ tag' : Node, tag'.start = 0 → Lexed (encode out.toList) tag' →
        readAttributes (encode out.toList) tag' true = [("href", "x"), ("title", "T")] := by
  have own : ¬ OwnsSlash (encode Link.plain.toList) (Link.tag 9) := fun ⟨_, slash, _⟩ => absurd slash (by decide)
  have shown : Text.unescape (Text.escapeAttribute "T" .double) = "T" := by cbv
  obtain ⟨_, out, text, _, read⟩ := (insertion_spares_attributes Link.target Link.found_plain rfl
    Link.change Link.bare_plain.absent).2 Link.bare_plain.lexed Link.names own
  refine ⟨out, text, fun tag' start lexed => ?_⟩
  rw [read tag' start lexed, Link.bare_plain.read, Retitled.title_lower, shown]
  rfl

/-- Behind an address that ends in a slash, the title takes the slash for that of the bracket: the address loses it. -/
theorem address_loses_slash :
    ¬ ∀ (source : String) (root element tag : Node) (lookup : Lookup) (f : Fix) (place : Position) (notices : List Notice)
      (overwrite : Bool) (name value : String),
      targetOf lookup f = .ok (some place, notices) →
      elementAt? (encode source.toList) (targets root) place = some element → opening? element = some tag →
      f.change? = some (.setAttribute overwrite name value) → findAttribute? (encode source.toList) tag name = none →
      Lexed (encode source.toList) tag → (∀ b ∈ encode name.toList, isNameByte b = true) →
      ¬ Splits (encode source.toList) tag name value ∧
        ∃ out, (applyTo source root lookup [f]).text = .ok out ∧
          ∀ tag' : Node, tag'.start = tag.start → Lexed (encode out.toList) tag' →
            ∀ kv ∈ readAttributes (encode source.toList) tag true, kv ∈ readAttributes (encode out.toList) tag' true := by
  intro spared
  obtain ⟨_, out, text, kept⟩ := spared Link.slashed (Link.page 10) (Link.element 10) (Link.tag 10) Retitled.lookup Link.fix
    _ _ _ "title" "T" Link.target Link.found_slashed rfl Link.change Link.bare_slashed.absent Link.bare_slashed.lexed Link.names
  obtain ⟨claims, planned⟩ := planOf_setAttribute Link.target Link.found_slashed rfl
    Link.bare_slashed.lexed.bracket Link.change
  rw [setAttribute_of_absent Link.bare_slashed.absent] at planned
  have written : finish Link.slashed (encode Link.slashed.toList)
      ⟨[insertAttribute (encode Link.slashed.toList) (Link.tag 10) "title" "T"], claims⟩ =
        .ok "<a href=x title=\"T\"/>t</a>" := by cbv
  rw [text_applyTo, planned] at text
  obtain rfl := Except.ok.inj (written.symm.trans text)
  have lexed : Lexed (encode "<a href=x title=\"T\"/>t</a>".toList) Link.titled := by decide +kernel
  have read : readAttributes (encode "<a href=x title=\"T\"/>t</a>".toList) Link.titled true =
      [("href", "x"), ("title", "T")] := by decide +kernel
  have lost := kept Link.titled rfl lexed ("href", "x/") (by rw [Link.bare_slashed.read]; exact List.mem_singleton_self _)
  rw [read] at lost
  exact absurd lost (by decide)

end Remedy.Patch.Html
