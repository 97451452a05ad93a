import Remedy.Proofs.Component.Bounds
import Remedy.Proofs.Html.Rewriting
import Remedy.Proofs.Patch.Insertion

/-!
Values that fixes give to attributes of pages and components. In whatever form an attribute stood, the value stands between
quotes that it is escaped for; and a well lexed tag of a page is read as before, but for that value.
-/

namespace Remedy

/-- A mark stands right before a place and right behind it. -/
def Patch.Enclosed {α : Type} (mark : α) (before behind : List α) : Prop :=
  before.getLast? = some mark ∧ behind.head? = some mark

namespace Patch.Html

open Text (Bytes encode Quote IsBoundary)
open Remedy.Html (AttributeSpan Composed Lexed Reader attributeName attributes bracketPlace findAttribute? isNameByte
  isQuoteByte isTagNameByte quotedText? readAttribute reads spanOf? valueNode? valueText?)
open Remedy.Html.Reader (Form IsName IsQuoted behind outset run step)

/-! ### Where a value is written -/

/-- A replacement writes a value, escaped for the quotes that it then stands between. -/
def Delimits (source : Bytes) (r : Replacement) (value : String) : Prop :=
  ∃ (quote : Quote) (lead trail : String), r.content = lead ++ Text.escapeAttribute value quote ++ trail ∧
    Enclosed quote.char.toUInt8 (source.take r.start ++ encode lead.toList) (encode trail.toList ++ source.drop r.stop)

/-- What becomes of a tag where a replacement gives one of its attributes a value: it is still a tag, and is read as before
but for the value. -/
structure Gives (cs : List Char) (tag : Node) (name value : String) (r : Replacement) : Prop where
  first : IsBoundary cs r.start
  last : IsBoundary cs r.stop
  delimits : Delimits (encode cs) r value
  done : ∃ stop, (run (r.applyTo (encode cs)) tag.start).phase = .done stop (tag.kind == "self_closing_tag")
  read : ∀ tag' : Node, tag'.start = tag.start → Lexed (r.applyTo (encode cs)) tag' →
    reads (r.applyTo (encode cs)) tag' = Json.put (reads (encode cs) tag) (Text.lower name) value

theorem delimits_rendered (source : Bytes) (name value : String) {r : Replacement} {lead trail : String}
    (content : r.content = lead ++ rendered name value ++ trail) : Delimits source r value := by
  refine ⟨.double, lead ++ name ++ "=\"", "\"" ++ trail, by simp [content, rendered, String.append_assoc], ?_, ?_⟩
  · have quote : encode (lead ++ name ++ "=\"").toList = encode (lead ++ name).toList ++ [0x3D] ++ [0x22] := by
      rw [String.toList_append, Text.encode_append, List.append_assoc]
      rfl
    rw [quote, ← List.append_assoc, List.getLast?_concat]
    rfl
  · have quote : encode ("\"" ++ trail).toList = 0x22 :: encode trail.toList := by
      rw [String.toList_append, Text.encode_append]
      rfl
    rw [quote]
    rfl

theorem encode_quoted (value : String) : encode ("\"" ++ Text.escapeAttribute value .double ++ "\"").toList =
    Quote.double.char.toUInt8 :: (encode (Text.escapeAttribute value .double).toList ++ [Quote.double.char.toUInt8]) := by
  have mark : encode "\"".toList = [Quote.double.char.toUInt8] := rfl
  rw [String.toList_append, String.toList_append, Text.encode_append, Text.encode_append, mark, List.append_assoc,
    List.singleton_append]

/-- A value with quotes of its own. -/
theorem delimits_quoted (source : Bytes) (start stop : Nat) (value : String) :
    Delimits source ⟨start, stop, "\"" ++ Text.escapeAttribute value .double ++ "\""⟩ value := by
  refine ⟨.double, "\"", "\"", rfl, ?_, rfl⟩
  have quote : encode "\"".toList = [0x22] := rfl
  rw [quote, List.getLast?_concat]
  rfl

theorem applyTo_middle {r : Replacement} (front middle rest : Bytes) (start : r.start = front.length)
    (stop : r.stop = front.length + middle.length) :
    r.applyTo (front ++ (middle ++ rest)) = front ++ (encode r.content.toList ++ rest) := by
  rw [Replacement.applyTo, start, stop, List.take_left, ← List.append_assoc front middle rest, ← List.length_append,
    List.drop_left, List.append_assoc]

/-! ### Attributes that the tag has -/

section

variable {cs : List Char} {tag a : Node} {name value : String} {r : Replacement} {front form back : Bytes}
  {before : List AttributeSpan} {s : AttributeSpan} {pre post : List Node}

/-- Where a byte of ASCII stands a character begins. -/
theorem boundary_of_byte {place : Nat} {b : UInt8} (byte : (encode cs)[place]? = some b) (ascii : b.toNat < 0x80) :
    IsBoundary cs place := .of_byte byte (Text.isContinuation_of_ascii ascii)

/-- The quotes of a value are known by its first byte. -/
theorem quoteOf_eq {source : Bytes} {v : Node} {quote : UInt8} {rest : Bytes} (isQuote : isQuoteByte quote = true)
    (text : v.textIn source = String.ofList (Text.decodeLossy (quote :: rest))) :
    (quoteOf source v).char.toUInt8 = quote := by
  have ascii := Remedy.Html.ascii_of_isQuoteByte isQuote
  rw [quoteOf, text, String.toList_ofList, Text.decodeLossy_ascii ascii]
  simp only [isQuoteByte, Bool.or_eq_true, beq_iff_eq] at isQuote
  rcases isQuote with rfl | rfl <;> rfl

/-- How an attribute of a name stands in the text of a tag: other bytes in its place that read as the same attribute with
some value leave the rest of the tag as it was. -/
structure Stands (cs : List Char) (tag a : Node) (name : String) (front form back : Bytes) (before : List AttributeSpan)
    (s : AttributeSpan) : Prop where
  named : Text.lower (attributeName (encode cs) a) = Text.lower name
  span : spanOf? a = some s
  split : encode cs = ((encode cs).take tag.start ++ front) ++ (form ++ back)
  inside : ((encode cs).take tag.start).length = tag.start
  form : Form (front.foldl step (outset tag.start)) before form back s
  gives : ∀ {new : Bytes} {form' : Bytes} {s' : AttributeSpan} {value : String},
    new = ((encode cs).take tag.start ++ front) ++ (form' ++ back) →
    form'.foldl step (front.foldl step (outset tag.start)) = behind before s' → s'.read new = (Text.lower name, value) →
      (∃ stop, (run new tag.start).phase = .done stop (tag.kind == "self_closing_tag")) ∧
        ∀ tag' : Node, tag'.start = tag.start → Lexed new tag' →
          reads new tag' = Json.put (reads (encode cs) tag) (Text.lower name) value

theorem exists_stands (h : Lexed (encode cs) tag) (found : findAttribute? (encode cs) tag name = some a) :
    ∃ front form back before s, Stands cs tag a name front form back before s := by
  obtain ⟨same, pre, post, split, first⟩ := List.find?_eq_some_iff_append.mp found
  have same : Text.lower (attributeName (encode cs) a) = Text.lower name := by simpa using same
  obtain ⟨front, form, back, before, s, span, bytes, form_, rewrite⟩ := h.exists_form split
  have whole : encode cs = ((encode cs).take tag.start ++ front) ++ (form ++ back) := by
    rw [List.append_assoc, ← bytes, List.take_append_drop]
  have inside : ((encode cs).take tag.start).length = tag.start := by
    obtain ⟨bracket, within, _⟩ := h.ends
    exact List.length_take_of_le (by omega)
  refine ⟨front, form, back, before, s, same, span, whole, inside, form_, ?_⟩
  intro new form' s' value new_eq written read
  rw [List.append_assoc] at new_eq
  subst new_eq
  obtain ⟨done, same_⟩ := rewrite form' s' written
  refine ⟨done, fun tag' start lexed' => ?_⟩
  -- The attribute is the first one of the name, so its value is the one that is put.
  have old : reads (encode cs) tag = pre.map (readAttribute (encode cs)) ++
      (Text.lower name, Remedy.Html.attributeValue (encode cs) a) :: post.map (readAttribute (encode cs)) := by
    rw [reads, split, List.map_append, List.map_cons, readAttribute, same]
  rw [same_ tag' start lexed', read, old, Json.put_middle]
  rintro kv member
  obtain ⟨b, hb, rfl⟩ := List.mem_map.mp member
  simpa [readAttribute] using first b hb

namespace Stands

variable (h : Stands cs tag a name front form back before s)

include h

theorem length : ((encode cs).take tag.start ++ front).length = tag.start + front.length := by
  rw [List.length_append, h.inside]

theorem getElem? (i : Nat) : (encode cs)[tag.start + front.length + i]? = (form ++ back)[i]? := by
  rw [h.split, List.getElem?_append_right (by rw [h.length]; omega), h.length, Nat.add_sub_cancel_left]

/-- Other bytes in place of those of the attribute. -/
theorem applyTo (start : r.start = tag.start + front.length) (stop : r.stop = tag.start + front.length + form.length) :
    r.applyTo (encode cs) = ((encode cs).take tag.start ++ front) ++ (encode r.content.toList ++ back) := by
  have made := applyTo_middle (r := r) ((encode cs).take tag.start ++ front) form back (by rw [h.length, start])
    (by rw [h.length, stop])
  rwa [← h.split] at made

/-- The text of a node that covers the bytes of the attribute. -/
theorem textIn {n : Node} (start : n.start = tag.start + front.length)
    (stop : n.stop = tag.start + front.length + form.length) : n.textIn (encode cs) = String.ofList (Text.decodeLossy form) := by
  have slice := Remedy.Html.sliceBytes_middle ((encode cs).take tag.start ++ front) form back
  rw [← h.split, h.length] at slice
  rw [Node.textIn, start, stop, slice]

/-- The byte before the attribute is the last that was read. -/
theorem last_read {d : UInt8} {more : Bytes} (read : front = more ++ [d]) :
    (encode cs)[tag.start + front.length - 1]? = some d := by
  have length : ((encode cs).take tag.start ++ more).length = tag.start + front.length - 1 := by
    rw [read, List.length_append, List.length_append, h.inside]
    rfl
  have split : encode cs = ((encode cs).take tag.start ++ more) ++ (d :: (form ++ back)) := by
    conv => lhs; rw [h.split, read]
    simp only [List.append_assoc, List.singleton_append]
  rw [split, List.getElem?_append_right (Nat.le_of_eq length), length, Nat.sub_self]
  rfl

/-- A character begins where the reader comes from a gap. -/
theorem boundary_start {g : Remedy.Html.Gap} (phase : (front.foldl step (outset tag.start)).phase = .between g) :
    IsBoundary cs (tag.start + front.length) := by
  rcases List.eq_nil_or_concat front with nothing | ⟨more, d, read⟩
  · rw [nothing] at phase
    cases phase
  · rw [List.concat_eq_append] at read
    rw [read, List.foldl_append] at phase
    have ascii := ((Remedy.Html.Reader.sound_outset tag.start).foldl more).ascii_of_between phase
    have boundary := IsBoundary.succ_of_ascii (h.last_read read) ascii
    rwa [Nat.sub_add_cancel (by rw [read, List.length_append, List.length_singleton]; omega)] at boundary

/-- A character begins behind the attribute, if the byte there is of ASCII. -/
theorem boundary_stop {b : UInt8} (next : b ∈ back.head?) (ascii : b.toNat < 0x80) :
    IsBoundary cs (tag.start + front.length + form.length) := by
  refine boundary_of_byte (b := b) ?_ ascii
  rw [h.getElem?, List.getElem?_append_right (Nat.le_refl _), Nat.sub_self, ← List.head?_eq_getElem?]
  exact next

/-- The name is read as it was, if it stands before the value. -/
theorem name_read {start stop : Nat} (name_ : s.name = (start, stop)) (within : stop ≤ tag.start + front.length) :
    Text.lower (AttributeSpan.textAt ((encode cs).take tag.start ++ front) (start, stop)) = Text.lower name := by
  have read : (s.read (encode cs)).1 = _ := congrArg Prod.fst (Remedy.Html.read_spanOf? h.span)
  rw [AttributeSpan.read, name_] at read
  have same : AttributeSpan.textAt (encode cs) (start, stop) =
      AttributeSpan.textAt ((encode cs).take tag.start ++ front) (start, stop) := by
    conv => lhs; rw [h.split]
    rw [AttributeSpan.textAt, AttributeSpan.textAt, Text.sliceBytes, Text.sliceBytes,
      List.take_append_of_le_length (by rw [h.length]; exact within)]
  rw [← same, ← h.named]
  exact read

omit h in
/-- The place of the reader where the attribute, or its value, begins. -/
theorem place (tag : Node) (front : Bytes) : (front.foldl step (outset tag.start)).place = tag.start + front.length :=
  Remedy.Html.Reader.place_foldl _ front

omit h in
/-- A name stands before its equals sign. -/
theorem name_le {start stop : Nat} (reached : front.foldl step (outset tag.start) =
    ⟨(front.foldl step (outset tag.start)).place, .between (.equals start stop), before⟩) :
    stop ≤ tag.start + front.length := by
  have sound := ((Remedy.Html.Reader.sound_outset tag.start).foldl front).phase
  rw [reached, place] at sound
  exact sound.2

/-- **A quoted value that is written behind an equals sign.** -/
theorem written_quoted (quote : Quote) (value : String) {start stop : Nat} {new : Bytes}
    (reached : front.foldl step (outset tag.start) =
      ⟨(front.foldl step (outset tag.start)).place, .between (.equals start stop), before⟩)
    (name_ : s.name = (start, stop))
    (new_eq : new = ((encode cs).take tag.start ++ front) ++ ((quote.char.toUInt8 ::
      (encode (Text.escapeAttribute value quote).toList ++ [quote.char.toUInt8])) ++ back)) :
    (∃ stop, (run new tag.start).phase = .done stop (tag.kind == "self_closing_tag")) ∧
      ∀ tag' : Node, tag'.start = tag.start → Lexed new tag' →
        reads new tag' = Json.put (reads (encode cs) tag) (Text.lower name) value := by
  have isQuoted : IsQuoted (front.foldl step (outset tag.start)) before start stop quote.char.toUInt8
      (encode (Text.escapeAttribute value quote).toList) :=
    ⟨reached, by cases quote <;> decide, quote_not_mem_escaped value quote⟩
  have within := name_le reached
  refine h.gives new_eq isQuoted.foldl ?_
  have read := AttributeSpan.read_quoted start ((encode cs).take tag.start ++ front) back
    (Nat.le_trans within (Nat.le_of_eq h.length.symm)) quote.char.toUInt8 (Text.escapeAttribute value quote).toList
  rw [h.length, h.name_read name_ within, String.ofList_toList, Text.unescape_escapeAttribute] at read
  rw [new_eq, place]
  exact read

/-- What the parts of a tree say of an attribute without a value. -/
theorem of_valueless (composed : Composed a) (valueless : valueNode? a = none) :
    IsName (front.foldl step (outset tag.start)) before form ∧ a.start = tag.start + front.length ∧
      a.stop = tag.start + front.length + form.length ∧ ∃ b ∈ back.head?, isNameByte b = false := by
  obtain ⟨n, named, span⟩ := Option.map_eq_some_iff.mp h.span
  simp only [Composed, named, valueless] at composed
  simp only [valueText?, valueless, Option.bind_none, Option.map_none] at span
  subst span
  cases h.form with
  | bare isName ends span =>
    rw [place, AttributeSpan.bare, AttributeSpan.mk.injEq] at span
    exact ⟨isName, span.1, span.2.1, ends⟩
  | unquoted isValue ends span => simp at span
  | quoted isQuoted span =>
    -- Behind its name an attribute without a value would go on with the quotes.
    have within := name_le isQuoted.reached
    rw [place, AttributeSpan.quoted, AttributeSpan.mk.injEq, Prod.mk.injEq] at span
    omega

/-- What they say of an attribute with an unquoted value. -/
theorem of_unquoted {v : Node} (composed : Composed a) (valued : valueNode? a = some v)
    (kind : v.kind ≠ "quoted_attribute_value") :
    ∃ start stop, Remedy.Html.Reader.IsValue (front.foldl step (outset tag.start)) before start stop form ∧
      s.name = (start, stop) ∧ v.start = tag.start + front.length ∧ v.stop = tag.start + front.length + form.length ∧
      ∃ b ∈ back.head?, Remedy.Html.isValueByte b = false := by
  obtain ⟨n, named, span⟩ := Option.map_eq_some_iff.mp h.span
  simp only [Composed, named, valued] at composed
  simp only [valueText?, valued, Option.bind_some, if_neg (beq_eq_false_iff_ne.mpr kind ▸ Bool.false_ne_true : ¬ _),
    Option.map_some] at span
  subst span
  cases h.form with
  | bare isName ends span => simp [AttributeSpan.bare] at span
  | unquoted isValue ends span =>
    rw [place, AttributeSpan.mk.injEq, Option.some.injEq, Prod.mk.injEq, Prod.mk.injEq] at span
    exact ⟨_, _, isValue, by rw [span.2.2.1.1, span.2.2.1.2], span.2.2.2.1, span.2.2.2.2, ends⟩
  | quoted isQuoted span =>
    -- Behind the value there would be a quote.
    rw [place, AttributeSpan.quoted, AttributeSpan.mk.injEq] at span
    obtain ⟨stop, _⟩ := composed
    split at span
    · simp at span
    · simp only [Option.some.injEq, Prod.mk.injEq] at span
      omega

/-- What they say of an attribute with a quoted value. -/
theorem of_quoted {v : Node} (composed : Composed a) (valued : valueNode? a = some v)
    (kind : v.kind = "quoted_attribute_value") :
    ∃ start stop quote text, IsQuoted (front.foldl step (outset tag.start)) before start stop quote text ∧
      form = quote :: (text ++ [quote]) ∧ s.name = (start, stop) ∧ v.start = tag.start + front.length ∧
      v.stop = tag.start + front.length + form.length ∧
      ∀ t, quotedText? v = some t → t.start = tag.start + front.length + 1 ∧
        t.stop = tag.start + front.length + 1 + text.length := by
  obtain ⟨n, named, span⟩ := Option.map_eq_some_iff.mp h.span
  simp only [Composed, named, valued, kind, true_implies] at composed
  simp only [valueText?, valued, Option.bind_some, kind, beq_self_eq_true, if_true] at span
  subst span
  obtain ⟨stop, behind_, parts⟩ := composed
  cases h.form with
  | bare isName ends span =>
    -- The value stands behind the name.
    simp only [place, AttributeSpan.bare, AttributeSpan.mk.injEq, Prod.mk.injEq] at span
    omega
  | unquoted isValue ends span =>
    -- The text would end with the attribute, and not before a quote.
    simp only [place, AttributeSpan.mk.injEq, Prod.mk.injEq] at span
    obtain ⟨t, text, same⟩ := Option.map_eq_some_iff.mp span.2.2.2
    rw [Prod.mk.injEq] at same
    simp only [text] at parts
    omega
  | quoted isQuoted span =>
    simp only [place, AttributeSpan.quoted, AttributeSpan.mk.injEq, Prod.mk.injEq] at span
    refine ⟨_, _, _, _, isQuoted, rfl, by rw [span.2.2.1.1, span.2.2.1.2], ?_⟩
    rw [List.length_cons, List.length_append, List.length_singleton]
    cases text : quotedText? v with
    | none =>
      simp only [text] at parts span
      split at span
      · next empty => exact ⟨by omega, by omega, by simp⟩
      · simp at span
    | some t =>
      simp only [text] at parts span
      split at span
      · simp at span
      · simp only [Option.map_some, Option.some.injEq, Prod.mk.injEq] at span
        refine ⟨by omega, by omega, fun t' same => ?_⟩
        obtain rfl := Option.some.inj same
        omega

/-- A name alone gives way to the attribute with its value. -/
theorem gives_valueless (composed : Composed a) (valueless : valueNode? a = none)
    (apart : ∀ b, (encode cs)[a.start - 1]? = some b → isTagNameByte b = false)
    (names : ∀ b ∈ encode name.toList, isNameByte b = true) (nonempty : encode name.toList ≠ []) (value : String) :
    Gives cs tag name value ⟨a.start, a.stop, rendered name value⟩ := by
  obtain ⟨isName, start, stop, b, next, ends⟩ := h.of_valueless composed valueless
  -- Before the name the reader is in a gap, since the name of the tag stands apart.
  obtain ⟨g, phase⟩ : ∃ g, (front.foldl step (outset tag.start)).phase = .between g := by
    refine isName.phase.resolve_left fun tagName => ?_
    rcases List.eq_nil_or_concat front with nothing | ⟨more, d, read⟩
    · rw [nothing] at tagName
      cases tagName
    · rw [List.concat_eq_append] at read
      rw [read, List.foldl_append] at tagName
      have other := apart d (by rw [start]; exact h.last_read read)
      rw [Remedy.Html.Reader.isTagNameByte_of_tagName tagName] at other
      contradiction
  have written : IsName (front.foldl step (outset tag.start)) before (encode name.toList) :=
    ⟨isName.at_, fun b _ => by rw [phase]; rfl, nonempty, names⟩
  have applied := h.applyTo (r := ⟨a.start, a.stop, rendered name value⟩) start stop
  rw [encode_rendered] at applied
  have read := AttributeSpan.read_written ((encode cs).take tag.start ++ front) back name.toList
    (Text.escapeAttribute value .double).toList
  rw [AttributeSpan.written_eq_quoted, h.length, String.ofList_toList, String.ofList_toList,
    Text.unescape_escapeAttribute] at read
  obtain ⟨done, reads_⟩ := h.gives applied (written.written (quote_not_mem_escaped value .double)) (by
    rw [applied, place]
    exact read)
  exact
    { first := start ▸ h.boundary_start phase
      last := stop ▸ h.boundary_stop next (Remedy.Html.ascii_of_isNameByte ends)
      delimits := delimits_rendered _ name value (show rendered name value = "" ++ rendered name value ++ "" by simp)
      done := done
      read := reads_ }

/-- An unquoted value gives way to a quoted one. -/
theorem gives_unquoted {v : Node} (composed : Composed a) (valued : valueNode? a = some v)
    (kind : v.kind ≠ "quoted_attribute_value") (value : String) :
    Gives cs tag name value ⟨v.start, v.stop, "\"" ++ Text.escapeAttribute value .double ++ "\""⟩ := by
  obtain ⟨first, last, isValue, name_, start, stop, b, next, ends⟩ := h.of_unquoted composed valued kind
  have applied := h.applyTo (r := ⟨v.start, v.stop, "\"" ++ Text.escapeAttribute value .double ++ "\""⟩) start stop
  rw [encode_quoted] at applied
  obtain ⟨done, read⟩ := h.written_quoted .double value isValue.reached name_ applied
  exact
    { first := start ▸ h.boundary_start (by rw [isValue.reached])
      last := stop ▸ h.boundary_stop next (Remedy.Html.ascii_of_isValueByte ends)
      delimits := delimits_quoted _ _ _ value
      done := done
      read := read }

/-- Quotes that hold nothing give way to quotes around the value. -/
theorem gives_empty {v : Node} (composed : Composed a) (valued : valueNode? a = some v)
    (kind : v.kind = "quoted_attribute_value") (value : String) :
    Gives cs tag name value ⟨v.start, v.stop, "\"" ++ Text.escapeAttribute value .double ++ "\""⟩ := by
  obtain ⟨first, last, quote, text, isQuoted, form_, name_, start, stop, _⟩ := h.of_quoted composed valued kind
  have ascii := Remedy.Html.ascii_of_isQuoteByte isQuoted.isQuote
  have applied := h.applyTo (r := ⟨v.start, v.stop, "\"" ++ Text.escapeAttribute value .double ++ "\""⟩) start stop
  rw [encode_quoted] at applied
  obtain ⟨done, read⟩ := h.written_quoted .double value isQuoted.reached name_ applied
  have length : form.length = text.length + 1 + 1 := by rw [form_, List.length_cons, List.length_append]; rfl
  have opens : (encode cs)[tag.start + front.length]? = some quote := by
    have byte := h.getElem? 0
    rwa [form_] at byte
  have closes : (encode cs)[tag.start + front.length + (text.length + 1)]? = some quote := by
    rw [h.getElem?, form_]
    simp
  refine
    { first := start ▸ boundary_of_byte opens ascii
      last := ?_
      delimits := delimits_quoted _ _ _ value
      done := done
      read := read }
  have boundary := IsBoundary.succ_of_ascii closes ascii
  rwa [Nat.add_assoc, ← length, ← stop] at boundary

/-- What stands between quotes gives way to the value. -/
theorem gives_inner {v t : Node} (composed : Composed a) (valued : valueNode? a = some v)
    (kind : v.kind = "quoted_attribute_value") (inner : quotedText? v = some t) (value : String) :
    Gives cs tag name value ⟨t.start, t.stop, Text.escapeAttribute value (quoteOf (encode cs) v)⟩ := by
  obtain ⟨first, last, quote, text, isQuoted, form_, name_, start, stop, inside⟩ := h.of_quoted composed valued kind
  obtain ⟨from_, upTo⟩ := inside t inner
  have ascii := Remedy.Html.ascii_of_isQuoteByte isQuoted.isQuote
  have mark : (quoteOf (encode cs) v).char.toUInt8 = quote :=
    quoteOf_eq isQuoted.isQuote (by rw [h.textIn start stop, form_])
  -- The text is cut behind the quote that opens the value and before the one that closes it.
  have split : encode cs = (((encode cs).take tag.start ++ front) ++ [quote]) ++ (text ++ ([quote] ++ back)) := by
    conv => lhs; rw [h.split, form_]
    simp only [List.append_assoc, List.cons_append, List.nil_append]
  have length : (((encode cs).take tag.start ++ front) ++ [quote]).length = t.start := by
    rw [List.length_append, h.length, from_]
    rfl
  have applied := applyTo_middle (r := ⟨t.start, t.stop, Text.escapeAttribute value (quoteOf (encode cs) v)⟩)
    (((encode cs).take tag.start ++ front) ++ [quote]) text ([quote] ++ back) length.symm (by rw [length, upTo, from_])
  rw [← split] at applied
  have before_ : (encode cs).take t.start = ((encode cs).take tag.start ++ front) ++ [quote] := by
    have cut : ((((encode cs).take tag.start ++ front) ++ [quote]) ++ (text ++ ([quote] ++ back))).take t.start =
        ((encode cs).take tag.start ++ front) ++ [quote] := List.take_left' length
    rwa [← split] at cut
  obtain ⟨done, read⟩ := h.written_quoted (quoteOf (encode cs) v) value isQuoted.reached name_ (applied.trans (by
    simp only [mark, List.append_assoc, List.cons_append, List.nil_append]))
  have opens : (encode cs)[tag.start + front.length]? = some quote := by
    have byte := h.getElem? 0
    rwa [form_] at byte
  have closes : (encode cs)[t.stop]? = some quote := by
    rw [upTo, Nat.add_assoc, Nat.add_comm 1, h.getElem?, form_]
    simp
  exact
    { first := from_ ▸ IsBoundary.succ_of_ascii opens ascii
      last := boundary_of_byte closes ascii
      delimits := by
        refine ⟨quoteOf (encode cs) v, "", "", by simp, ?_, ?_⟩
        · rw [mark, before_]
          simp
        · rw [mark, String.toList_empty, Text.encode_nil, List.nil_append, List.head?_drop]
          exact closes
      done := done
      read := read }

end Stands

/-- The attributes of a tag have the parts that attributes have, and none stands right behind the name of the tag. -/
structure Parted (source : Bytes) (tag : Node) : Prop where
  composed : ∀ a ∈ attributes tag, Composed a
  apart : ∀ a ∈ attributes tag, ∀ b ∈ source[a.start - 1]?, isTagNameByte b = false

instance (source : Bytes) (tag : Node) : Decidable (Parted source tag) :=
  decidable_of_iff ((∀ a ∈ attributes tag, Composed a) ∧
      ∀ a ∈ attributes tag, ∀ b ∈ source[a.start - 1]?, isTagNameByte b = false)
    ⟨fun ⟨composed, apart⟩ => ⟨composed, apart⟩, fun ⟨composed, apart⟩ => ⟨composed, apart⟩⟩

/-- A tag that takes an attribute of a name: it is well lexed, its attributes have their parts, the name is one, and a new
attribute would not be put inside of another. -/
structure Takes (source : Bytes) (tag : Node) (name : String) : Prop where
  lexed : Lexed source tag
  parted : Parted source tag
  names : ∀ b ∈ encode name.toList, isNameByte b = true
  own : findAttribute? source tag name = none → ¬ OwnsSlash source tag

/-- **What comes of setting an attribute**, in each of the forms that it may have. -/
theorem Takes.gives (takes : Takes (encode cs) tag name) (nonempty : encode name.toList ≠ []) (value : String) :
    Gives cs tag name value (setAttribute (encode cs) tag name value) := by
  obtain ⟨lexed, parted, names, own⟩ := takes
  cases found : findAttribute? (encode cs) tag name with
  | none =>
    obtain ⟨lead, trail, inserted, blank, apart⟩ := insertAttribute_cases lexed (own found) name value
    obtain ⟨done, read⟩ := lexed.reads_insert blank apart names nonempty (quote_not_mem_escaped value .double)
    rw [← applyTo_inserted] at done read
    rw [setAttribute_of_absent found, inserted]
    refine ⟨boundary_bracket lexed, boundary_bracket lexed, delimits_rendered _ name value rfl, done, ?_⟩
    intro tag' start lexed'
    rw [read tag' start lexed', String.ofList_toList, String.ofList_toList, Text.unescape_escapeAttribute,
      Json.put_of_ne (Remedy.Html.not_mem_of_findAttribute? found)]
  | some a =>
    have member := List.mem_of_find?_eq_some found
    have composed := parted.composed a member
    obtain ⟨front, form, back, before, s, stands⟩ := exists_stands lexed found
    cases valued : valueNode? a with
    | none =>
      simp only [setAttribute, found, valued]
      exact stands.gives_valueless composed valued (parted.apart a member) names nonempty value
    | some v =>
      simp only [setAttribute, found, valued]
      split
      next quoted =>
        split
        next t inner => exact stands.gives_inner composed valued (beq_iff_eq.mp quoted) inner value
        next => exact stands.gives_empty composed valued (beq_iff_eq.mp quoted) value
      next unquoted => exact stands.gives_unquoted composed valued (by simpa using unquoted) value

end

/-- A fix sets an attribute in the tag of an element of a page. -/
structure Sets (source : String) (root : Node) (lookup : Lookup) (f : Fix) (tag : Node) (name value : String) : Prop where
  meant : ∃ place notices element, targetOf lookup f = .ok (some place, notices) ∧
    elementAt? (encode source.toList) (targets root) place = some element ∧ opening? element = some tag
  change : ∃ overwrite, f.change? = some (.setAttribute overwrite name value)

namespace Sets

variable {source : String} {root tag : Node} {lookup : Lookup} {f : Fix} {name value : String}
  (sets : Sets source root lookup f tag name value)

include sets

/-- A pass with one such fix plans its edit alone. -/
theorem planned (closed : byteAt? (encode source.toList) (tag.stop - 1) = some 0x3E) :
    ∃ claims, planOf source root lookup [f] = .ok ⟨[setAttribute (encode source.toList) tag name value], claims⟩ := by
  obtain ⟨⟨place, notices, element, target, found, opened⟩, overwrite, change⟩ := sets
  exact planOf_setAttribute target found opened closed change

theorem name_ne_nil : encode name.toList ≠ [] := by
  obtain ⟨_, overwrite, change⟩ := sets
  exact fun nothing => name_ne_empty change (String.toList_eq_nil_iff.mp (Text.encode_eq_nil nothing))

/-- Where the tag takes the attribute, it makes the edit. -/
theorem text (takes : Takes (encode source.toList) tag name) :
    ∃ out, (applyTo source root lookup [f]).text = .ok out ∧
      encode out.toList = (setAttribute (encode source.toList) tag name value).applyTo (encode source.toList) ∧
      Gives source.toList tag name value (setAttribute (encode source.toList) tag name value) := by
  have given := takes.gives sets.name_ne_nil value
  obtain ⟨claims, planned⟩ := sets.planned takes.lexed.bracket
  obtain ⟨out, text, bytes⟩ := finish_replacement given.first given.last claims
  refine ⟨out, ?_, bytes, given⟩
  rw [text_applyTo, planned]
  exact text

end Sets

end Patch.Html

/-! ### Components -/

namespace Patch.Component

open Remedy.Component (Line OpenTag columnIn findStatic?_split)

/-- An edit of a line writes a value, escaped for the quotes that it then stands between. -/
def Delimits (line : Line) (e : LineEdit) (value : String) : Prop :=
  ∃ (quote : Text.Quote) (lead trail : String), e.text = lead ++ Text.escapeAttribute value quote ++ trail ∧
    Enclosed quote.char (line.take (columnIn line.length e.start) ++ lead.toList)
      (trail.toList ++ line.drop (columnIn line.length e.stop))

theorem columnIn_nat {length n : Nat} (inside : n ≤ length) : columnIn length (n : Int) = n := by
  rw [columnIn, if_neg (by omega), Int.toNat_natCast, Nat.min_eq_left inside]

/-- In a new attribute the value has quotes of its own. -/
theorem insertAttribute_delimits (lines : List Line) (tag : OpenTag) (name value : String) (line : Line) :
    Delimits line (insertAttribute lines tag name value) value := by
  have own (lead trail : String) (text : (insertAttribute lines tag name value).text =
      lead ++ (name ++ "=\"" ++ Text.escapeAttribute value .double ++ "\"") ++ trail) :
      Delimits line (insertAttribute lines tag name value) value := by
    refine ⟨.double, lead ++ name ++ "=\"", "\"" ++ trail, by simp [text, String.append_assoc], ?_, ?_⟩
    · simp [List.getLast?_append, Text.Quote.char]
    · rw [String.toList_append]
      rfl
  rw [insertAttribute] at own ⊢
  split at own
  next parted =>
    rw [if_pos parted]
    exact own "" " " (by simp)
  next alone =>
    rw [if_neg alone]
    exact own " " "" (by simp)

/-- **Whatever is edited, the value stands between quotes that it is escaped for.** -/
theorem attributeEdit_delimits {lines : List Line} {tag : OpenTag} {name value : String} {overwrite : Bool} {e : LineEdit}
    (h : attributeEdit lines tag name value overwrite = .ok (some e)) : Delimits (lineAt lines e.line) e value := by
  rw [attributeEdit] at h
  simp only at h
  split at h
  next line v static =>
    split at h
    · obtain rfl := Option.some.inj (Except.ok.inj h)
      obtain ⟨s, _, found⟩ := List.exists_of_findSome?_eq_some static
      obtain ⟨v', value_, same⟩ := Option.map_eq_some_iff.mp found
      obtain ⟨rfl, rfl⟩ := Prod.mk.inj same
      -- What is replaced is all that stands between the quotes of the value.
      obtain ⟨front, old, rest, split, quote, start, stop⟩ := findStatic?_split value_
      have mark : (if v'.quote == '"' then Text.Quote.double else .single).char = v'.quote := by
        rcases quote with double | single
        · rw [double]; rfl
        · rw [single]; rfl
      refine ⟨if v'.quote == '"' then .double else .single, "", "", by rw [String.empty_append, String.append_empty], ?_⟩
      have length : (lineAt lines s.line).length = v'.stop + 1 + rest.length := by
        rw [split, stop, start, List.length_append, List.length_cons, List.length_append, List.length_cons]
        omega
      have before : (lineAt lines s.line).take v'.start = front ++ [v'.quote] := by
        rw [split, start, List.append_cons, List.take_left' (by rw [List.length_append]; rfl)]
      have behind : (lineAt lines s.line).drop v'.stop = v'.quote :: rest := by
        rw [split, stop, start, List.append_cons, ← List.append_assoc, List.drop_left' (by
          rw [List.length_append, List.length_append]; rfl)]
      simp only [mark, String.toList_empty, List.append_nil, List.nil_append]
      rw [columnIn_nat (by omega), columnIn_nat (by omega), before, behind]
      exact ⟨List.getLast?_concat, rfl⟩
    · cases Except.ok.inj h
  next =>
    split at h
    · split at h
      · contradiction
      · cases Except.ok.inj h
    · obtain rfl := Option.some.inj (Except.ok.inj h)
      exact insertAttribute_delimits lines tag name value _

end Patch.Component

/-! ### A title with quotes and references -/

namespace Patch

open Patch.Html (Lookup Sets Takes setAttribute)
open Remedy.Html (Lexed Reader attributeValue reads valueNode?)
open Text (encode)

namespace Quoted

/-- A link with a title of one letter between quotes. -/
def tag : Node :=
  .mk "start_tag" true false false 0 13 none
    [Retitled.leaf "tag_name" none 1 2,
     .mk "attribute" true false false 3 12 none
      [Retitled.leaf "attribute_name" none 3 8,
       .mk "quoted_attribute_value" true false false 9 12 none [Retitled.leaf "attribute_value" none 10 11]]]

def element : Node :=
  .mk "element" true false false 0 18 none
    [tag, Retitled.leaf "text" none 13 14,
     .mk "end_tag" true false false 14 18 none [Retitled.leaf "tag_name" none 16 17]]

def page : Node := .mk "document" true false false 0 18 none [element]

def single : String := "<a title='x'>t</a>"

def double : String := "<a title=\"x\">t</a>"

def fix (value : String) : Fix := Retitled.fixWith .replaceAttribute ⟨some "title", some value, none, none, []⟩

theorem sets_single (value : String) : Sets single page Retitled.lookup (fix value) tag "title" value :=
  ⟨⟨⟨1, 0⟩, [], element, rfl, rfl, rfl⟩, true, rfl⟩

theorem sets_double (value : String) : Sets double page Retitled.lookup (fix value) tag "title" value :=
  ⟨⟨⟨1, 0⟩, [], element, rfl, rfl, rfl⟩, true, rfl⟩

theorem takes_single : Takes (encode single.toList) tag "title" where
  lexed := by decide +kernel
  parted := by decide +kernel
  names := Html.Link.names
  own absent := absurd absent (by decide +kernel)

theorem takes_double : Takes (encode double.toList) tag "title" where
  lexed := by decide +kernel
  parted := by decide +kernel
  names := Html.Link.names
  own absent := absurd absent (by decide +kernel)

theorem reads_single : reads (encode single.toList) tag = [("title", "x")] := by decide +kernel

/-- The attribute as it is read where a comment takes up all of its value. -/
def commented : Node :=
  .mk "attribute" true false false 3 21 none
    [Retitled.leaf "attribute_name" none 3 8,
     .mk "quoted_attribute_value" true false false 9 21 none [Retitled.leaf "comment" none 10 20]]

end Quoted

/-- **Values stand between quotes that they are escaped for, and are read back.** An escaped value holds none of its quotes,
and its references give the value back. A fix that sets an attribute of a tag that takes it makes a text where the value
stands between its quotes, and in which a tag is read as before but for the value. So it does in an edit of a component. -/
theorem values_between_quotes (source : String) (root tag : Node) (lookup : Lookup) (f : Fix) (name value : String) :
    (∀ quote : Text.Quote, quote.char ∉ (Text.escapeAttribute value quote).toList ∧
      Text.unescape (Text.escapeAttribute value quote) = value) ∧
    (Sets source root lookup f tag name value → Takes (encode source.toList) tag name →
      ∃ out, (Html.applyTo source root lookup [f]).text = .ok out ∧
        encode out.toList = (setAttribute (encode source.toList) tag name value).applyTo (encode source.toList) ∧
        Html.Delimits (encode source.toList) (setAttribute (encode source.toList) tag name value) value ∧
        (∃ stop, (Reader.run (encode out.toList) tag.start).phase = .done stop (tag.kind == "self_closing_tag")) ∧
        ∀ tag' : Node, tag'.start = tag.start → Lexed (encode out.toList) tag' →
          reads (encode out.toList) tag' = Json.put (reads (encode source.toList) tag) (Text.lower name) value) ∧
    ∀ (lines : List Remedy.Component.Line) (opened : Remedy.Component.OpenTag) (overwrite : Bool) (e : LineEdit),
      Component.attributeEdit lines opened name value overwrite = .ok (some e) →
        Component.Delimits (Component.lineAt lines e.line) e value := by
  refine ⟨fun quote => ?_, fun sets takes => ?_, fun lines opened overwrite e edited => ?_⟩
  · exact ⟨Text.quote_not_mem_escapeAttribute value quote, Text.unescape_escapeAttribute value quote⟩
  · obtain ⟨out, text, bytes, given⟩ := sets.text takes
    refine ⟨out, text, bytes, given.delimits, ?_⟩
    rw [bytes]
    exact ⟨given.done, given.read⟩
  · exact Component.attributeEdit_delimits edited

/-- A title that holds both kinds of quotes and what looks like a reference is read back from between single quotes. -/
theorem title_between_single_quotes :
    ∃ out, (Html.applyTo Quoted.single Quoted.page Retitled.lookup [Quoted.fix "it's \"&lt;\""]).text = .ok out ∧
      ∀ tag' : Node, tag'.start = 0 → Lexed (encode out.toList) tag' →
        reads (encode out.toList) tag' = [("title", "it's \"&lt;\"")] := by
  obtain ⟨_, written, _⟩ := values_between_quotes Quoted.single Quoted.page Quoted.tag Retitled.lookup
    (Quoted.fix "it's \"&lt;\"") "title" "it's \"&lt;\""
  obtain ⟨out, text, _, _, _, read⟩ := written (Quoted.sets_single _) Quoted.takes_single
  refine ⟨out, text, fun tag' start lexed => ?_⟩
  rw [read tag' start lexed, Quoted.reads_single, Retitled.title_lower]
  rfl

/-- A comment at the beginning of a quoted value is no part of what is read, so a title that looks like one is lost. -/
theorem comment_for_title :
    ¬ ∀ (source : String) (root tag : Node) (lookup : Lookup) (f : Fix) (name value : String),
      Sets source root lookup f tag name value → ∀ out, (Html.applyTo source root lookup [f]).text = .ok out →
        ∀ a v : Node, valueNode? a = some v → v.kind = "quoted_attribute_value" →
          v.textIn (encode out.toList) = "\"" ++ Text.escapeAttribute value .double ++ "\"" →
            attributeValue (encode out.toList) a = value := by
  intro readBack
  obtain ⟨out, text, bytes, _⟩ := (Quoted.sets_double "<!-- x -->").text Quoted.takes_double
  have lost := readBack _ _ _ _ _ _ _ (Quoted.sets_double "<!-- x -->") out text Quoted.commented _ rfl rfl
    (by rw [bytes]; decide +kernel)
  rw [bytes] at lost
  exact absurd lost (by decide +kernel)

end Patch

end Remedy
