import Remedy.Html.Tag
import Remedy.Proofs.Html.TagReader
import Remedy.Proofs.Json.Fields
import Remedy.Proofs.Text.Decoding

/-!
Tags as a tree has them, and as the reader finds them in the text.

A tag is well lexed if it stands where the reader finds one and has the attributes that the reader finds. What is read of its
attributes is then what stands there, and an attribute that is written before the bracket comes last.
-/

namespace Remedy

namespace Html

open Text (Bytes encode sliceBytes decodeLossy isBlankByte)
open Reader

/-! ### What is read of a tree -/

/-- The node whose text is the value of an attribute. -/
def valueText? (a : Node) : Option Node :=
  (valueNode? a).bind fun v => if v.kind == "quoted_attribute_value" then quotedText? v else some v

/-- Where an attribute of a tree stands, if it has a name. -/
def spanOf? (a : Node) : Option AttributeSpan :=
  (a.child? ["attribute_name"]).map fun n =>
    ⟨a.start, a.stop, (n.start, n.stop), (valueText? a).map fun t => (t.start, t.stop)⟩

namespace AttributeSpan

def textAt (source : Bytes) (range : Nat × Nat) : String :=
  String.ofList (decodeLossy (sliceBytes source range.1 range.2))

/-- The name in small letters and the value. -/
def read (source : Bytes) (s : AttributeSpan) : String × String :=
  (Text.lower (textAt source s.name), (s.text.map fun range => Text.unescape (textAt source range)).getD "")

/-- What is read of an attribute that ends by a place does not depend on what follows. -/
theorem EndsBy.read_congr {s : AttributeSpan} {place : Nat} (h : s.EndsBy place) {source other : Bytes}
    (same : source.take place = other.take place) : s.read source = s.read other := by
  have text {range : Nat × Nat} (le : range.2 ≤ place) : textAt source range = textAt other range := by
    have front : source.take range.2 = other.take range.2 := by
      rw [← Nat.min_eq_left le, ← List.take_take, same, List.take_take]
    rw [textAt, textAt, sliceBytes, sliceBytes, front]
  -- The value ends by the place as well, if there is one.
  have value : (s.text.map fun range => Text.unescape (textAt source range)) =
      s.text.map fun range => Text.unescape (textAt other range) :=
    Option.map_congr fun range member => by rw [text (h.text range member)]
  rw [read, read, text h.name, value]

end AttributeSpan

theorem attributeValue_eq (source : Bytes) (a : Node) :
    attributeValue source a = ((valueText? a).map fun t => Text.unescape (t.textIn source)).getD "" := by
  rw [attributeValue.eq_def, valueText?]
  cases valueNode? a with
  | none => rfl
  | some v =>
    simp only [Option.bind_some]
    split
    · cases quotedText? v <;> rfl
    · rfl

/-- The name and the value of an attribute are what stands where the attribute does. -/
theorem read_spanOf? {source : Bytes} {a : Node} {s : AttributeSpan} (h : spanOf? a = some s) :
    s.read source = (Text.lower (attributeName source a), attributeValue source a) := by
  obtain ⟨n, named, rfl⟩ := Option.map_eq_some_iff.mp h
  rw [attributeValue_eq, attributeName, named, AttributeSpan.read, Option.map_map]
  rfl

/-- The name in small letters and the value. -/
def readAttribute (source : Bytes) (a : Node) : String × String :=
  (Text.lower (attributeName source a), attributeValue source a)

/-- What is read of each attribute of a tag, one after another. -/
def reads (source : Bytes) (tag : Node) : List (String × String) := (attributes tag).map (readAttribute source)

/-- Of attributes with one name the last one counts. -/
theorem readAttributes_eq (source : Bytes) (tag : Node) :
    readAttributes source tag true = (reads source tag).foldl (fun kvs kv => Json.put kvs kv.1 kv.2) [] := by
  rw [reads, List.foldl_map]
  rfl

theorem map_read {source : Bytes} {as : List Node} {spans : List AttributeSpan} (h : as.map spanOf? = spans.map some) :
    as.map (readAttribute source) = spans.map (·.read source) := by
  induction as generalizing spans with
  | nil =>
    obtain rfl : spans = [] := by simpa using h.symm
    rfl
  | cons a rest ih =>
    cases spans with
    | nil => simp at h
    | cons s more =>
      rw [List.map_cons, List.map_cons, List.cons.injEq] at h
      rw [List.map_cons, List.map_cons, readAttribute, read_spanOf? h.1, ih h.2]

theorem not_mem_of_findAttribute? {source : Bytes} {tag : Node} {name : String}
    (absent : findAttribute? source tag name = none) : ∀ kv ∈ reads source tag, kv.1 ≠ Text.lower name := by
  intro kv member
  obtain ⟨a, ha, rfl⟩ := List.mem_map.mp member
  simpa [readAttribute] using List.find?_eq_none.mp absent a ha

/-! ### What is read where an attribute is written -/

theorem sliceBytes_middle (front middle rest : Bytes) :
    sliceBytes (front ++ (middle ++ rest)) front.length (front.length + middle.length) = middle := by
  rw [← List.append_assoc, sliceBytes, ← List.length_append, List.take_left, List.drop_left]

/-- What is read where an attribute is written. -/
theorem AttributeSpan.read_written (front rest : Bytes) (name text : List Char) :
    (AttributeSpan.written front.length (encode name).length (encode text).length).read
        (front ++ (Html.written (encode name) (encode text) ++ rest)) =
      (Text.lower (String.ofList name), Text.unescape (String.ofList text)) := by
  have name_ : textAt (front ++ (Html.written (encode name) (encode text) ++ rest))
      (front.length, front.length + (encode name).length) = String.ofList name := by
    rw [textAt, Html.written, List.append_assoc, sliceBytes_middle, Text.decodeLossy_encode]
  have text_ : textAt (front ++ (Html.written (encode name) (encode text) ++ rest))
      (front.length + (encode name).length + 2, front.length + (encode name).length + 2 + (encode text).length) =
        String.ofList text := by
    have split : front ++ (Html.written (encode name) (encode text) ++ rest) =
        (front ++ (encode name ++ [0x3D, 0x22])) ++ (encode text ++ ([0x22] ++ rest)) := by simp [Html.written]
    have length : (front ++ (encode name ++ [0x3D, 0x22])).length = front.length + (encode name).length + 2 := by
      simp [Nat.add_assoc]
    rw [split, ← length, textAt, sliceBytes_middle, Text.decodeLossy_encode]
  rw [read, AttributeSpan.written, name_]
  -- An empty value has no text of its own, and reads as one all the same.
  by_cases empty : text = []
  · subst empty
    rfl
  · have nonempty : (encode text).length ≠ 0 := fun nothing => empty (Text.encode_eq_nil (List.eq_nil_of_length_eq_zero nothing))
    rw [if_neg nonempty, Option.map_some, text_]
    rfl

/-! ### Well lexed tags -/

/-- The tag stands where the reader finds one, and its attributes are those that the reader finds. -/
structure Lexed (source : Bytes) (tag : Node) : Prop where
  whole : (Reader.run source tag.start).phase = .done tag.stop (tag.kind == "self_closing_tag")
  attributes : (attributes tag).map spanOf? = (Reader.run source tag.start).spans.map some

instance (source : Bytes) (tag : Node) : Decidable (Lexed source tag) :=
  decidable_of_iff ((Reader.run source tag.start).phase = .done tag.stop (tag.kind == "self_closing_tag") ∧
    (attributes tag).map spanOf? = (Reader.run source tag.start).spans.map some)
    ⟨fun h => ⟨h.1, h.2⟩, fun h => ⟨h.whole, h.attributes⟩⟩

/-- Where the bracket of a tag begins, with the slash of a tag that closes itself. -/
def bracketPlace (tag : Node) : Nat := tag.stop - (if tag.kind == "self_closing_tag" then 2 else 1)

namespace Lexed

variable {source : Bytes} {tag : Node}

/-- **How a tag ends.** The reader comes to its bracket, where another attribute might begin. -/
theorem ends (h : Lexed source tag) :
    tag.start < bracketPlace tag ∧ bracketPlace tag ≤ source.length ∧
      (∃ rest, source.drop (bracketPlace tag) =
        (if tag.kind == "self_closing_tag" then [0x2F, 0x3E] else [0x3E]) ++ rest) ∧
      (run (source.take (bracketPlace tag)) tag.start).At (run source tag.start).spans := by
  -- What is read before the bracket, if it is followed by what the bracket consists of.
  have cut {front tail rest : Bytes} (split : source.drop tag.start = front ++ (tail ++ rest))
      (place : bracketPlace tag = tag.start + front.length)
      (bracket : tail = if tag.kind == "self_closing_tag" then [0x2F, 0x3E] else [0x3E])
      (at_ : (front.foldl step (outset tag.start)).At (run source tag.start).spans) :
      tag.start < bracketPlace tag ∧ bracketPlace tag ≤ source.length ∧
        (∃ rest, source.drop (bracketPlace tag) =
          (if tag.kind == "self_closing_tag" then [0x2F, 0x3E] else [0x3E]) ++ rest) ∧
        (run (source.take (bracketPlace tag)) tag.start).At (run source tag.start).spans := by
    have nonempty : 0 < front.length := by
      rw [List.length_pos_iff]
      rintro rfl
      obtain ⟨g, gap, _⟩ := at_
      cases gap
    have length := congrArg List.length split
    rw [List.length_drop, List.length_append] at length
    refine ⟨by omega, by omega, ⟨rest, ?_⟩, ?_⟩
    · rw [place, ← List.drop_drop, split, List.drop_left, bracket]
    · rw [run, List.drop_take, split, place, Nat.add_sub_cancel_left, List.take_left]
      exact at_
  obtain ⟨front, rest, split, before, bracket, spans⟩ := exists_bracket (by simp [outset]) h.whole
  obtain ⟨_, stop, ⟨kind, at_⟩ | ⟨closing, slash, same⟩⟩ := done_step before bracket
  · have alone : ([0x3E] : Bytes) = if tag.kind == "self_closing_tag" then [0x2F, 0x3E] else [0x3E] := by rw [kind]; rfl
    have whole : source.drop tag.start = front ++ ([0x3E] ++ rest) := split
    refine cut whole ?_ alone (by rw [run, spans]; exact at_)
    rw [bracketPlace, kind, stop, place_foldl]
    rfl
  · -- The slash is a byte of its own, and the attributes are those gathered before it.
    rcases List.eq_nil_or_concat front with rfl | ⟨front, b, rfl⟩
    · cases slash
    · rw [List.concat_eq_append, List.foldl_append] at slash same stop
      rw [List.concat_eq_append, List.append_assoc] at split
      obtain ⟨rfl, _, at_⟩ := slash_step slash
      have both : ([0x2F, 0x3E] : Bytes) = if tag.kind == "self_closing_tag" then [0x2F, 0x3E] else [0x3E] := by
        rw [closing]
        rfl
      have whole : source.drop tag.start = front ++ ([0x2F, 0x3E] ++ rest) := split
      refine cut whole ?_ both ?_
      · rw [bracketPlace, closing, stop, List.foldl_cons, List.foldl_nil, place_step, place_foldl]
        rfl
      · rw [run, spans, List.concat_eq_append, List.foldl_append, same]
        exact at_

/-- The last byte of the tag is its bracket. -/
theorem bracket (h : Lexed source tag) : source[tag.stop - 1]? = some 0x3E := by
  obtain ⟨_, _, ⟨rest, bracket⟩, _⟩ := h.ends
  cases kind : tag.kind == "self_closing_tag" with
  | true =>
    have place : tag.stop - 1 = bracketPlace tag + 1 := by
      have := h.ends.1
      simp only [bracketPlace, kind, if_true] at this ⊢
      omega
    rw [place, ← List.getElem?_drop, bracket, kind]
    rfl
  | false =>
    have place : tag.stop - 1 = bracketPlace tag + 0 := by rw [bracketPlace, kind]; rfl
    rw [place, ← List.getElem?_drop, bracket, kind]
    rfl

/-- The bracket begins with the slash or the angle. -/
theorem begins_bracket (h : Lexed source tag) :
    ∃ b, source[bracketPlace tag]? = some b ∧ (b = 0x2F ∨ b = 0x3E) := by
  obtain ⟨_, _, ⟨rest, bracket⟩, _⟩ := h.ends
  have byte : source[bracketPlace tag]? = (source.drop (bracketPlace tag))[0]? := by rw [List.getElem?_drop, Nat.add_zero]
  rw [byte, bracket]
  split
  · exact ⟨0x2F, rfl, Or.inl rfl⟩
  · exact ⟨0x3E, rfl, Or.inr rfl⟩

theorem place_run (h : Lexed source tag) : (run (source.take (bracketPlace tag)) tag.start).place = bracketPlace tag := by
  obtain ⟨start, inside, _⟩ := h.ends
  rw [run, place_foldl, List.length_drop, List.length_take, Nat.min_eq_left inside]
  exact Nat.add_sub_cancel' (Nat.le_of_lt start)

/-- The attributes end before the bracket. -/
theorem endsBy (h : Lexed source tag) : ∀ s ∈ (run source tag.start).spans, s.EndsBy (bracketPlace tag) := by
  obtain ⟨_, _, _, at_⟩ := h.ends
  have sound : (run (source.take (bracketPlace tag)) tag.start).Sound := (sound_outset tag.start).foldl _
  rw [← h.place_run]
  exact sound.endsBy at_

/-- The byte before the bracket is the last one that was read there. -/
theorem run_eq_step (h : Lexed source tag) {b : UInt8} (byte : source[bracketPlace tag - 1]? = some b) :
    ∃ r : Reader, r.Sound ∧ run (source.take (bracketPlace tag)) tag.start = r.step b := by
  obtain ⟨start, inside, _⟩ := h.ends
  refine ⟨run (source.take (bracketPlace tag - 1)) tag.start, (sound_outset tag.start).foldl _, ?_⟩
  have last : source.take (bracketPlace tag) = source.take (bracketPlace tag - 1) ++ [b] := by
    rw [← Option.toList_some, ← byte, ← List.take_add_one, Nat.sub_add_cancel (by omega)]
  have reaches : tag.start ≤ (source.take (bracketPlace tag - 1)).length := by
    rw [List.length_take]
    omega
  rw [run, last, List.drop_append_of_le_length reaches, List.foldl_append]
  rfl

theorem stop_le_bracketPlace (h : Lexed source tag) : ∀ a ∈ Html.attributes tag, a.stop ≤ bracketPlace tag := by
  intro a ha
  have found := List.mem_map_of_mem (f := spanOf?) ha
  rw [h.attributes] at found
  obtain ⟨s, hs, span⟩ := List.mem_map.mp found
  obtain ⟨n, _, same⟩ := Option.map_eq_some_iff.mp span.symm
  have whole := (h.endsBy s hs).whole
  rwa [← same] at whole

/-- A slash before the bracket belongs to the value of the last attribute. -/
theorem slash_owned (h : Lexed source tag) (slash : source[bracketPlace tag - 1]? = some 0x2F) :
    ∃ a ∈ Html.attributes tag, a.stop = bracketPlace tag ∧ a.start + 1 < a.stop := by
  obtain ⟨_, _, _, at_⟩ := h.ends
  have place := h.place_run
  obtain ⟨r, sound, stepped⟩ := h.run_eq_step slash
  rw [stepped] at at_ place
  -- The slash is part of a bare value, which ends at the bracket and is gathered last.
  obtain ⟨start, stop, value, bare⟩ := sound.bare_of_slash at_
  have within := (sound.step 0x2F).phase
  rw [bare, place] at within
  have member : ⟨start, bracketPlace tag, (start, stop), some (value, bracketPlace tag)⟩ ∈ (run source tag.start).spans := by
    obtain ⟨g, gap, _, gathered⟩ := at_
    rw [← gathered, bare, place]
    simp [Phase.ended]
  have found := List.mem_map_of_mem (f := some) member
  rw [← h.attributes] at found
  obtain ⟨a, ha, span⟩ := List.mem_map.mp found
  obtain ⟨n, _, same⟩ := Option.map_eq_some_iff.mp span
  rw [AttributeSpan.mk.injEq] at same
  refine ⟨a, ha, same.2.1, ?_⟩
  rw [same.1, same.2.1]
  exact within.1

/-- **An attribute that is written before the bracket comes last, and leaves the others where they are.** -/
theorem insert (h : Lexed source tag) {lead name text trail : Bytes} (blank : ∀ b ∈ lead ++ trail, isBlankByte b = true)
    (apart : lead ≠ [] ∨ ∃ b, source[bracketPlace tag - 1]? = some b ∧ isBlankByte b = true)
    (names : ∀ b ∈ name, isNameByte b = true) (nonempty : name ≠ []) (plain : 0x22 ∉ text) :
    let new := source.take (bracketPlace tag) ++
      ((lead ++ (written name text ++ trail)) ++ source.drop (bracketPlace tag))
    (∃ stop, (run new tag.start).phase = .done stop (tag.kind == "self_closing_tag")) ∧
      (run new tag.start).spans = (run source tag.start).spans ++
        [AttributeSpan.written (bracketPlace tag + lead.length) name.length text.length] := by
  intro new
  obtain ⟨start, inside, ⟨rest, bracket⟩, at_⟩ := h.ends
  have free : lead ≠ [] ∨ ∃ g, (run (source.take (bracketPlace tag)) tag.start).phase = .between g := by
    refine apart.imp_right fun ⟨b, byte, isBlank⟩ => ?_
    obtain ⟨r, _, stepped⟩ := h.run_eq_step byte
    rw [stepped] at at_ ⊢
    exact at_.between_of_blank isBlank
  -- Up to the bracket the reader is where it was, then it reads what is written, then the bracket.
  obtain ⟨inserted, g, between⟩ := at_.foldl_attribute blank free names nonempty plain
  rw [h.place_run] at inserted
  have reaches : tag.start ≤ (source.take (bracketPlace tag)).length := by
    rw [List.length_take]
    omega
  have onward : run new tag.start =
      (source.drop (bracketPlace tag)).foldl step ((lead ++ (written name text ++ trail)).foldl step
        (run (source.take (bracketPlace tag)) tag.start)) := by
    rw [run, List.drop_append_of_le_length reaches, List.foldl_append, List.foldl_append]
    rfl
  rw [onward, bracket]
  generalize (lead ++ (written name text ++ trail)).foldl step (run (source.take (bracketPlace tag)) tag.start) = r
    at inserted between
  cases kind : tag.kind == "self_closing_tag" with
  | false =>
    have done : (r.step 0x3E).phase = .done (r.place + 1) false := by rw [inserted.step_bracket]
    obtain ⟨kept, spans⟩ := foldl_done done rest
    exact ⟨⟨_, kept⟩, spans.trans (by rw [inserted.step_bracket])⟩
  | true =>
    have slash := inserted.step_slash (by rw [between]; rfl)
    have done : ((r.step 0x2F).step 0x3E).phase = .done (r.place + 1 + 1) true := by rw [slash]; rfl
    obtain ⟨kept, spans⟩ := foldl_done done rest
    exact ⟨⟨_, kept⟩, spans.trans (by rw [slash]; simp [step, Phase.goesOn, Phase.gap?, Phase.next])⟩

/-- The attributes of a well lexed tag are read where they stand. -/
theorem reads_eq (h : Lexed source tag) : reads source tag = (run source tag.start).spans.map (·.read source) :=
  map_read h.attributes

/-- It is read last, behind what the others were read as. -/
theorem reads_insert (h : Lexed source tag) {lead trail : Bytes} {name text : List Char}
    (blank : ∀ b ∈ lead ++ trail, isBlankByte b = true)
    (apart : lead ≠ [] ∨ ∃ b, source[bracketPlace tag - 1]? = some b ∧ isBlankByte b = true)
    (names : ∀ b ∈ encode name, isNameByte b = true) (nonempty : encode name ≠ []) (plain : 0x22 ∉ encode text) :
    let new := source.take (bracketPlace tag) ++
      ((lead ++ (written (encode name) (encode text) ++ trail)) ++ source.drop (bracketPlace tag))
    (∃ stop, (run new tag.start).phase = .done stop (tag.kind == "self_closing_tag")) ∧
      ∀ tag' : Node, tag'.start = tag.start → Lexed new tag' →
        reads new tag' = reads source tag ++ [(Text.lower (String.ofList name), Text.unescape (String.ofList text))] := by
  intro new
  obtain ⟨still, spans⟩ := h.insert blank apart names nonempty plain
  refine ⟨still, fun tag' start lexed' => ?_⟩
  have length : (source.take (bracketPlace tag)).length = bracketPlace tag := List.length_take_of_le h.ends.2.1
  -- What ends before the bracket is read as before; the new attribute is read where it is written.
  have kept : (run source tag.start).spans.map (·.read new) = (run source tag.start).spans.map (·.read source) := by
    refine List.map_congr_left fun s hs => (h.endsBy s hs).read_congr ?_
    rw [List.take_append_of_le_length (Nat.le_of_eq length.symm), List.take_take, Nat.min_self]
  have last : (AttributeSpan.written (bracketPlace tag + lead.length) (encode name).length (encode text).length).read new =
      (Text.lower (String.ofList name), Text.unescape (String.ofList text)) := by
    have front := AttributeSpan.read_written (source.take (bracketPlace tag) ++ lead)
      (trail ++ source.drop (bracketPlace tag)) name text
    rw [List.length_append, length] at front
    simpa only [new, List.append_assoc] using front
  rw [lexed'.reads_eq, start, spans, List.map_append, kept, List.map_singleton, last, h.reads_eq]

end Lexed

end Html

end Remedy
