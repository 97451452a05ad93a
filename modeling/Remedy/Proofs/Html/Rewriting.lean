import Remedy.Proofs.Html.Forms
import Remedy.Proofs.Html.Lexed

/-!
Well lexed tags in which one attribute has given way to another: the attributes before and behind it are read as they were.
-/

namespace Remedy.Html

open Text (Bytes encode sliceBytes decodeLossy isBlankByte)
open Reader

/-! ### What is read elsewhere -/

namespace AttributeSpan

theorem textAt_moved (front back : Bytes) (range : Nat × Nat) :
    textAt (front ++ back) (front.length + range.1, front.length + range.2) = textAt back range := by
  rw [textAt, sliceBytes, List.take_length_add_append, List.drop_length_add_append]
  rfl

/-- What is read of an attribute does not depend on what stands before. -/
theorem read_moved (front back : Bytes) (s : AttributeSpan) : (s.moved front.length).read (front ++ back) = s.read back := by
  rw [read, moved, textAt_moved, Option.map_map]
  simp only [Function.comp_def, textAt_moved]
  rfl

theorem written_eq_quoted (place name text : Nat) :
    AttributeSpan.written place name text = quoted place (place + name) (place + name + 1) text := by
  simp only [AttributeSpan.written, quoted, mk.injEq, and_self, and_true, true_and]
  omega

/-- What is read where a quoted value is written. -/
theorem read_quoted (start : Nat) {stop : Nat} (front rest : Bytes) (within : stop ≤ front.length) (quote : UInt8)
    (text : List Char) :
    (quoted start stop front.length (encode text).length).read (front ++ ((quote :: (encode text ++ [quote])) ++ rest)) =
      (Text.lower (textAt front (start, stop)), Text.unescape (String.ofList text)) := by
  have name : textAt (front ++ ((quote :: (encode text ++ [quote])) ++ rest)) (start, stop) = textAt front (start, stop) := by
    rw [textAt, textAt, sliceBytes, sliceBytes, List.take_append_of_le_length within]
  have value : textAt (front ++ ((quote :: (encode text ++ [quote])) ++ rest))
      (front.length + 1, front.length + 1 + (encode text).length) = String.ofList text := by
    have split : front ++ ((quote :: (encode text ++ [quote])) ++ rest) =
        (front ++ [quote]) ++ (encode text ++ ([quote] ++ rest)) := by simp
    have length : (front ++ [quote]).length = front.length + 1 := by simp
    rw [split, ← length, textAt, sliceBytes_middle, Text.decodeLossy_encode]
  rw [read, quoted, name]
  -- An empty value has no text of its own, and reads as one all the same.
  by_cases empty : text = []
  · subst empty
    rfl
  · have nonempty : (encode text).length ≠ 0 := fun nothing => empty (Text.encode_eq_nil (List.eq_nil_of_length_eq_zero nothing))
    rw [if_neg nonempty, Option.map_some, value]
    rfl

end AttributeSpan

/-! ### One attribute in place of another -/

theorem Reader.Form.endsBy {r : Reader} {before : List AttributeSpan} {form rest : Bytes} {s : AttributeSpan}
    (h : r.Form before form rest s) (sound : r.Sound) : ∀ t ∈ before, t.EndsBy r.place := by
  have equals {start stop : Nat} (reached : r = ⟨r.place, .between (.equals start stop), before⟩) :
      ∀ t ∈ before, t.EndsBy r.place := by
    have spans : r.spans = before := by rw [reached]
    rw [← spans]
    exact sound.spans
  cases h with
  | bare isName _ _ => exact sound.endsBy isName.at_
  | unquoted isValue _ _ => exact equals isValue.reached
  | quoted isQuoted _ => exact equals isQuoted.reached

theorem Reader.Form.stop {r : Reader} {before : List AttributeSpan} {form rest : Bytes} {s : AttributeSpan}
    (h : r.Form before form rest s) : s.stop = r.place + form.length := by
  cases h with
  | bare _ _ span =>
    rw [span]
    rfl
  | unquoted _ _ span => rw [span]
  | quoted _ span =>
    rw [span, List.length_cons, List.length_append]
    rfl

theorem exists_done_of_moved {p : Phase} {d stop : Nat} {selfClosing : Bool} (h : p.moved d = .done stop selfClosing) :
    ∃ stop', p = .done stop' selfClosing := by
  cases p with
  | done stop' closing =>
    obtain ⟨_, rfl⟩ := Phase.done.inj h
    exact ⟨stop', rfl⟩
  | _ => cases h

/-- Behind an attribute the same is read, whatever stands before. -/
theorem map_read_moved {front back : Bytes} {d : Nat} (length : front.length = d) (spans : List AttributeSpan) :
    (spans.map (·.moved d)).map (·.read (front ++ back)) = spans.map (·.read back) := by
  subst length
  rw [List.map_map]
  exact List.map_congr_left fun s _ => s.read_moved front back

/-- An attribute of a well lexed tag stands in the text in one of its forms, and where other bytes stand for it that read as
an attribute, the others are read as before. -/
theorem Lexed.exists_form {source : Bytes} {tag a : Node} {pre post : List Node} (h : Lexed source tag)
    (split : Html.attributes tag = pre ++ a :: post) :
    ∃ front form back before s, spanOf? a = some s ∧ source.drop tag.start = front ++ (form ++ back) ∧
      (front.foldl step (outset tag.start)).Form before form back s ∧
      ∀ form' s', form'.foldl step (front.foldl step (outset tag.start)) = behind before s' →
        let new := source.take tag.start ++ (front ++ (form' ++ back))
        (∃ stop, (run new tag.start).phase = .done stop (tag.kind == "self_closing_tag")) ∧
          ∀ tag' : Node, tag'.start = tag.start → Lexed new tag' →
            reads new tag' = pre.map (readAttribute source) ++ s'.read new :: post.map (readAttribute source) := by
  -- The spans of the tag are cut where its attributes are.
  have spans := h.attributes
  rw [split, List.map_append, List.map_cons] at spans
  obtain ⟨before, rest, spans_, front_, back_⟩ := List.map_eq_append_iff.mp spans.symm
  obtain ⟨s, after, rfl, here, after_⟩ := List.map_eq_cons_iff.mp back_
  obtain ⟨front, form, back, bytes, stands, reached⟩ :=
    (traced tag.start (source.drop tag.start)).gathered before s after spans_
  refine ⟨front, form, back, before, s, here.symm, bytes, stands, fun form' s' written => ?_⟩
  have inside : (source.take tag.start).length = tag.start := by
    obtain ⟨before_bracket, within, _⟩ := h.ends
    exact List.length_take_of_le (by omega)
  have old : run source tag.start = (onward back).moved s.stop (before ++ [s]) := by
    rw [← foldl_behind]
    exact reached.symm
  intro new
  have run_new : run new tag.start = (onward back).moved s'.stop (before ++ [s']) := by
    rw [run, List.drop_left' inside, List.foldl_append, List.foldl_append, written, foldl_behind]
  have place : (front.foldl step (outset tag.start)).place = tag.start + front.length := place_foldl _ front
  -- All that is read behind the attribute is moved by how far it ends.
  have stop' : (source.take tag.start ++ (front ++ form')).length = s'.stop := by
    have ends := congrArg Reader.place written
    rw [place_foldl, place] at ends
    rw [List.length_append, List.length_append, inside, ← Nat.add_assoc, ends]
    rfl
  have stop : (source.take tag.start ++ (front ++ form)).length = s.stop := by
    rw [stands.stop, place, List.length_append, List.length_append, inside, Nat.add_assoc]
  have whole : source = (source.take tag.start ++ (front ++ form)) ++ back := by
    rw [List.append_assoc, List.append_assoc, ← bytes, List.take_append_drop]
  have new_eq : new = (source.take tag.start ++ (front ++ form')) ++ back := by simp [new]
  constructor
  · have done := h.whole
    rw [old] at done
    obtain ⟨stop'', phase⟩ := exists_done_of_moved done
    exact ⟨s'.stop + stop'', by rw [run_new, moved, phase]; rfl⟩
  · intro tag' start lexed'
    -- The attributes before end where the text is still the same.
    have kept : before.map (·.read new) = pre.map (readAttribute source) := by
      have same : new.take (tag.start + front.length) = source.take (tag.start + front.length) := by
        have cut (middle : Bytes) : (source.take tag.start ++ (front ++ (middle ++ back))).take (tag.start + front.length) =
            source.take tag.start ++ front := by
          rw [← List.append_assoc, List.take_left' (by rw [List.length_append, inside])]
        rw [cut form', ← cut form, ← bytes, List.take_append_drop]
      have pre_ : pre.map (readAttribute source) = before.map (·.read source) := map_read front_.symm
      rw [pre_]
      refine List.map_congr_left fun t ht => ?_
      have ends := stands.endsBy ((sound_outset tag.start).foldl front) t ht
      rw [place] at ends
      exact ends.read_congr same
    -- Those behind are read from the same bytes, in another place.
    have behind_ : (((onward back).spans.map (·.moved s'.stop)).map (·.read new)) = post.map (readAttribute source) := by
      have post_ : post.map (readAttribute source) = after.map (·.read source) := map_read after_.symm
      have after__ : after = (onward back).spans.map (·.moved s.stop) := by
        have both : before ++ s :: after = (before ++ [s]) ++ (onward back).spans.map (·.moved s.stop) := by
          rw [← spans_]
          exact congrArg Reader.spans old
        simpa using both
      rw [post_, after__, new_eq, map_read_moved stop']
      conv => rhs; rw [whole]
      rw [map_read_moved stop]
    rw [lexed'.reads_eq, start, run_new, moved, List.map_append, List.map_append, kept, behind_]
    simp

/-! ### Bytes around an attribute -/

/-- Bytes that are part of no value are of ASCII. -/
theorem ascii_of_isValueByte {b : UInt8} (h : isValueByte b = false) : b.toNat < 0x80 := by
  simp only [isValueByte, isBlankByte, isQuoteByte, Bool.not_eq_false', Bool.or_eq_true, Bool.and_eq_true, beq_iff_eq,
    decide_eq_true_eq, UInt8.le_iff_toNat_le, ← UInt8.toNat_inj, UInt8.reduceToNat] at h
  omega

theorem ascii_of_isNameByte {b : UInt8} (h : isNameByte b = false) : b.toNat < 0x80 := by
  by_cases value : isValueByte b = true
  · obtain rfl : b = 0x2F := by simpa [isNameByte, value] using h
    decide
  · exact ascii_of_isValueByte (by simpa using value)

theorem ascii_of_isQuoteByte {b : UInt8} (h : isQuoteByte b = true) : b.toNat < 0x80 := by
  simp only [isQuoteByte, Bool.or_eq_true, beq_iff_eq] at h
  rcases h with rfl | rfl <;> decide

section

variable {g g' : Gap} {place : Nat} {b : UInt8}

theorem begin_ne_between : Phase.begin place b ≠ .between g := by
  fun_cases Phase.begin place b <;> simp

theorem gap_next_between (h : (g.next place b).1 = .between g') : isBlankByte b = true ∨ b = 0x3D := by
  revert h
  fun_cases Gap.next place b g <;> grind [begin_ne_between]

theorem phase_next_between {p : Phase} (h : (p.next place b).1 = .between g) :
    b = 0x3C ∨ b = 0x3E ∨ ∃ start stop value quote, p = .quoted start stop value quote := by
  revert h
  fun_cases Phase.next place b p <;> grind

end

/-- A byte behind which nothing is being read is of ASCII. -/
theorem Reader.Sound.ascii_of_between {r : Reader} {b : UInt8} {g : Gap} (sound : r.Sound)
    (h : (r.step b).phase = .between g) : b.toNat < 0x80 := by
  by_cases goes : r.phase.goesOn b = true
  · -- What goes on is a token, not a gap.
    rw [Reader.step, if_pos goes] at h
    change r.phase = _ at h
    rw [h] at goes
    cases goes
  · have ends : r.phase.goesOn b = false := by simpa using goes
    cases gap : r.phase.gap? r.place with
    | some g' =>
      rw [step_between ends gap] at h
      rcases gap_next_between h with blank | rfl
      · exact ascii_of_isValueByte (isValueByte_of_isBlankByte blank)
      · decide
    | none =>
      rw [Reader.step, if_neg goes, gap] at h
      rcases phase_next_between h with rfl | rfl | ⟨start, stop, value, quote, phase⟩
      · decide
      · decide
      · -- A quote that does not go on with its value is the one that closes it.
        have within := sound.phase
        rw [phase] at within ends
        obtain rfl : b = quote := by simpa [Phase.goesOn] using ends
        exact ascii_of_isQuoteByte within.2

section

variable {r : Reader} {b : UInt8} {gathered : List AttributeSpan}

theorem gap_next_tagName {g : Gap} {place : Nat} (h : (g.next place b).1 = .tagName) : isTagNameByte b = true := by
  have begins : Phase.begin place b ≠ .tagName := by fun_cases Phase.begin place b <;> simp
  revert h
  fun_cases Gap.next place b g <;> grind

theorem Reader.isTagNameByte_of_tagName (h : (r.step b).phase = .tagName) : isTagNameByte b = true := by
  by_cases goes : r.phase.goesOn b = true
  · rw [Reader.step, if_pos goes] at h
    change r.phase = _ at h
    rwa [h] at goes
  · have ends : r.phase.goesOn b = false := by simpa using goes
    cases gap : r.phase.gap? r.place with
    | some g =>
      rw [step_between ends gap] at h
      exact gap_next_tagName h
    | none =>
      rw [Reader.step, if_neg goes, gap] at h
      exact absurd h (by fun_cases Phase.next r.place b r.phase <;> grind)

/-- Before a name nothing is being read, but for the name of the tag. -/
theorem Reader.IsName.phase {name : Bytes} (h : IsName r gathered name) :
    r.phase = .tagName ∨ ∃ g, r.phase = .between g := by
  obtain ⟨first, rest, rfl⟩ := List.exists_cons_of_ne_nil h.nonempty
  obtain ⟨g, gap, _⟩ := h.at_
  have ends := h.begins first rfl
  have isName := h.names first List.mem_cons_self
  cases phase : r.phase with
  | tagName => exact Or.inl rfl
  | between g => exact Or.inr ⟨g, rfl⟩
  | name =>
    rw [phase, Phase.goesOn, isName] at ends
    contradiction
  | bare =>
    have isValue : isValueByte first = true := by
      rw [isNameByte, Bool.and_eq_true] at isName
      exact isName.1
    rw [phase, Phase.goesOn, isValue] at ends
    contradiction
  | _ =>
    rw [phase] at gap
    cases gap

end

/-- An attribute of a tree is its name, alone or with a value behind it, and a quoted value has a quote on each side. -/
def Composed (a : Node) : Prop :=
  match a.child? ["attribute_name"], valueNode? a with
  | some n, none => a.stop = n.stop
  | some n, some v => v.stop = a.stop ∧ n.stop < v.stop ∧ (v.kind = "quoted_attribute_value" →
      match quotedText? v with
      | some t => t.start = v.start + 1 ∧ v.stop = t.stop + 1
      | none => v.stop = v.start + 2)
  | none, _ => False

instance (a : Node) : Decidable (Composed a) := by
  unfold Composed
  split
  · infer_instance
  · split <;> infer_instance
  · infer_instance

end Remedy.Html
