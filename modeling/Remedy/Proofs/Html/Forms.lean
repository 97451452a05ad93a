import Remedy.Proofs.Html.TagReader

/-!
The forms of attributes. Whatever the reader gathers stands in the bytes as a name alone, or behind an equals sign as an
unquoted or as a quoted value, and reading goes on behind it as behind any other attribute.

So one form may give way to another: what comes behind is read as before, only farther on or less far.
-/

namespace Remedy

namespace Html

open Text (Bytes isBlankByte)

/-- Where an attribute stands whose quoted value begins at a place. -/
def AttributeSpan.quoted (start stop place text : Nat) : AttributeSpan :=
  ⟨start, place + text + 2, (start, stop), if text = 0 then none else some (place + 1, place + 1 + text)⟩

/-- Where a name stands that has no value. -/
def AttributeSpan.bare (start stop : Nat) : AttributeSpan := ⟨start, stop, (start, stop), none⟩

namespace Reader

/-- Bytes that are a name without a value, where an attribute may begin. -/
structure IsName (r : Reader) (gathered : List AttributeSpan) (name : Bytes) : Prop where
  at_ : r.At gathered
  begins : ∀ b ∈ name.head?, r.phase.goesOn b = false
  nonempty : name ≠ []
  names : ∀ b ∈ name, isNameByte b = true

/-- Bytes that are an unquoted value, behind the equals sign of an attribute whose name is known. -/
structure IsValue (r : Reader) (gathered : List AttributeSpan) (start stop : Nat) (text : Bytes) : Prop where
  reached : r = ⟨r.place, .between (.equals start stop), gathered⟩
  nonempty : text ≠ []
  values : ∀ b ∈ text, isValueByte b = true

/-- A quote that opens a value there, and bytes that do not close it. -/
structure IsQuoted (r : Reader) (gathered : List AttributeSpan) (start stop : Nat) (quote : UInt8) (text : Bytes) : Prop where
  reached : r = ⟨r.place, .between (.equals start stop), gathered⟩
  isQuote : isQuoteByte quote = true
  plain : quote ∉ text

/-- Bytes that are an attribute, or the value of one, where the reader has come to some place, and where the attribute then
stands. What follows a name or an unquoted value begins with a byte that does not go on with it. -/
inductive Form (r : Reader) (gathered : List AttributeSpan) : Bytes → Bytes → AttributeSpan → Prop where
  | bare {name rest : Bytes} {s : AttributeSpan} (isName : IsName r gathered name)
      (ends : ∃ b ∈ rest.head?, isNameByte b = false) (span : s = .bare r.place (r.place + name.length)) :
      Form r gathered name rest s
  | unquoted {start stop : Nat} {text rest : Bytes} {s : AttributeSpan} (isValue : IsValue r gathered start stop text)
      (ends : ∃ b ∈ rest.head?, isValueByte b = false)
      (span : s = ⟨start, r.place + text.length, (start, stop), some (r.place, r.place + text.length)⟩) :
      Form r gathered text rest s
  | quoted {start stop : Nat} {quote : UInt8} {text rest : Bytes} {s : AttributeSpan}
      (isQuoted : IsQuoted r gathered start stop quote text) (span : s = .quoted start stop r.place text.length) :
      Form r gathered (quote :: (text ++ [quote])) rest s

/-- The reader right behind an attribute. -/
def behind (gathered : List AttributeSpan) (s : AttributeSpan) : Reader := ⟨s.stop, .between .free, gathered ++ [s]⟩

/-- How an attribute stands in what has been read, and that reading has gone on behind it. -/
def Gathered (start : Nat) (bytes : Bytes) (before : List AttributeSpan) (s : AttributeSpan) (r : Reader) : Prop :=
  ∃ front form back, bytes = front ++ (form ++ back) ∧ Form (front.foldl step (outset start)) before form back s ∧
    back.foldl step (behind before s) = r

/-- How a name stands that may yet get a value, if more bytes come: what has been read behind it might stand behind the
attribute as well. -/
def Pending (start : Nat) (bytes : Bytes) (spans : List AttributeSpan) (place : Nat) (within : Gap → Phase) (more : Bytes) :
    Gap → Prop
  | .named first last => ∃ front name back, bytes = front ++ (name ++ back) ∧
      IsName (front.foldl step (outset start)) spans name ∧ first = start + front.length ∧ last = first + name.length ∧
      (∃ b ∈ (back ++ more).head?, isNameByte b = false) ∧
      back.foldl step (behind spans (.bare first last)) = ⟨place, within .free, spans ++ [.bare first last]⟩
  | _ => True

/-- How the part of an attribute stands that is being read. -/
def Begun (start : Nat) (bytes : Bytes) (spans : List AttributeSpan) (place : Nat) : Phase → Prop
  | .between g => Pending start bytes spans place .between [] g
  | .opening count g => Pending start bytes spans place (.opening count) [] g
  | .comment dashes g => Pending start bytes spans place (.comment dashes) [] g
  | .name first => ∃ front name, bytes = front ++ name ∧ first = start + front.length ∧
      IsName (front.foldl step (outset start)) spans name
  | .bare first last value => ∃ front text, bytes = front ++ text ∧ value = start + front.length ∧
      IsValue (front.foldl step (outset start)) spans first last text
  | .quoted first last value quote => ∃ front text, bytes = front ++ quote :: text ∧ value = start + front.length + 1 ∧
      IsQuoted (front.foldl step (outset start)) spans first last quote text
  | _ => True

/-- What is known of everything that has been read. -/
structure Traced (start : Nat) (bytes : Bytes) (r : Reader) : Prop where
  reached : bytes.foldl step (outset start) = r
  begun : Begun start bytes r.spans r.place r.phase
  gathered : ∀ before s after, r.spans = before ++ s :: after → Gathered start bytes before s r

section

variable {start : Nat} {bytes : Bytes} {r : Reader} {b : UInt8} {spans : List AttributeSpan} {g : Gap}

theorem head?_append_of_mem {α : Type} {a : α} {xs : List α} (h : a ∈ xs.head?) (ys : List α) : a ∈ (xs ++ ys).head? := by
  cases xs with
  | nil => cases h
  | cons => exact h

theorem Form.append {form rest : Bytes} {s : AttributeSpan} (h : Form r spans form rest s) (more : Bytes) :
    Form r spans form (rest ++ more) s := by
  cases h with
  | bare isName ends span =>
    obtain ⟨d, first, other⟩ := ends
    exact .bare isName ⟨d, head?_append_of_mem first more, other⟩ span
  | unquoted isValue ends span =>
    obtain ⟨d, first, other⟩ := ends
    exact .unquoted isValue ⟨d, head?_append_of_mem first more, other⟩ span
  | quoted isQuoted span => exact .quoted isQuoted span

theorem Gathered.snoc {before : List AttributeSpan} {s : AttributeSpan} (h : Gathered start bytes before s r) (b : UInt8) :
    Gathered start (bytes ++ [b]) before s (r.step b) := by
  obtain ⟨front, form, back, rfl, stands, onward⟩ := h
  refine ⟨front, form, back ++ [b], by simp, stands.append [b], ?_⟩
  rw [List.foldl_append, onward]
  rfl

theorem Pending.append {place : Nat} {within : Gap → Phase} (h : Pending start bytes spans place within [] g) (more : Bytes) :
    Pending start bytes spans place within more g := by
  cases g with
  | named first last =>
    obtain ⟨front, name, back, bytes_, isName, first_, last_, ⟨d, next, other⟩, onward⟩ := h
    rw [List.append_nil] at next
    exact ⟨front, name, back, bytes_, isName, first_, last_, ⟨d, head?_append_of_mem next more, other⟩, onward⟩
  | _ => trivial

/-- A byte that leaves the gap as it is may stand behind an attribute as well. -/
theorem Pending.snoc {place : Nat} {within later : Gap → Phase} (h : Pending start bytes spans place within [b] g)
    (same : ∀ all, (⟨place, within .free, all⟩ : Reader).step b = ⟨place + 1, later .free, all⟩) :
    Pending start (bytes ++ [b]) spans (place + 1) later [] g := by
  cases g with
  | named first last =>
    obtain ⟨front, name, back, rfl, isName, first_, last_, next, onward⟩ := h
    refine ⟨front, name, back ++ [b], by simp, isName, first_, last_, by simpa using next, ?_⟩
    rw [List.foldl_append, onward]
    exact same _
  | _ => trivial

theorem Traced.place (h : Traced start bytes r) : r.place = start + bytes.length := by
  rw [← h.reached, place_foldl]
  rfl

/-- A gap behind what is being read, if a byte does not go on with it. -/
theorem Traced.pending (h : Traced start bytes r) (ends : r.phase.goesOn b = false) (gap : r.phase.gap? r.place = some g) :
    Pending start bytes (r.spans ++ r.phase.ended r.place) r.place .between [b] g := by
  have begun := h.begun
  have place := h.place
  cases phase : r.phase with
  | between g' =>
    rw [phase] at gap begun
    obtain rfl := Option.some.inj gap
    rw [show (Phase.between g').ended r.place = [] from rfl, List.append_nil]
    exact begun.append [b]
  | name first =>
    rw [phase] at gap begun ends
    obtain rfl := Option.some.inj gap
    obtain ⟨front, name, rfl, first_, isName⟩ := begun
    rw [List.length_append] at place
    refine ⟨front, name, [], by simp, by simpa [Phase.ended] using isName, first_, by omega, ⟨b, rfl, ends⟩, ?_⟩
    simp [behind, AttributeSpan.bare, Phase.ended]
  | tagName | bare =>
    rw [phase] at gap
    obtain rfl := Option.some.inj gap
    trivial
  | _ =>
    rw [phase] at gap
    cases gap

/-- Behind an equals sign the reader is in the gap itself. -/
theorem gap?_equals {first last : Nat} (gap : r.phase.gap? r.place = some (.equals first last)) :
    r = ⟨r.place, .between (.equals first last), r.spans⟩ ∧ r.phase.ended r.place = [] := by
  obtain ⟨place, phase, spans⟩ := r
  cases phase with
  | between g =>
    obtain rfl := Option.some.inj gap
    exact ⟨rfl, rfl⟩
  | _ => cases gap

theorem IsName.snoc {name : Bytes} (h : IsName r spans name) (more : isNameByte b = true) : IsName r spans (name ++ [b]) where
  at_ := h.at_
  begins := by
    obtain ⟨first, rest, rfl⟩ := List.exists_cons_of_ne_nil h.nonempty
    exact h.begins
  nonempty := by simp
  names := List.forall_mem_append.mpr ⟨h.names, List.forall_mem_singleton.mpr more⟩

/-- A token that goes on is the token of before. -/
theorem Traced.begun_goesOn (h : Traced start bytes r) (goes : r.phase.goesOn b = true) :
    Begun start (bytes ++ [b]) r.spans (r.place + 1) r.phase := by
  have begun := h.begun
  cases phase : r.phase with
  | name first =>
    rw [phase] at goes begun
    obtain ⟨front, name, rfl, first_, isName⟩ := begun
    exact ⟨front, name ++ [b], by simp, first_, isName.snoc goes⟩
  | bare first last value =>
    rw [phase] at goes begun
    obtain ⟨front, text, rfl, value_, isValue⟩ := begun
    exact ⟨front, text ++ [b], by simp, value_, isValue.reached, by simp,
      List.forall_mem_append.mpr ⟨isValue.values, List.forall_mem_singleton.mpr goes⟩⟩
  | quoted first last value quote =>
    rw [phase] at goes begun
    obtain ⟨front, text, rfl, value_, isQuoted⟩ := begun
    have other : b ≠ quote := by simpa [Phase.goesOn] using goes
    exact ⟨front, text ++ [b], by simp, value_, isQuoted.reached, isQuoted.isQuote, by simpa [isQuoted.plain] using other.symm⟩
  | tagName => trivial
  | _ =>
    rw [phase] at goes
    cases goes

/-- A byte that begins something where an attribute may begin. -/
theorem Traced.begun_begin {gathered : List AttributeSpan} (h : Traced start bytes r) (ends : r.phase.goesOn b = false)
    (at_ : r.At gathered) : Begun start (bytes ++ [b]) gathered (r.place + 1) (.begin r.place b) := by
  fun_cases Phase.begin r.place b with
  | case3 bracket slash name =>
    refine ⟨bytes, [b], rfl, h.place, ?_⟩
    rw [h.reached]
    exact ⟨at_, by simpa using ends, by simp, by simpa using name⟩
  | _ => trivial

theorem Traced.begun_gap (h : Traced start bytes r) (ends : r.phase.goesOn b = false) (gap : r.phase.gap? r.place = some g) :
    Begun start (bytes ++ [b]) (r.spans ++ (r.phase.ended r.place ++ (g.next r.place b).2)) (r.place + 1)
      (g.next r.place b).1 := by
  have pending := h.pending ends gap
  fun_cases Gap.next r.place b g with
  | case1 g blank =>
    -- A blank leaves the gap as it is.
    rw [List.append_nil]
    refine pending.snoc fun all => ?_
    rw [step_between rfl rfl, Gap.next.eq_def, if_pos blank]
    simp [Phase.ended]
  | case2 g blank angle =>
    -- A comment may begin, behind which the gap goes on.
    rw [List.append_nil]
    refine pending.snoc fun all => ?_
    rw [step_between rfl rfl, Gap.next.eq_def, if_neg blank, if_pos angle]
    simp [Phase.ended]
  | case3 =>
    -- The name of the tag, of which nothing is known.
    simp only
    split <;> trivial
  | case4 blank angle first last quote =>
    -- A quote behind the equals sign; what is not one may begin a value without quotes.
    obtain ⟨same, nothing⟩ := gap?_equals gap
    rw [nothing, List.append_nil, List.append_nil]
    refine ⟨bytes, [], rfl, by rw [h.place], ?_⟩
    rw [h.reached]
    exact ⟨same, quote, by simp⟩
  | case5 blank angle first last quote =>
    obtain ⟨same, nothing⟩ := gap?_equals gap
    rw [nothing, List.append_nil, List.append_nil]
    simp only
    split
    · next value =>
      refine ⟨bytes, [b], rfl, h.place, ?_⟩
      rw [h.reached]
      exact ⟨same, by simp, by simpa using value⟩
    · trivial
  | case6 => exact h.begun_begin ends ⟨.free, gap, rfl, by simp [Gap.closed]⟩
  | case7 => trivial
  | case8 => exact h.begun_begin ends ⟨_, gap, rfl, rfl⟩

theorem Traced.begun_next (h : Traced start bytes r) (b : UInt8) :
    Begun start (bytes ++ [b]) (r.spans ++ (r.phase.next r.place b).2) (r.place + 1) (r.phase.next r.place b).1 := by
  have begun := h.begun
  have alone {p : Phase} (all : List AttributeSpan) (ends : p.goesOn b = false) (gap : p.gap? r.place = none) :
      (⟨r.place, p, all⟩ : Reader).step b = ⟨r.place + 1, (p.next r.place b).1, all ++ (p.next r.place b).2⟩ := by
    rw [step, if_neg (by simp [ends]), gap]
  cases phase : r.phase with
  | opening count g =>
    rw [phase] at begun
    rw [Phase.next, List.append_nil]
    -- The gap stays what it was before the comment, and so does the one behind the whole attribute.
    split
    · trivial
    · next known =>
      split
      next last =>
        exact (begun.append [b]).snoc fun all => by
          rw [alone all rfl rfl, Phase.next, if_neg known, if_pos last, List.append_nil]
      next more =>
        exact (begun.append [b]).snoc fun all => by
          rw [alone all rfl rfl, Phase.next, if_neg known, if_neg more, List.append_nil]
  | comment dashes g =>
    rw [phase] at begun
    rw [Phase.next, List.append_nil]
    split
    · next dash => exact (begun.append [b]).snoc fun all => by rw [alone all rfl rfl, Phase.next, if_pos dash, List.append_nil]
    · next other =>
      split
      · next closes =>
        exact (begun.append [b]).snoc fun all => by
          rw [alone all rfl rfl, Phase.next, if_neg other, if_pos closes, List.append_nil]
      · next inside =>
        exact (begun.append [b]).snoc fun all => by
          rw [alone all rfl rfl, Phase.next, if_neg other, if_neg inside, List.append_nil]
  | outside | slash =>
    rw [Phase.next]
    split <;> trivial
  | _ => trivial

/-- What is being read has begun as it is known to, byte by byte. -/
theorem Traced.begun_step (h : Traced start bytes r) (b : UInt8) :
    Begun start (bytes ++ [b]) (r.step b).spans (r.step b).place (r.step b).phase := by
  by_cases goes : r.phase.goesOn b = true
  · rw [step, if_pos goes]
    exact h.begun_goesOn goes
  · cases gap : r.phase.gap? r.place with
    | some g =>
      have ends : r.phase.goesOn b = false := by simpa using goes
      rw [step_between ends gap]
      exact h.begun_gap ends gap
    | none =>
      rw [step, if_neg goes, gap]
      exact h.begun_next b

/-- A byte behind a name gathers it exactly where it would begin something else behind the attribute. -/
theorem gap_next_closed (g : Gap) (place : Nat) (b : UInt8) :
    (g.next place b).2 = [] ∨ ∃ first last, g = .named first last ∧
      g.next place b = ((Gap.next place b .free).1, [.bare first last]) := by
  fun_cases Gap.next place b g with
  | case8 blank angle first last sign =>
    refine Or.inr ⟨first, last, rfl, ?_⟩
    rw [Gap.next.eq_def, if_neg blank, if_neg angle]
    rfl
  | _ => exact Or.inl rfl

theorem gap_next_free (place : Nat) (b : UInt8) : (Gap.next place b .free).2 = [] := by
  obtain nothing | ⟨_, _, other, _⟩ := gap_next_closed .free place b
  · exact nothing
  · cases other

/-- A byte gathers at most one attribute, and reading has gone on behind that one. -/
theorem Traced.grows (h : Traced start bytes r) (b : UInt8) :
    (r.step b).spans = r.spans ∨
      ∃ s, (r.step b).spans = r.spans ++ [s] ∧ Gathered start (bytes ++ [b]) r.spans s (r.step b) := by
  by_cases goes : r.phase.goesOn b = true
  · rw [step, if_pos goes]
    exact Or.inl rfl
  have ends : r.phase.goesOn b = false := by simpa using goes
  have begun := h.begun
  have place := h.place
  have free (all : List AttributeSpan) (s : AttributeSpan) (here : s.stop = r.place) :
      [b].foldl step (behind all s) = ⟨r.place + 1, (Gap.next r.place b .free).1, all ++ [s]⟩ := by
    rw [behind, here, List.foldl_cons, List.foldl_nil, step_between rfl rfl, gap_next_free]
    simp [Phase.ended]
  cases gap : r.phase.gap? r.place with
  | some g =>
    have pending := h.pending ends gap
    rw [step_between ends gap]
    cases phase : r.phase with
    | bare first last value =>
      rw [phase] at gap begun ends
      obtain rfl := Option.some.inj gap
      obtain ⟨front, text, rfl, value_, isValue⟩ := begun
      have reached : (front.foldl step (outset start)).place = value := by rw [place_foldl, value_]; rfl
      rw [List.length_append] at place
      -- The byte ends the value, and stands behind the attribute.
      refine Or.inr ⟨_, by rw [gap_next_free, List.append_nil, Phase.ended], front, text, [b], by simp,
        .unquoted isValue ⟨b, rfl, ends⟩ ?_, ?_⟩
      · rw [reached, show value + text.length = r.place by omega]
      · rw [free _ _ rfl, gap_next_free, List.append_nil]
        rfl
    | _ =>
      rw [phase] at gap pending
      obtain nothing | ⟨first, last, rfl, next⟩ := gap_next_closed g r.place b
      · exact Or.inl (by simp [nothing, Phase.ended])
      · obtain ⟨front, name, back, rfl, isName, first_, last_, parts, onward⟩ := pending
        have reached : (front.foldl step (outset start)).place = first := by rw [place_foldl, first_]; rfl
        -- What has been read behind the name might stand behind the attribute, and so may the byte.
        refine Or.inr ⟨.bare first last, by simp [next, Phase.ended], front, name, back ++ [b], by simp,
          .bare (by simpa [Phase.ended] using isName) parts (by rw [reached, last_]), ?_⟩
        simp only [Phase.ended, List.append_nil] at onward
        rw [List.foldl_append, onward, List.foldl_cons, List.foldl_nil, step_between rfl rfl, gap_next_free]
        simp [next, Phase.ended]
  | none =>
    rw [step, if_neg goes, gap]
    cases phase : r.phase with
    | quoted first last value quote =>
      rw [phase] at begun ends
      obtain ⟨front, text, rfl, value_, isQuoted⟩ := begun
      have reached : (front.foldl step (outset start)).place + 1 = value := by rw [place_foldl, value_]; rfl
      rw [List.length_append, List.length_cons] at place
      obtain rfl : b = quote := by simpa [Phase.goesOn] using ends
      refine Or.inr ⟨_, rfl, front, _, [], by simp, .quoted isQuoted ?_, rfl⟩
      have empty : text.length = 0 ↔ value = r.place := by omega
      simp only [AttributeSpan.quoted, AttributeSpan.mk.injEq, true_and, empty, reached,
        show value + text.length = r.place by omega, and_true]
      omega
    | _ => exact Or.inl (List.append_nil _)

theorem Traced.step (h : Traced start bytes r) (b : UInt8) : Traced start (bytes ++ [b]) (r.step b) where
  reached := by
    rw [List.foldl_append, h.reached]
    rfl
  begun := h.begun_step b
  gathered before s after split := by
    obtain same | ⟨new, more, here⟩ := h.grows b
    · exact (h.gathered before s after (same.symm.trans split)).snoc b
    · rw [more] at split
      -- It is the one that the byte gathers, or one of those before.
      rcases List.eq_nil_or_concat after with rfl | ⟨after, last, rfl⟩
      · obtain ⟨rfl, same⟩ := List.append_inj' split rfl
        obtain rfl := List.singleton_inj.mp same
        exact here
      · rw [List.concat_eq_append, ← List.cons_append, ← List.append_assoc] at split
        exact (h.gathered before s after (List.append_inj' split rfl).1).snoc b

theorem Traced.foldl (h : Traced start bytes r) (more : Bytes) : Traced start (bytes ++ more) (more.foldl Reader.step r) := by
  induction more generalizing bytes r with
  | nil => simpa using h
  | cons b rest ih =>
    rw [List.append_cons, List.foldl_cons]
    exact ih (h.step b)

/-- **Every attribute that is gathered stands in the bytes in one of its forms.** -/
theorem traced (start : Nat) (bytes : Bytes) : Traced start bytes (bytes.foldl Reader.step (outset start)) := by
  have begins : Traced start [] (outset start) := ⟨rfl, trivial, fun before s after split => by simp [outset] at split⟩
  exact begins.foldl bytes

end

/-! ### Other forms in the same place -/

section

variable {r : Reader} {gathered : List AttributeSpan}

theorem IsName.foldl {name : Bytes} (h : IsName r gathered name) :
    name.foldl step r = ⟨r.place + name.length, .name r.place, gathered⟩ := by
  obtain ⟨first, rest, rfl⟩ := List.exists_cons_of_ne_nil h.nonempty
  obtain ⟨g, gap, free, rfl⟩ := h.at_
  have begun : r.step first = ⟨r.place + 1, .name r.place, r.spans ++ (r.phase.ended r.place ++ g.closed)⟩ := by
    rw [step_between (h.begins first rfl) gap, next_of_isNameByte free (h.names first List.mem_cons_self)]
  have more : ∀ d ∈ rest, (r.step first).phase.goesOn d = true := by
    rw [begun]
    exact fun d hd => h.names d (List.mem_cons_of_mem first hd)
  rw [List.foldl_cons, foldl_goesOn more, begun, List.length_cons, mk.injEq]
  exact ⟨Nat.add_right_comm r.place 1 rest.length, rfl, rfl⟩

/-- A quoted value is read up to its quote. -/
theorem IsQuoted.foldl {start stop : Nat} {quote : UInt8} {text : Bytes} (h : IsQuoted r gathered start stop quote text) :
    (quote :: (text ++ [quote])).foldl step r = behind gathered (.quoted start stop r.place text.length) := by
  obtain ⟨reached, isQuote, plain⟩ := h
  generalize r.place = place at reached
  subst reached
  have opened : (⟨place, .between (.equals start stop), gathered⟩ : Reader).step quote =
      ⟨place + 1, .quoted start stop (place + 1) quote, gathered⟩ := by
    have other : isBlankByte quote = false ∧ quote ≠ 0x3C := by
      simp only [isQuoteByte, Bool.or_eq_true, beq_iff_eq] at isQuote
      rcases isQuote with rfl | rfl <;> decide
    rw [step_between rfl rfl, Gap.next.eq_def, other.1, beq_eq_false_iff_ne.mpr other.2, isQuote]
    simp [Phase.ended]
  have inside : text.foldl step ⟨place + 1, .quoted start stop (place + 1) quote, gathered⟩ =
      ⟨place + 1 + text.length, .quoted start stop (place + 1) quote, gathered⟩ := by
    apply foldl_goesOn
    intro d hd
    simpa [Phase.goesOn] using fun same : d = quote => plain (same ▸ hd)
  rw [List.foldl_cons, opened, List.foldl_append, inside, List.foldl_cons, List.foldl_nil]
  simp [step, Phase.goesOn, Phase.gap?, Phase.next, behind, AttributeSpan.quoted]
  omega

/-- An attribute that is written where one may begin. -/
theorem IsName.written {name text : Bytes} (h : IsName r gathered name) (plain : 0x22 ∉ text) :
    (Html.written name text).foldl step r =
      behind gathered (.quoted r.place (r.place + name.length) (r.place + name.length + 1) text.length) := by
  have equals : (⟨r.place + name.length, .name r.place, gathered⟩ : Reader).step 0x3D =
      ⟨r.place + name.length + 1, .between (.equals r.place (r.place + name.length)), gathered⟩ := by
    simp [step, Phase.goesOn, Phase.gap?, Phase.ended, Gap.next, isNameByte, isValueByte, isBlankByte]
  have value : IsQuoted ⟨r.place + name.length + 1, .between (.equals r.place (r.place + name.length)), gathered⟩ gathered
      r.place (r.place + name.length) 0x22 text := ⟨rfl, rfl, plain⟩
  have split : Html.written name text = name ++ (0x3D :: (0x22 :: (text ++ [0x22]))) := rfl
  rw [split, List.foldl_append, h.foldl, List.foldl_cons, equals, value.foldl]

end

end Reader

/-! ### What comes behind -/

def AttributeSpan.moved (d : Nat) (s : AttributeSpan) : AttributeSpan :=
  ⟨d + s.start, d + s.stop, (d + s.name.1, d + s.name.2), s.text.map fun range => (d + range.1, d + range.2)⟩

def Gap.moved (d : Nat) : Gap → Gap
  | named start stop => named (d + start) (d + stop)
  | equals start stop => equals (d + start) (d + stop)
  | g => g

def Phase.moved (d : Nat) : Phase → Phase
  | between g => between (g.moved d)
  | name start => name (d + start)
  | bare start stop value => bare (d + start) (d + stop) (d + value)
  | quoted start stop value quote => quoted (d + start) (d + stop) (d + value) quote
  | opening count g => opening count (g.moved d)
  | comment dashes g => comment dashes (g.moved d)
  | done stop selfClosing => done (d + stop) selfClosing
  | p => p

section

variable {d place : Nat} {b : UInt8}

theorem Phase.goesOn_moved (p : Phase) : (p.moved d).goesOn b = p.goesOn b := by
  cases p <;> rfl

theorem Phase.gap?_moved (p : Phase) : (p.moved d).gap? (d + place) = (p.gap? place).map (·.moved d) := by
  cases p <;> rfl

theorem Phase.ended_moved (p : Phase) : (p.moved d).ended (d + place) = (p.ended place).map (·.moved d) := by
  cases p <;> rfl

theorem Phase.begin_moved : begin (d + place) b = (begin place b).moved d := by
  rw [begin, begin]
  split
  · rfl
  · split
    · rfl
    · split <;> rfl

theorem Gap.next_moved (g : Gap) :
    (g.moved d).next (d + place) b = ((g.next place b).1.moved d, (g.next place b).2.map (·.moved d)) := by
  rw [next.eq_def, next.eq_def]
  split
  · rfl
  · split
    · rfl
    · cases g with
      | opened =>
        simp only [moved]
        split <;> rfl
      | equals =>
        simp only [moved]
        split
        · rfl
        · split <;> rfl
      | free => simp only [moved, Phase.begin_moved, List.map_nil]
      | named =>
        simp only [moved, Phase.begin_moved]
        split <;> rfl

theorem Phase.next_moved (p : Phase) :
    (p.moved d).next (d + place) b = ((p.next place b).1.moved d, (p.next place b).2.map (·.moved d)) := by
  cases p with
  | outside | slash =>
    simp only [moved, next]
    split <;> rfl
  | quoted start stop value quote =>
    simp only [moved, next, Nat.add_left_cancel_iff]
    split <;> rfl
  | opening count g =>
    simp only [moved, next]
    split
    · rfl
    · split <;> rfl
  | comment dashes g =>
    simp only [moved, next]
    split
    · rfl
    · split <;> rfl
  | _ => rfl

end

namespace Reader

/-- What has been read, as if it stood so much farther on, behind other attributes. -/
def moved (d : Nat) (gathered : List AttributeSpan) (r : Reader) : Reader :=
  ⟨d + r.place, r.phase.moved d, gathered ++ r.spans.map (·.moved d)⟩

theorem step_moved (d : Nat) (gathered : List AttributeSpan) (r : Reader) (b : UInt8) :
    (r.moved d gathered).step b = (r.step b).moved d gathered := by
  rw [step, step]
  simp only [moved, Phase.goesOn_moved, Phase.gap?_moved, Phase.ended_moved, Phase.next_moved]
  split
  · rfl
  · cases r.phase.gap? r.place with
    | none => simp [Nat.add_assoc]
    | some g => simp [Gap.next_moved, Nat.add_assoc]

theorem foldl_moved (d : Nat) (gathered : List AttributeSpan) (r : Reader) (bytes : Bytes) :
    bytes.foldl step (r.moved d gathered) = (bytes.foldl step r).moved d gathered := by
  induction bytes generalizing r with
  | nil => rfl
  | cons b rest ih => rw [List.foldl_cons, List.foldl_cons, step_moved, ih]

/-- What is read behind an attribute, as if nothing stood before. -/
def onward (back : Bytes) : Reader := back.foldl step ⟨0, .between .free, []⟩

theorem foldl_behind (gathered : List AttributeSpan) (s : AttributeSpan) (back : Bytes) :
    back.foldl step (behind gathered s) = (onward back).moved s.stop (gathered ++ [s]) := by
  rw [onward, ← foldl_moved]
  simp [behind, moved, Phase.moved, Gap.moved]

end Reader

end Html

end Remedy
