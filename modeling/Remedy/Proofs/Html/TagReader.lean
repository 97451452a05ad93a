import Remedy.Candidate.Basic

/-!
Reading a tag byte by byte, after the grammar of HTML: a name, then attributes, up to the bracket that no quotes hide. An
unquoted value is the longest run of bytes other than blanks, quotes, equals signs and angle brackets; comments may stand
wherever blanks may.

Where attributes stand is settled byte by byte, so what follows a place says nothing about the attributes that end before
it, and an attribute that is written where one may begin is read as one.
-/

namespace Remedy

namespace Html

open Text (Bytes isBlankByte)

/-! ### Where attributes stand -/

/-- Where an attribute, its name and the text of its value stand. An attribute that has no value, or an empty one, has no
text. -/
structure AttributeSpan where
  start : Nat
  stop : Nat
  name : Nat × Nat
  text : Option (Nat × Nat)
  deriving DecidableEq, Repr

/-- All of an attribute stands before a place. -/
structure AttributeSpan.EndsBy (s : AttributeSpan) (place : Nat) : Prop where
  whole : s.stop ≤ place
  name : s.name.2 ≤ place
  text : ∀ range ∈ s.text, range.2 ≤ place

/-- An attribute as it is written. -/
def written (name text : Bytes) : Bytes := name ++ ([0x3D, 0x22] ++ (text ++ [0x22]))

/-- Where an attribute stands that is written at a place. -/
def AttributeSpan.written (place name text : Nat) : AttributeSpan :=
  let value := place + name + 2
  ⟨place, value + text + 1, (place, place + name), if text = 0 then none else some (value, value + text)⟩

/-! ### The reader -/

def isQuoteByte (b : UInt8) : Bool := b == 0x22 || b == 0x27

/-- Bytes that an unquoted value goes on with: no blanks, quotes, equals signs or angle brackets. -/
def isValueByte (b : UInt8) : Bool := !(isBlankByte b || isQuoteByte b || (0x3C ≤ b && b ≤ 0x3E))

/-- Bytes that the name of an attribute goes on with: those of unquoted values without the slash. -/
def isNameByte (b : UInt8) : Bool := isValueByte b && b != 0x2F

/-- Bytes that the name of a tag goes on with. -/
def isTagNameByte (b : UInt8) : Bool :=
  (0x30 ≤ b && b ≤ 0x39) || (0x41 ≤ b && b ≤ 0x5A) || (0x61 ≤ b && b ≤ 0x7A) || b == 0x2D || b == 0x3A

/-- What comments begin with. -/
def commentStart : Bytes := [0x3C, 0x21, 0x2D, 0x2D]

/-- What the reader is between two tokens of a tag: behind the opening bracket, between attributes, behind the name of an
attribute that may yet get a value, or behind its equals sign. Offsets say where the name begins and ends. -/
inductive Gap where
  | opened
  | free
  | named (start stop : Nat)
  | equals (start stop : Nat)
  deriving DecidableEq, Repr

/-- What the reader is in the middle of. Offsets say where the name of an attribute begins and ends and where its value
begins. -/
inductive Phase where
  /-- Before the opening bracket. -/
  | outside
  | between (g : Gap)
  | tagName
  | name (start : Nat)
  | bare (start stop value : Nat)
  | quoted (start stop value : Nat) (quote : UInt8)
  /-- Behind a slash that ends the tag. -/
  | slash
  /-- In the first bytes of a comment, so many of which have been read. -/
  | opening (count : Nat) (g : Gap)
  /-- In a comment, behind so many dashes. -/
  | comment (dashes : Nat) (g : Gap)
  | done (stop : Nat) (selfClosing : Bool)
  /-- The bytes are no tag. -/
  | stuck
  deriving DecidableEq, Repr

/-- The attribute that is complete if no equals sign follows. -/
def Gap.closed : Gap → List AttributeSpan
  | named start stop => [⟨start, stop, (start, stop), none⟩]
  | _ => []

/-- Whether an attribute may begin. -/
def Gap.isFree : Gap → Bool
  | free => true
  | named _ _ => true
  | _ => false

/-- What a byte begins where an attribute may begin. -/
def Phase.begin (place : Nat) (b : UInt8) : Phase :=
  if b == 0x3E then .done (place + 1) false
  else if b == 0x2F then .slash
  else if isNameByte b then .name place
  else .stuck

/-- What a byte begins between two tokens. -/
def Gap.next (place : Nat) (b : UInt8) (g : Gap) : Phase × List AttributeSpan :=
  if isBlankByte b then (.between g, [])
  else if b == 0x3C then (.opening 1 g, [])
  else match g with
    | opened => (if isTagNameByte b then .tagName else .stuck, [])
    | equals start stop =>
      if isQuoteByte b then (.quoted start stop (place + 1) b, [])
      else (if isValueByte b then .bare start stop place else .stuck, [])
    | free => (.begin place b, [])
    | named start stop =>
      if b == 0x3D then (.between (.equals start stop), []) else (.begin place b, (named start stop).closed)

namespace Phase

/-- Whether a byte goes on with the token that is being read. -/
def goesOn (b : UInt8) : Phase → Bool
  | tagName => isTagNameByte b
  | name _ => isNameByte b
  | bare _ _ _ => isValueByte b
  | quoted _ _ _ quote => b != quote
  | _ => false

/-- The gap behind what is being read, if it can end at a place. -/
def gap? (place : Nat) : Phase → Option Gap
  | between g => some g
  | tagName => some .free
  | name start => some (.named start place)
  | bare _ _ _ => some .free
  | _ => none

/-- The attribute whose value ends at a place. -/
def ended (place : Nat) : Phase → List AttributeSpan
  | bare start stop value => [⟨start, place, (start, stop), some (value, place)⟩]
  | _ => []

/-- What a byte makes of what is no gap and ends with it. -/
def next (place : Nat) (b : UInt8) : Phase → Phase × List AttributeSpan
  | outside => (if b == 0x3C then between .opened else stuck, [])
  | quoted start stop value _ =>
    (between .free, [⟨start, place + 1, (start, stop), if value = place then none else some (value, place)⟩])
  | slash => (if b == 0x3E then done (place + 1) true else stuck, [])
  | opening count g =>
    (if commentStart[count]? != some b then stuck else if count = 3 then comment 0 g else opening (count + 1) g, [])
  | comment dashes g =>
    (if b == 0x2D then comment (dashes + 1) g else if b == 0x3E && 2 ≤ dashes then between g else comment 0 g, [])
  | done stop selfClosing => (done stop selfClosing, [])
  | _ => (stuck, [])

end Phase

/-- How far a tag has been read: where the next byte stands, what it falls into, and the attributes so far. -/
structure Reader where
  place : Nat
  phase : Phase
  spans : List AttributeSpan
  deriving DecidableEq, Repr

namespace Reader

def step (r : Reader) (b : UInt8) : Reader :=
  if r.phase.goesOn b then { r with place := r.place + 1 }
  else match r.phase.gap? r.place with
    | some g => ⟨r.place + 1, (g.next r.place b).1, r.spans ++ (r.phase.ended r.place ++ (g.next r.place b).2)⟩
    | none => ⟨r.place + 1, (r.phase.next r.place b).1, r.spans ++ (r.phase.next r.place b).2⟩

/-- The reader before a tag. -/
def outset (start : Nat) : Reader := ⟨start, .outside, []⟩

/-- Reads the bytes from a place on. -/
def run (source : Bytes) (start : Nat) : Reader := (source.drop start).foldl step (outset start)

end Reader

/-! ### Bytes of names and values -/

theorem isBlankByte_of_isNameByte {b : UInt8} (h : isNameByte b = true) : isBlankByte b = false := by
  rw [isNameByte, isValueByte, Bool.and_eq_true, Bool.not_eq_true', Bool.or_eq_false_iff, Bool.or_eq_false_iff] at h
  exact h.1.1.1

theorem bne_of_isNameByte {b d : UInt8} (h : isNameByte b = true) (no : isNameByte d = false) : (b == d) = false := by
  rw [beq_eq_false_iff_ne]
  rintro rfl
  rw [h] at no
  contradiction

theorem begin_of_isNameByte {b : UInt8} (h : isNameByte b = true) (place : Nat) : Phase.begin place b = .name place := by
  have bracket : (b == 0x3E) = false := bne_of_isNameByte h rfl
  have slash : (b == 0x2F) = false := bne_of_isNameByte h rfl
  rw [Phase.begin, bracket, slash, h]
  rfl

/-- An attribute begins with a byte that goes on with its name. -/
theorem next_of_isNameByte {g : Gap} (free : g.isFree = true) {b : UInt8} (h : isNameByte b = true) (place : Nat) :
    g.next place b = (.name place, g.closed) := by
  have angle : (b == 0x3C) = false := bne_of_isNameByte h rfl
  have sign : (b == 0x3D) = false := bne_of_isNameByte h rfl
  rw [Gap.next.eq_def, isBlankByte_of_isNameByte h, angle]
  cases g with
  | free => simp [begin_of_isNameByte h, Gap.closed]
  | named => simp [sign, begin_of_isNameByte h]
  | opened => cases free
  | equals => cases free

theorem isValueByte_of_isBlankByte {b : UInt8} (h : isBlankByte b = true) : isValueByte b = false := by
  rw [isValueByte, h]
  rfl

theorem isTagNameByte_of_isBlankByte {b : UInt8} (h : isBlankByte b = true) : isTagNameByte b = false := by
  simp only [isBlankByte, Bool.or_eq_true, Bool.and_eq_true, decide_eq_true_eq, beq_iff_eq, UInt8.le_iff_toNat_le,
    ← UInt8.toNat_inj, UInt8.reduceToNat] at h
  simp only [isTagNameByte, Bool.or_eq_false_iff, Bool.and_eq_false_iff, decide_eq_false_iff_not, beq_eq_false_iff_ne,
    UInt8.le_iff_toNat_le, ne_eq, ← UInt8.toNat_inj, UInt8.reduceToNat]
  omega

/-! ### How the reader goes -/

namespace Reader

@[simp] theorem place_step (r : Reader) (b : UInt8) : (r.step b).place = r.place + 1 := by
  rw [step]
  split
  · rfl
  · split <;> rfl

@[simp] theorem place_foldl (r : Reader) (bytes : Bytes) : (bytes.foldl step r).place = r.place + bytes.length := by
  induction bytes generalizing r with
  | nil => rfl
  | cons b rest ih => rw [List.foldl_cons, ih, place_step, List.length_cons]; omega

/-- Bytes that go on with a token only lengthen it. -/
theorem foldl_goesOn {r : Reader} {bytes : Bytes} (h : ∀ b ∈ bytes, r.phase.goesOn b = true) :
    bytes.foldl step r = { r with place := r.place + bytes.length } := by
  induction bytes generalizing r with
  | nil => rfl
  | cons b rest ih =>
    have first : r.step b = { r with place := r.place + 1 } := by rw [step, if_pos (h b List.mem_cons_self)]
    have more : ∀ d ∈ rest, (r.step b).phase.goesOn d = true := by
      rw [first]
      exact fun d hd => h d (List.mem_cons_of_mem b hd)
    rw [List.foldl_cons, ih more, first, List.length_cons, mk.injEq]
    exact ⟨Nat.add_right_comm r.place 1 rest.length, rfl, rfl⟩

/-- Nothing is read behind a tag. -/
theorem foldl_done {r : Reader} {stop : Nat} {selfClosing : Bool} (h : r.phase = .done stop selfClosing) (bytes : Bytes) :
    (bytes.foldl step r).phase = .done stop selfClosing ∧ (bytes.foldl step r).spans = r.spans := by
  induction bytes generalizing r with
  | nil => exact ⟨h, rfl⟩
  | cons b rest ih =>
    have first : r.step b = { r with place := r.place + 1 } := by
      simp [step, Phase.goesOn, Phase.gap?, Phase.next, h]
    rw [List.foldl_cons, first]
    exact ih h

/-- What comes after a token that a byte does not go on with. -/
theorem step_between {r : Reader} {b : UInt8} {g : Gap} (ends : r.phase.goesOn b = false)
    (gap : r.phase.gap? r.place = some g) :
    r.step b = ⟨r.place + 1, (g.next r.place b).1, r.spans ++ (r.phase.ended r.place ++ (g.next r.place b).2)⟩ := by
  rw [step, if_neg (by simp [ends]), gap]

/-- An attribute may begin here, after those gathered. -/
def At (r : Reader) (gathered : List AttributeSpan) : Prop :=
  ∃ g, r.phase.gap? r.place = some g ∧ g.isFree = true ∧ r.spans ++ (r.phase.ended r.place ++ g.closed) = gathered

section

variable {r : Reader} {b : UInt8} {gathered : List AttributeSpan}

/-- What begins outside of gaps leaves the reader in a gap only behind it. -/
theorem phase_next_gap {p : Phase} {place after : Nat} {g : Gap} (gap : (p.next place b).1.gap? after = some g) :
    ∃ g', (p.next place b).1 = .between g' := by
  revert gap
  fun_cases Phase.next place b p <;> grind [Phase.gap?]

/-- A token behind which there is a gap ends at a byte that stands in no name and no value. -/
theorem goesOn_eq_false {p : Phase} {place : Nat} {g : Gap} (gap : p.gap? place = some g) (value : isValueByte b = false)
    (tag : isTagNameByte b = false) : p.goesOn b = false := by
  have name : isNameByte b = false := by rw [isNameByte, value, Bool.false_and]
  cases p with
  | quoted => cases gap
  | tagName => exact tag
  | name => exact name
  | bare => exact value
  | _ => rfl

theorem At.step_bracket (h : r.At gathered) :
    r.step 0x3E = ⟨r.place + 1, .done (r.place + 1) false, gathered⟩ := by
  obtain ⟨g, gap, free, rfl⟩ := h
  rw [step_between (goesOn_eq_false gap (by decide) (by decide)) gap]
  cases g with
  | free => rfl
  | named => rfl
  | opened => cases free
  | equals => cases free

theorem At.step_slash (h : r.At gathered) (ends : r.phase.goesOn 0x2F = false) :
    r.step 0x2F = ⟨r.place + 1, .slash, gathered⟩ := by
  obtain ⟨g, gap, free, rfl⟩ := h
  rw [step_between ends gap]
  cases g with
  | free => rfl
  | named => rfl
  | opened => cases free
  | equals => cases free

/-- Blanks end what is being read, and nothing else. -/
theorem At.step_blank (h : r.At gathered) (blank : isBlankByte b = true) :
    (r.step b).At gathered ∧ ∃ g, (r.step b).phase = .between g := by
  obtain ⟨g, gap, free, rfl⟩ := h
  have ends := goesOn_eq_false gap (isValueByte_of_isBlankByte blank) (isTagNameByte_of_isBlankByte blank)
  have next : g.next r.place b = (.between g, []) := by rw [Gap.next.eq_def, if_pos blank]
  rw [step_between ends gap, next]
  exact ⟨⟨g, rfl, free, by simp [Phase.ended]⟩, g, rfl⟩

theorem At.foldl_blank (h : r.At gathered) {blanks : Bytes} (blank : ∀ b ∈ blanks, isBlankByte b = true) :
    (blanks.foldl step r).At gathered ∧
      (blanks ≠ [] ∨ (∃ g, r.phase = .between g) → ∃ g, (blanks.foldl step r).phase = .between g) := by
  induction blanks generalizing r with
  | nil => exact ⟨h, by simp⟩
  | cons b rest ih =>
    obtain ⟨kept, between⟩ := h.step_blank (blank b List.mem_cons_self)
    obtain ⟨at_, later⟩ := ih kept fun d hd => blank d (List.mem_cons_of_mem b hd)
    exact ⟨at_, fun _ => later (Or.inr between)⟩

/-- Behind a blank nothing is being read. -/
theorem At.between_of_blank (h : (r.step b).At gathered) (blank : isBlankByte b = true) :
    ∃ g, (r.step b).phase = .between g := by
  obtain ⟨g, gap, _⟩ := h
  by_cases goes : r.phase.goesOn b = true
  · -- No token goes on over a blank and has a gap behind it.
    rw [step, if_pos goes] at gap
    have ends := goesOn_eq_false gap (isValueByte_of_isBlankByte blank) (isTagNameByte_of_isBlankByte blank)
    rw [ends] at goes
    contradiction
  · have ends : r.phase.goesOn b = false := by simpa using goes
    cases before : r.phase.gap? r.place with
    | some g' =>
      rw [step_between ends before, Gap.next.eq_def, if_pos blank]
      exact ⟨g', rfl⟩
    | none =>
      rw [step, if_neg goes, before] at gap ⊢
      exact phase_next_gap gap

/-- In a gap, a byte of a name begins an attribute. -/
theorem At.step_name (h : r.At gathered) {g : Gap} (between : r.phase = .between g) (name : isNameByte b = true) :
    r.step b = ⟨r.place + 1, .name r.place, gathered⟩ := by
  obtain ⟨g', gap, free, rfl⟩ := h
  obtain rfl : g = g' := Option.some.inj (by rwa [between] at gap)
  rw [step_between (by rw [between]; rfl) gap, between, next_of_isNameByte free name]

/-- **A written attribute is read as one.** Blanks around it say nothing, but where nothing else parts it from what is being
read, one must stand before it. -/
theorem At.foldl_attribute (h : r.At gathered) {lead name text trail : Bytes}
    (blank : ∀ b ∈ lead ++ trail, isBlankByte b = true) (apart : lead ≠ [] ∨ ∃ g, r.phase = .between g)
    (names : ∀ b ∈ name, isNameByte b = true) (nonempty : name ≠ []) (plain : 0x22 ∉ text) :
    ((lead ++ (written name text ++ trail)).foldl step r).At
        (gathered ++ [AttributeSpan.written (r.place + lead.length) name.length text.length]) ∧
      ∃ g, ((lead ++ (written name text ++ trail)).foldl step r).phase = .between g := by
  obtain ⟨at_, between⟩ := h.foldl_blank fun b hb => blank b (List.mem_append_left trail hb)
  obtain ⟨g, between⟩ := between apart
  rw [List.foldl_append, List.foldl_append]
  have place : (lead.foldl step r).place = r.place + lead.length := place_foldl r lead
  generalize lead.foldl step r = q at at_ between place ⊢
  rw [← place]
  cases name with
  | nil => exact absurd rfl nonempty
  | cons first rest =>
    let stop := q.place + (first :: rest).length
    let value := stop + 2
    -- The name, the quote that opens the value, the value, and the quote that closes it.
    have begun := at_.step_name between (names first List.mem_cons_self)
    have named : (first :: rest).foldl step q = ⟨stop, .name q.place, gathered⟩ := by
      have more : ∀ d ∈ rest, (q.step first).phase.goesOn d = true := by
        rw [begun]
        exact fun d hd => names d (List.mem_cons_of_mem first hd)
      rw [List.foldl_cons, foldl_goesOn more, begun]
      simp only [stop, List.length_cons, mk.injEq, and_self, and_true]
      omega
    have quoted : [0x3D, 0x22].foldl step ⟨stop, .name q.place, gathered⟩ =
        ⟨value, .quoted q.place stop value 0x22, gathered⟩ := by
      simp [step, Phase.goesOn, Phase.gap?, Phase.ended, Gap.next, value, isNameByte, isValueByte, isBlankByte, isQuoteByte]
    have inside : text.foldl step ⟨value, .quoted q.place stop value 0x22, gathered⟩ =
        ⟨value + text.length, .quoted q.place stop value 0x22, gathered⟩ := by
      apply foldl_goesOn
      intro d hd
      simpa [Phase.goesOn] using fun same : d = 0x22 => plain (same ▸ hd)
    have whole : (Html.written (first :: rest) text).foldl step q = ⟨value + text.length + 1, .between .free,
        gathered ++ [AttributeSpan.written q.place (first :: rest).length text.length]⟩ := by
      rw [Html.written, List.foldl_append, named, List.foldl_append, quoted, List.foldl_append, inside]
      simp [step, Phase.goesOn, Phase.gap?, Phase.next, AttributeSpan.written, value, stop]
    have after : (⟨value + text.length + 1, .between .free,
        gathered ++ [AttributeSpan.written q.place (first :: rest).length text.length]⟩ : Reader).At
          (gathered ++ [AttributeSpan.written q.place (first :: rest).length text.length]) :=
      ⟨.free, rfl, rfl, by simp [Phase.ended, Gap.closed]⟩
    rw [whole]
    obtain ⟨last, still⟩ := after.foldl_blank fun b hb => blank b (List.mem_append_right lead hb)
    exact ⟨last, still (Or.inr ⟨.free, rfl⟩)⟩

end

end Reader

/-! ### What has been read stands before the place -/

/-- The name of an attribute that may get a value stands before a place. -/
def Gap.Within (place : Nat) : Gap → Prop
  | named start stop => start < place ∧ stop ≤ place
  | equals start stop => start < place ∧ stop ≤ place
  | _ => True

/-- What has been read of an attribute stands before a place, and quotes are quotes. -/
def Phase.Within (place : Nat) : Phase → Prop
  | between g => g.Within place
  | name start => start < place
  | bare start stop _ => start + 1 < place ∧ stop ≤ place
  | quoted _ stop _ quote => stop ≤ place ∧ isQuoteByte quote = true
  | opening _ g => g.Within place
  | comment _ g => g.Within place
  | _ => True

section

variable {g : Gap} {p : Phase} {place : Nat}

theorem Gap.Within.succ (h : g.Within place) : g.Within (place + 1) := by
  cases g with
  | named => exact ⟨Nat.lt_succ_of_lt h.1, Nat.le_succ_of_le h.2⟩
  | equals => exact ⟨Nat.lt_succ_of_lt h.1, Nat.le_succ_of_le h.2⟩
  | _ => trivial

theorem Phase.Within.succ (h : p.Within place) : p.Within (place + 1) := by
  cases p with
  | between | opening | comment => exact Gap.Within.succ h
  | name => exact Nat.lt_succ_of_lt h
  | bare => exact ⟨Nat.lt_succ_of_lt h.1, Nat.le_succ_of_le h.2⟩
  | quoted => exact ⟨Nat.le_succ_of_le h.1, h.2⟩
  | _ => trivial

theorem AttributeSpan.EndsBy.succ {s : AttributeSpan} (h : s.EndsBy place) : s.EndsBy (place + 1) where
  whole := Nat.le_succ_of_le h.whole
  name := Nat.le_succ_of_le h.name
  text range member := Nat.le_succ_of_le (h.text range member)

theorem Gap.Within.closed (h : g.Within place) : ∀ s ∈ g.closed, s.EndsBy place := by
  cases g with
  | named start stop => simpa [Gap.closed] using ⟨h.2, h.2, by simp⟩
  | _ => simp [Gap.closed]

theorem Phase.Within.ended (h : p.Within place) : ∀ s ∈ p.ended place, s.EndsBy place := by
  cases p with
  | bare start stop value => simpa [Phase.ended] using ⟨Nat.le_refl place, h.2, by simp⟩
  | _ => simp [Phase.ended]

theorem Phase.Within.gap (h : p.Within place) (gap : p.gap? place = some g) : g.Within place := by
  cases p with
  | between g' =>
    obtain rfl := Option.some.inj gap
    exact h
  | name start =>
    obtain rfl := Option.some.inj gap
    exact ⟨h, Nat.le_refl place⟩
  | tagName | bare =>
    obtain rfl := Option.some.inj gap
    trivial
  | _ => cases gap

theorem Phase.within_begin (place : Nat) (b : UInt8) : (begin place b).Within (place + 1) := by
  fun_cases begin place b with
  | case3 => exact Nat.lt_succ_self place
  | _ => trivial

theorem Gap.Within.next (h : g.Within place) (b : UInt8) :
    (g.next place b).1.Within (place + 1) ∧ ∀ s ∈ (g.next place b).2, s.EndsBy (place + 1) := by
  have later := h.succ
  have vacuous (s : AttributeSpan) (hs : s ∈ []) : s.EndsBy (place + 1) := absurd hs List.not_mem_nil
  fun_cases Gap.next place b g with
  | case1 | case2 | case7 => exact ⟨later, vacuous⟩
  | case3 => exact ⟨by split <;> trivial, vacuous⟩
  | case4 _ _ start stop quote => exact ⟨⟨later.2, quote⟩, vacuous⟩
  | case5 _ _ start stop =>
    have bound := Nat.succ_lt_succ h.1
    refine ⟨?_, vacuous⟩
    split
    · exact ⟨bound, later.2⟩
    · trivial
  | case6 => exact ⟨Phase.within_begin place b, vacuous⟩
  | case8 => exact ⟨Phase.within_begin place b, fun s hs => (h.closed s hs).succ⟩

theorem Phase.Within.next (h : p.Within place) (b : UInt8) :
    (p.next place b).1.Within (place + 1) ∧ ∀ s ∈ (p.next place b).2, s.EndsBy (place + 1) := by
  have later := h.succ
  have vacuous (s : AttributeSpan) (hs : s ∈ []) : s.EndsBy (place + 1) := absurd hs List.not_mem_nil
  fun_cases Phase.next place b p with
  | case1 | case3 => exact ⟨by split <;> trivial, vacuous⟩
  | case2 start stop value quote =>
    refine ⟨trivial, fun s hs => ?_⟩
    obtain rfl := List.mem_singleton.mp hs
    refine ⟨Nat.le_refl _, later.1, fun range member => ?_⟩
    split at member
    · cases member
    · obtain rfl := Option.some.inj member
      exact Nat.le_succ place
  | case4 count g =>
    refine ⟨?_, vacuous⟩
    split
    · trivial
    · split <;> exact later
  | case5 dashes g =>
    refine ⟨?_, vacuous⟩
    split
    · exact later
    · split <;> exact later
  | case6 | case7 => exact ⟨trivial, vacuous⟩

/-- A slash that belongs to no token leaves no gap behind, but for the one between two tokens. -/
theorem Phase.Within.no_gap_of_slash (h : p.Within place) (ends : p.goesOn 0x2F = false) (gap : p.gap? place = none) :
    (p.next place 0x2F).1.gap? (place + 1) = none := by
  cases p with
  | quoted start stop value quote =>
    obtain rfl : 0x2F = quote := by simpa [goesOn] using ends
    exact absurd h.2 (by decide)
  | opening count g =>
    -- The slash breaks off what looked like a comment.
    have other : commentStart[count]? ≠ some 0x2F := fun same => absurd (List.mem_of_getElem? same) (by decide)
    simp [Phase.next, other, gap?]
  | outside | slash | comment | done | stuck => rfl
  | _ => cases gap

end

namespace Reader

/-- All that has been read stands before the place. -/
structure Sound (r : Reader) : Prop where
  phase : r.phase.Within r.place
  spans : ∀ s ∈ r.spans, s.EndsBy r.place

section

variable {r : Reader} {b : UInt8} {gathered : List AttributeSpan}

theorem sound_outset (start : Nat) : (outset start).Sound := ⟨trivial, by simp [outset]⟩

theorem Sound.step (h : r.Sound) (b : UInt8) : (r.step b).Sound := by
  have spans : ∀ s ∈ r.spans, s.EndsBy (r.place + 1) := fun s hs => (h.spans s hs).succ
  rw [Reader.step]
  split
  · exact ⟨h.phase.succ, spans⟩
  · cases gap : r.phase.gap? r.place with
    | some g =>
      obtain ⟨phase, more⟩ := (h.phase.gap gap).next b
      refine ⟨phase, fun s hs => ?_⟩
      rcases List.mem_append.mp hs with old | new
      · exact spans s old
      · rcases List.mem_append.mp new with ended | begun
        · exact (h.phase.ended s ended).succ
        · exact more s begun
    | none =>
      obtain ⟨phase, more⟩ := h.phase.next b
      refine ⟨phase, fun s hs => ?_⟩
      rcases List.mem_append.mp hs with old | new
      · exact spans s old
      · exact more s new

theorem Sound.foldl (h : r.Sound) (bytes : Bytes) : (bytes.foldl Reader.step r).Sound := by
  induction bytes generalizing r with
  | nil => exact h
  | cons b rest ih => exact ih (h.step b)

/-- So do the attributes gathered where another may begin. -/
theorem Sound.endsBy (h : r.Sound) (at_ : r.At gathered) : ∀ s ∈ gathered, s.EndsBy r.place := by
  obtain ⟨g, gap, _, rfl⟩ := at_
  intro s hs
  rcases List.mem_append.mp hs with old | new
  · exact h.spans s old
  · rcases List.mem_append.mp new with ended | closed
    · exact h.phase.ended s ended
    · exact (h.phase.gap gap).closed s closed

/-- A slash behind which an attribute may begin belongs to an unquoted value. -/
theorem Sound.bare_of_slash (h : r.Sound) (at_ : (r.step 0x2F).At gathered) :
    ∃ start stop value, (r.step 0x2F).phase = .bare start stop value := by
  obtain ⟨g, gap, free, _⟩ := at_
  by_cases goes : r.phase.goesOn 0x2F = true
  · -- Of the tokens that a slash goes on with, only a bare value has a gap behind it.
    have kept : (r.step 0x2F).phase = r.phase := by rw [Reader.step, if_pos goes]
    rw [kept] at gap ⊢
    cases phase : r.phase with
    | bare start stop value => exact ⟨start, stop, value, rfl⟩
    | quoted => rw [phase] at gap; cases gap
    | tagName | name => rw [phase] at goes; cases goes
    | _ => rw [phase] at goes; cases goes
  · have ends : r.phase.goesOn 0x2F = false := by simpa using goes
    have within := h.phase
    cases before : r.phase.gap? r.place with
    | some g' =>
      -- Behind an equals sign the slash begins a value; behind all else the bracket must follow.
      rw [step_between ends before] at gap ⊢
      cases g' with
      | equals start stop => exact ⟨start, stop, r.place, rfl⟩
      | _ => cases gap
    | none =>
      rw [Reader.step, if_neg goes, before] at gap
      exact absurd gap (by simp [h.phase.no_gap_of_slash ends before])

end

/-! ### Where a tag ends -/

section

variable {r : Reader} {b : UInt8} {g : Gap} {place stop : Nat} {selfClosing : Bool}

theorem begin_done (h : Phase.begin place b = .done stop selfClosing) :
    b = 0x3E ∧ stop = place + 1 ∧ selfClosing = false := by
  revert h
  fun_cases Phase.begin place b <;> grind

theorem begin_slash (h : Phase.begin place b = .slash) : b = 0x2F := by
  revert h
  fun_cases Phase.begin place b <;> grind

theorem gap_next_done (h : (g.next place b).1 = .done stop selfClosing) :
    b = 0x3E ∧ stop = place + 1 ∧ selfClosing = false ∧ g.isFree = true ∧ (g.next place b).2 = g.closed := by
  revert h
  fun_cases Gap.next place b g <;> grind [Gap.isFree, Gap.closed, begin_done]

theorem gap_next_slash (h : (g.next place b).1 = .slash) :
    b = 0x2F ∧ g.isFree = true ∧ (g.next place b).2 = g.closed := by
  revert h
  fun_cases Gap.next place b g <;> grind [Gap.isFree, Gap.closed, begin_slash]

theorem phase_next_done {p : Phase} (before : ∀ stop selfClosing, p ≠ .done stop selfClosing)
    (h : (p.next place b).1 = .done stop selfClosing) :
    b = 0x3E ∧ stop = place + 1 ∧ selfClosing = true ∧ p = .slash ∧ (p.next place b).2 = [] := by
  revert h
  fun_cases Phase.next place b p <;> grind

theorem phase_next_slash {p : Phase} : (p.next place b).1 ≠ .slash := by
  fun_cases Phase.next place b p <;> grind

/-- A byte that ends a tag is its bracket: it stands where an attribute might begin, or behind the slash. -/
theorem done_step (before : ∀ stop selfClosing, r.phase ≠ .done stop selfClosing)
    (h : (r.step b).phase = .done stop selfClosing) :
    b = 0x3E ∧ stop = r.place + 1 ∧
      (selfClosing = false ∧ r.At (r.step b).spans ∨ selfClosing = true ∧ r.phase = .slash ∧ (r.step b).spans = r.spans) := by
  by_cases goes : r.phase.goesOn b = true
  · -- A token that goes on does not end the tag.
    rw [step, if_pos goes] at h
    exact absurd h (before _ _)
  · have ends : r.phase.goesOn b = false := by simpa using goes
    cases gap : r.phase.gap? r.place with
    | some g =>
      rw [step_between ends gap] at h ⊢
      obtain ⟨bracket, place, kind, free, closed⟩ := gap_next_done h
      exact ⟨bracket, place, Or.inl ⟨kind, g, gap, free, by rw [closed]⟩⟩
    | none =>
      rw [step, if_neg goes, gap] at h ⊢
      obtain ⟨bracket, place, kind, slash, nothing⟩ := phase_next_done before h
      exact ⟨bracket, place, Or.inr ⟨kind, slash, by simp [nothing]⟩⟩

/-- A byte behind which the tag must end is a slash that stands where an attribute might begin. -/
theorem slash_step (h : (r.step b).phase = .slash) :
    b = 0x2F ∧ r.phase.goesOn b = false ∧ r.At (r.step b).spans := by
  by_cases goes : r.phase.goesOn b = true
  · rw [step, if_pos goes] at h
    change r.phase = _ at h
    rw [h] at goes
    cases goes
  · have ends : r.phase.goesOn b = false := by simpa using goes
    cases gap : r.phase.gap? r.place with
    | some g =>
      rw [step_between ends gap] at h ⊢
      obtain ⟨slash, free, closed⟩ := gap_next_slash h
      exact ⟨slash, ends, g, gap, free, by rw [closed]⟩
    | none =>
      rw [step, if_neg goes, gap] at h
      exact absurd h phase_next_slash

/-- Where a whole tag is read, some byte is the first that ends it. -/
theorem exists_bracket {bytes : Bytes} (before : ∀ stop selfClosing, r.phase ≠ .done stop selfClosing)
    (h : (bytes.foldl step r).phase = .done stop selfClosing) :
    ∃ front rest, bytes = front ++ 0x3E :: rest ∧
      (∀ stop selfClosing, (front.foldl step r).phase ≠ .done stop selfClosing) ∧
      ((front.foldl step r).step 0x3E).phase = .done stop selfClosing ∧
      (bytes.foldl step r).spans = ((front.foldl step r).step 0x3E).spans := by
  induction bytes generalizing r with
  | nil => exact absurd h (before _ _)
  | cons b rest ih =>
    rw [List.foldl_cons] at h ⊢
    -- Either this byte ends the tag, or the one that does comes behind it.
    by_cases ended : ∃ stop selfClosing, (r.step b).phase = .done stop selfClosing
    · obtain ⟨stop', selfClosing', at_once⟩ := ended
      obtain ⟨rfl, _, _⟩ := done_step before at_once
      obtain ⟨kept, spans⟩ := foldl_done at_once rest
      exact ⟨[], rest, rfl, before, by rw [← h, kept]; exact at_once, spans⟩
    · obtain ⟨front, more, rfl, not_yet, ends, spans⟩ := ih (fun stop selfClosing same => ended ⟨stop, selfClosing, same⟩) h
      exact ⟨b :: front, more, rfl, not_yet, ends, spans⟩

end

end Reader

end Html

end Remedy
