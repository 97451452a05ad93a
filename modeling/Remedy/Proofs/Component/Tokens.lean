import Remedy.Proofs.Component.TagText
import Remedy.Proofs.Text.Words

/-!
The attributes of a tag as they are written: tokens with blanks between them.

The search for a name goes through the text of a tag and knows nothing of tokens. It finds the token of that name all the
same, as long as no token hides something that looks like the name: text behind a character that belongs to no name, up to a
blank, an equals sign, a slash or an angle bracket.
-/

namespace Remedy.Component

open Text (isBlank)

/-! ### Tokens -/

/-- Characters that names of attributes may have. -/
def isNamePart (c : Char) : Bool := !(isBlank c || ['"', '\'', '=', '/', '<', '>'].contains c)

def IsName (cs : List Char) : Prop := cs ≠ [] ∧ ∀ c ∈ cs, isNamePart c = true

instance (cs : List Char) : Decidable (IsName cs) :=
  decidable_of_iff (cs ≠ [] ∧ cs.all isNamePart = true) (and_congr_right fun _ => List.all_eq_true)

/-- What follows the name of an attribute: blanks around an equals sign, and a value, which may be quoted. -/
structure Assigned where
  before : List Char
  after : List Char
  quote : Option Char
  value : List Char
  deriving DecidableEq, Repr

/-- An attribute with the blanks before it. -/
structure Token where
  gap : List Char
  name : List Char
  assigned : Option Assigned
  deriving DecidableEq, Repr

def Assigned.text (a : Assigned) : List Char :=
  a.before ++ '=' :: (a.after ++ (a.quote.toList ++ (a.value ++ a.quote.toList)))

def Token.text (t : Token) : List Char := t.name ++ (t.assigned.map Assigned.text).getD []

/-- A value in quotes holds none of them; one without quotes holds no blanks, quotes or angle brackets. -/
structure Assigned.Proper (a : Assigned) : Prop where
  blank : ∀ c ∈ a.before ++ a.after, isBlank c = true
  quoted : ∀ q ∈ a.quote, (q = '"' ∨ q = '\'') ∧ q ∉ a.value
  bare : a.quote = none → a.value ≠ [] ∧ ∀ c ∈ a.value, isBlank c = false ∧ c ∉ ['"', '\'', '<', '>']

structure Token.Proper (t : Token) : Prop where
  gap : t.gap ≠ [] ∧ ∀ c ∈ t.gap, isBlank c = true
  name : IsName t.name
  assigned : ∀ a ∈ t.assigned, a.Proper

/-- Whether an attribute has the form that it should, by looking at each of its characters. -/
def Assigned.isProper (a : Assigned) : Bool :=
  (a.before ++ a.after).all isBlank &&
    match a.quote with
    | some q => (q == '"' || q == '\'') && !a.value.contains q
    | none => !a.value.isEmpty && a.value.all fun c => !(isBlank c || ['"', '\'', '<', '>'].contains c)

def Token.isProper (t : Token) : Bool :=
  !t.gap.isEmpty && t.gap.all isBlank && decide (IsName t.name) && t.assigned.all Assigned.isProper

theorem Assigned.isProper_iff {a : Assigned} : a.isProper = true ↔ a.Proper := by
  obtain ⟨before, after, quote, value⟩ := a
  cases quote with
  | some q =>
    simp only [isProper, Bool.and_eq_true, Bool.or_eq_true, List.all_eq_true, beq_iff_eq, Bool.not_eq_true',
      List.contains_eq_mem, decide_eq_false_iff_not]
    constructor
    · rintro ⟨blank, quoted⟩
      refine ⟨blank, fun _ same => ?_, fun bare => by cases bare⟩
      obtain rfl := Option.some.inj same
      exact quoted
    · exact fun proper => ⟨proper.blank, proper.quoted q rfl⟩
  | none =>
    simp only [isProper, Bool.and_eq_true, List.all_eq_true, Bool.not_eq_true', Bool.or_eq_false_iff,
      List.isEmpty_eq_false_iff, List.contains_eq_mem, decide_eq_false_iff_not]
    constructor
    · rintro ⟨blank, bare⟩
      refine ⟨blank, fun _ same => ?_, fun _ => bare⟩
      cases same
    · exact fun proper => ⟨proper.blank, proper.bare rfl⟩

theorem Token.isProper_iff {t : Token} : t.isProper = true ↔ t.Proper := by
  have assigned : t.assigned.all Assigned.isProper = true ↔ ∀ a ∈ t.assigned, a.Proper := by
    rw [Option.all_eq_true]
    exact forall₂_congr fun _ _ => Assigned.isProper_iff
  simp only [isProper, Bool.and_eq_true, Bool.not_eq_true', List.isEmpty_eq_false_iff, List.all_eq_true,
    decide_eq_true_eq, assigned]
  constructor
  · rintro ⟨⟨gap, name⟩, assigned⟩
    exact ⟨gap, name, assigned⟩
  · exact fun proper => ⟨⟨proper.gap, proper.name⟩, proper.assigned⟩

instance (t : Token) : Decidable t.Proper := decidable_of_iff _ Token.isProper_iff

/-! ### Names in the text -/

/-- Characters that end a name. -/
def endsName (c : Char) : Bool := isBlank c || c == '=' || c == '/' || c == '>'

/-- What stands at the front up to a character that ends names. -/
def headWord (cs : List Char) : List Char := cs.takeWhile fun c => !endsName c

/-- A name as a static or a bound attribute. -/
def spellings (name : List Char) : List (List Char) := ["v-bind:".toList ++ name, ':' :: name, name]

/-- Somewhere in a stretch of text a name may begin, and there the name stands, static or bound. -/
def lookalike (name : List Char) (previous : Option Char) : List Char → List Char → Bool
  | [], _ => false
  | c :: cs, rest =>
    (!previous.any joinsName && (spellings name).contains (headWord (c :: (cs ++ rest)))) ||
      lookalike name (behind c) cs rest

/-- Behind its first character, the text of the attribute has something that looks like the name. -/
def Token.hides (t : Token) (name : List Char) : Bool :=
  match t.text with
  | [] => false
  | c :: cs => lookalike name (behind c) cs []

theorem endsName_of_isBlank {c : Char} (h : isBlank c = true) : endsName c = true := by simp [endsName, h]

theorem endsName_of_isNamePart {c : Char} (h : isNamePart c = true) : endsName c = false := by
  simp only [isNamePart, Bool.not_eq_true', Bool.or_eq_false_iff] at h
  obtain ⟨blank, marks⟩ := h
  have other : c ∉ ['"', '\'', '=', '/', '<', '>'] := by simpa using marks
  simp only [List.mem_cons, not_or] at other
  simp [endsName, blank, other]

/-- A name may begin behind a blank. -/
theorem joinsName_of_isBlank {c : Char} (h : isBlank c = true) : joinsName c = false := by
  have mark : c ∉ [':', '.', '@', '<', '/', '-'] := by
    intro member
    simp only [List.mem_cons, List.not_mem_nil, or_false] at member
    rcases member with rfl | rfl | rfl | rfl | rfl | rfl <;> exact absurd h (by decide)
  simpa [joinsName, Text.isWord_of_isBlank h] using mark

theorem headWord_cons (c : Char) (cs : List Char) : headWord (c :: cs) = if endsName c then [] else c :: headWord cs := by
  rw [headWord, List.takeWhile_cons, ← headWord]
  cases endsName c <;> rfl

theorem headWord_cons_of_ends {c : Char} (h : endsName c = true) (cs : List Char) : headWord (c :: cs) = [] := by
  rw [headWord_cons, if_pos h]

/-- A name goes on up to what ends it. -/
theorem headWord_append {xs ys : List Char} (ends : headWord ys = []) : headWord (xs ++ ys) = headWord xs := by
  induction xs with
  | nil => exact ends
  | cons c cs ih => rw [List.cons_append, headWord_cons, headWord_cons, ih]

theorem headWord_of_isNamePart {xs ys : List Char} (h : ∀ c ∈ xs, isNamePart c = true) (ends : headWord ys = []) :
    headWord (xs ++ ys) = xs := by
  have all : ∀ c ∈ xs, (!endsName c) = true := fun c member => by rw [endsName_of_isNamePart (h c member)]; rfl
  rw [headWord, List.takeWhile_append_of_pos all, ← headWord, ends, List.append_nil]

theorem headWord_lineRest (cs : List Char) : headWord (lineRest cs) = headWord cs := by
  induction cs with
  | nil => rfl
  | cons c cs ih =>
    rw [lineRest_cons, headWord_cons]
    split
    next feed =>
      subst feed
      rfl
    · rw [headWord_cons, ih]

/-! ### The search at one place -/

theorem not_endsName_spelling {name spelling : List Char} (proper : IsName name) (h : spelling ∈ spellings name) :
    ∀ c ∈ spelling, endsName c = false := by
  intro c member
  have marks : ∀ d ∈ "v-bind:".toList, endsName d = false := by simp [endsName, isBlank]
  have names {d : Char} (hd : d ∈ name) : endsName d = false := endsName_of_isNamePart (proper.2 d hd)
  simp only [spellings, List.mem_cons, List.not_mem_nil, or_false] at h
  rcases h with rfl | rfl | rfl
  · exact (List.mem_append.mp member).elim (marks c) names
  · rcases List.mem_cons.mp member with rfl | later
    · decide
    · exact names later
  · exact names member

/-- A word that nothing ends stands at the front, and there it ends, exactly if it is the first one. -/
theorem isPrefixOf_headWord {word : List Char} (whole : ∀ c ∈ word, endsName c = false) (cs : List Char) :
    (word.isPrefixOf cs && (match cs.drop word.length with
      | [] => true
      | c :: _ => isBlank c || c == '=' || c == '/' || c == '>')) = (word == headWord cs) := by
  induction word generalizing cs with
  | nil =>
    cases cs with
    | nil => rfl
    | cons c cs =>
      rw [headWord_cons]
      change endsName c = _
      cases endsName c <;> rfl
  | cons d word ih =>
    have first := whole d List.mem_cons_self
    cases cs with
    | nil => rfl
    | cons c cs =>
      have rest := ih (fun c member => whole c (List.mem_cons_of_mem d member)) cs
      rw [headWord_cons, List.length_cons, List.drop_succ_cons, List.isPrefixOf, Bool.and_assoc, rest]
      by_cases same : d = c
      · subst same
        simp [first]
      · have differ : (d == c) = false := beq_eq_false_iff_ne.mpr same
        rw [differ, Bool.false_and]
        split
        · rfl
        · simp [same]

/-- **An attribute of a name stands at the front exactly if the first word there spells it.** -/
theorem isAttributeAt_eq {name : List Char} (proper : IsName name) (cs : List Char) :
    isAttributeAt name cs = (spellings name).contains (headWord cs) := by
  rw [Bool.eq_iff_iff, List.contains_iff_mem, isAttributeAt, List.any_eq_true]
  constructor
  · rintro ⟨spelling, member, stands⟩
    have word := (isPrefixOf_headWord (not_endsName_spelling proper member) cs).symm.trans stands
    exact beq_iff_eq.mp word ▸ member
  · intro member
    exact ⟨_, member, (isPrefixOf_headWord (not_endsName_spelling proper member) cs).trans (beq_self_eq_true _)⟩

/-- A static attribute of a name has the name for its first word. -/
theorem headWord_of_staticValue? {name cs : List Char} {column : Nat} {v : QuotedValue} (proper : IsName name)
    (h : staticValue? name column cs = some v) : headWord cs = name := by
  have whole : ∀ c ∈ name, endsName c = false := fun c member => endsName_of_isNamePart (proper.2 c member)
  have word := isPrefixOf_headWord whole cs
  rw [staticValue?] at h
  split at h
  · contradiction
  next front =>
    have front : name.isPrefixOf cs = true := by simpa using front
    rw [front, Bool.true_and] at word
    cases behind : cs.drop name.length with
    | nil => rw [behind] at h; contradiction
    | cons c rest =>
      -- Behind the name there is a blank or the equals sign.
      have ends : (isBlank c || c == '=' || c == '/' || c == '>') = true := by
        rw [behind] at h
        dsimp only at h
        by_cases blank : isBlank c = true
        · simp [blank]
        · rw [List.dropWhile_cons_of_neg blank] at h
          by_cases sign : c = '='
          · simp [sign]
          · split at h
            next same => exact absurd (List.cons.inj same).1 sign
            · contradiction
      rw [behind] at word
      exact (beq_iff_eq.mp (word.symm.trans ends)).symm

/-! ### The search along a text -/

/-- The first static attribute among the places at which names may begin: its line, and its value there. -/
def firstStatic (name : List Char) (places : List (Spot × List Char)) : Option (Nat × QuotedValue) :=
  places.findSome? fun e => (staticValue? name e.1.2 e.2).map fun v => (e.1.1, v)

/-- Whether an attribute stands at one of the places. -/
def present (name : List Char) (places : List (Spot × List Char)) : Bool := places.any fun e => isAttributeAt name e.2

section

variable {name : List Char}

theorem not_found_of_headWord (proper : IsName name) {cs : List Char} (h : (spellings name).contains (headWord cs) = false)
    (column : Nat) : staticValue? name column (lineRest cs) = none ∧ isAttributeAt name (lineRest cs) = false := by
  constructor
  · rw [Option.eq_none_iff_forall_ne_some]
    intro v found
    have word := headWord_of_staticValue? proper found
    rw [headWord_lineRest] at word
    have member : name ∈ spellings name := by simp [spellings]
    rw [word, List.contains_iff_mem.mpr member] at h
    contradiction
  · rw [isAttributeAt_eq proper, headWord_lineRest, h]

/-- A stretch with no lookalike of the name is passed over. -/
theorem search_quiet (proper : IsName name) {previous : Option Char} {xs ys : List Char}
    (h : lookalike name previous xs ys = false) (p : Spot) :
    firstStatic name (namesFrom previous p (xs ++ ys)) =
        firstStatic name (namesFrom (behindAll previous xs) (spotAfter p xs) ys) ∧
      present name (namesFrom previous p (xs ++ ys)) =
        present name (namesFrom (behindAll previous xs) (spotAfter p xs) ys) := by
  induction xs generalizing previous p with
  | nil => exact ⟨rfl, rfl⟩
  | cons c xs ih =>
    rw [lookalike, Bool.or_eq_false_iff] at h
    obtain ⟨static, held⟩ := ih h.2 (stepSpot p c)
    rw [List.cons_append, namesFrom]
    -- No name begins here, or what stands here is not the name.
    cases joined : previous.any joinsName with
    | true => exact ⟨static, held⟩
    | false =>
      rw [joined, Bool.not_false, Bool.true_and] at h
      obtain ⟨unfound, absent⟩ := not_found_of_headWord proper h.1 p.2
      constructor
      · exact Eq.trans (by simp [firstStatic, unfound]) static
      · exact Eq.trans (by simp [present, absent]) held

/-- Blanks and brackets are no lookalikes of anything. -/
theorem lookalike_of_ends (nonempty : name ≠ []) {xs : List Char} (h : ∀ c ∈ xs, endsName c = true) (previous : Option Char)
    (ys : List Char) : lookalike name previous xs ys = false := by
  have other : (spellings name).contains [] = false := by
    simp [spellings, nonempty]
  induction xs generalizing previous with
  | nil => rfl
  | cons c xs ih =>
    rw [lookalike, headWord_cons_of_ends (h c List.mem_cons_self), other, Bool.and_false, Bool.false_or]
    exact ih (fun d member => h d (List.mem_cons_of_mem c member)) _

/-- What follows a stretch says nothing about it if it ends names. -/
theorem lookalike_of_headWord {ys : List Char} (ends : headWord ys = []) (previous : Option Char) (xs : List Char) :
    lookalike name previous xs ys = lookalike name previous xs [] := by
  induction xs generalizing previous with
  | nil => rfl
  | cons c xs ih =>
    rw [lookalike, lookalike, ih, List.append_nil, ← List.cons_append, headWord_append ends]

end

/-! ### The search along tokens -/

/-- The value of a static attribute of a name, where the token begins at a spot: quoted, and on one line. -/
def Token.static? (t : Token) (name : List Char) (p : Spot) : Option (Nat × QuotedValue) :=
  t.assigned.bind fun a => a.quote.bind fun q =>
    if t.name = name ∧ '\n' ∉ a.before ++ (a.after ++ a.value) then
      let start := p.2 + (name.length + a.before.length + a.after.length + 2)
      some (p.1, ⟨start, start + a.value.length, q⟩)
    else none

/-- The first static attribute of a name among tokens. -/
def staticAmong (name : List Char) (p : Spot) : List Token → Option (Nat × QuotedValue)
  | [] => none
  | t :: rest => (t.static? name (spotAfter p t.gap)).or (staticAmong name (spotAfter p (t.gap ++ t.text)) rest)

section

variable {name : List Char} {t : Token} {rest : List Char}

/-- What follows a token: it ends names, and no equals sign comes after its blanks. -/
structure Follows (rest : List Char) : Prop where
  ends : headWord rest = []
  plain : (rest.dropWhile isBlank).head? ≠ some '='

theorem headWord_assigned (proper : t.Proper) (follows : Follows rest) :
    headWord ((t.assigned.map Assigned.text).getD [] ++ rest) = [] := by
  cases assigned : t.assigned with
  | none => exact follows.ends
  | some a =>
    have blank := (proper.assigned a assigned).blank
    cases before : a.before with
    | nil =>
      rw [Option.map_some, Option.getD_some, Assigned.text, before]
      exact headWord_cons_of_ends (by decide) _
    | cons c _ =>
      rw [Option.map_some, Option.getD_some, Assigned.text, before]
      exact headWord_cons_of_ends (endsName_of_isBlank (blank c (by simp [before]))) _

theorem headWord_token (proper : t.Proper) (follows : Follows rest) : headWord (t.text ++ rest) = t.name := by
  rw [Token.text, List.append_assoc]
  exact headWord_of_isNamePart proper.name.2 (headWord_assigned proper follows)

/-- Blanks are passed over as far as their line goes. -/
theorem dropWhile_lineRest {blanks : List Char} (blank : ∀ c ∈ blanks, isBlank c = true) (rest : List Char) :
    (lineRest (blanks ++ rest)).dropWhile isBlank = if '\n' ∈ blanks then [] else (lineRest rest).dropWhile isBlank := by
  split
  next feed =>
    rw [lineRest_append_of_mem feed]
    have kept : ∀ c ∈ lineRest blanks, isBlank c = true := fun c member =>
      blank c ((List.takeWhile_sublist _).subset member)
    rw [← List.append_nil (lineRest blanks), List.dropWhile_append_of_pos kept, List.dropWhile_nil]
  next plain => rw [lineRest_append plain, List.dropWhile_append_of_pos blank]

/-- What is no blank is not passed over. -/
theorem dropWhile_lineRest_cons {c : Char} (other : isBlank c = false) (rest : List Char) :
    (lineRest (c :: rest)).dropWhile isBlank = c :: lineRest rest := by
  have stays : c ≠ '\n' := by
    rintro rfl
    exact absurd other (by decide)
  rw [lineRest_cons, if_neg stays, List.dropWhile_cons_of_neg (by simp [other])]

/-- No equals sign comes after the blanks of what follows, on its line. -/
theorem Follows.no_sign (follows : Follows rest) (more : List Char) : (lineRest rest).dropWhile isBlank ≠ '=' :: more := by
  have split := List.takeWhile_append_dropWhile (p := isBlank) (l := rest)
  have blank : ∀ c ∈ rest.takeWhile isBlank, isBlank c = true :=
    List.all_eq_true.mp List.all_takeWhile
  rw [← split, dropWhile_lineRest blank]
  have plain := follows.plain
  split
  · simp
  · cases behind : rest.dropWhile isBlank with
    | nil => simp [lineRest]
    | cons c _ =>
      have other : isBlank c = false := by
        have := List.head?_dropWhile_not isBlank rest
        rw [behind] at this
        simpa using this
      rw [dropWhile_lineRest_cons other]
      rw [behind] at plain
      intro same
      exact plain (congrArg some (List.cons.inj same).1)

/-- A static value behind a name: behind the equals sign, in quotes that are closed on the line. -/
theorem staticValue?_append (name : List Char) (column : Nat) (cs : List Char) :
    staticValue? name column (name ++ cs) =
      match cs.dropWhile isBlank with
      | '=' :: rest =>
        match rest.dropWhile isBlank with
        | q :: body =>
          if (q == '"' || q == '\'') && body.contains q then
            let start := column + ((name ++ cs).length - body.length)
            some ⟨start, start + (body.takeWhile (· != q)).length, q⟩
          else none
        | [] => none
      | _ => none := by
  have front : name.isPrefixOf (name ++ cs) = true := by simp
  rw [staticValue?, front, List.drop_left]
  rfl

/-- What is read behind the blanks before an equals sign, if that stands on the line. -/
theorem dropWhile_assigned {a : Assigned} (proper : a.Proper) (rest : List Char) :
    (lineRest (a.text ++ rest)).dropWhile isBlank =
      if '\n' ∈ a.before then []
      else '=' :: lineRest (a.after ++ (a.quote.toList ++ (a.value ++ (a.quote.toList ++ rest)))) := by
  have split : a.text ++ rest =
      a.before ++ ('=' :: (a.after ++ (a.quote.toList ++ (a.value ++ (a.quote.toList ++ rest))))) := by
    simp [Assigned.text]
  rw [split, dropWhile_lineRest fun c member => proper.blank c (List.mem_append_left _ member),
    dropWhile_lineRest_cons (by decide)]

/-- What is read behind the blanks after it, if that stands on the line. -/
theorem dropWhile_value {a : Assigned} (proper : a.Proper) (rest : List Char) :
    (lineRest (a.after ++ rest)).dropWhile isBlank =
      if '\n' ∈ a.after then [] else (lineRest rest).dropWhile isBlank :=
  dropWhile_lineRest (fun c member => proper.blank c (List.mem_append_right _ member)) rest

/-- A quoted value that is closed on the line is found where its quotes are. -/
theorem staticValue?_quoted {a : Assigned} (proper : a.Proper) {q : Char} (quoted : a.quote = some q)
    (plain : '\n' ∉ a.before ++ (a.after ++ a.value)) (name : List Char) (column : Nat) (rest : List Char) :
    staticValue? name column (name ++ lineRest (a.text ++ rest)) =
      let start := column + (name.length + a.before.length + a.after.length + 2)
      some ⟨start, start + a.value.length, q⟩ := by
  obtain ⟨mark, outside⟩ := proper.quoted q quoted
  rw [List.mem_append, List.mem_append, not_or, not_or] at plain
  obtain ⟨before, after, value⟩ := plain
  have other : isBlank q = false := by rcases mark with rfl | rfl <;> decide
  have stays : q ≠ '\n' := by rcases mark with rfl | rfl <;> decide
  -- The rest of the line reaches behind the closing quote.
  have line : lineRest (a.text ++ rest) = a.before ++ ('=' :: (a.after ++ (q :: (a.value ++ (q :: lineRest rest))))) := by
    have split : a.text ++ rest = (a.before ++ ('=' :: (a.after ++ (q :: (a.value ++ [q]))))) ++ rest := by
      simp [Assigned.text, quoted]
    rw [split, lineRest_append (by simp [before, after, value, stays.symm])]
    simp
  have values : ∀ c ∈ a.value, (c != q) = true := fun c member => bne_iff_ne.mpr fun same => outside (same ▸ member)
  have found : ((q == '"' || q == '\'') && (a.value ++ (q :: lineRest rest)).contains q) = true := by
    rcases mark with rfl | rfl <;> simp
  have sign : (a.before ++ ('=' :: (a.after ++ (q :: (a.value ++ (q :: lineRest rest)))))).dropWhile isBlank =
      '=' :: (a.after ++ (q :: (a.value ++ (q :: lineRest rest)))) := by
    rw [List.dropWhile_append_of_pos fun c member => proper.blank c (List.mem_append_left _ member),
      List.dropWhile_cons_of_neg (by decide)]
  have opening : (a.after ++ (q :: (a.value ++ (q :: lineRest rest)))).dropWhile isBlank =
      q :: (a.value ++ (q :: lineRest rest)) := by
    rw [List.dropWhile_append_of_pos fun c member => proper.blank c (List.mem_append_right _ member),
      List.dropWhile_cons_of_neg (by simp [other])]
  have inside : (a.value ++ (q :: lineRest rest)).takeWhile (· != q) = a.value := by
    rw [List.takeWhile_append_of_pos values, List.takeWhile_cons_of_neg (by simp), List.append_nil]
  have start : (name ++ (a.before ++ ('=' :: (a.after ++ (q :: (a.value ++ (q :: lineRest rest))))))).length -
      (a.value ++ (q :: lineRest rest)).length = name.length + a.before.length + a.after.length + 2 := by
    simp only [List.length_append, List.length_cons]
    omega
  rw [line, staticValue?_append, sign]
  simp only [opening, found, if_true, inside, start]

/-- No value is found that is on more than one line, or in no quotes. -/
theorem staticValue?_other {a : Assigned} (proper : a.Proper)
    (other : a.quote = none ∨ '\n' ∈ a.before ++ (a.after ++ a.value)) (name : List Char) (column : Nat) (rest : List Char) :
    staticValue? name column (name ++ lineRest (a.text ++ rest)) = none := by
  rw [staticValue?_append, dropWhile_assigned proper]
  -- A line feed before or behind the equals sign hides the value, and one in the value its closing quote.
  by_cases before : '\n' ∈ a.before
  · rw [if_pos before]
  · rw [if_neg before]
    simp only [dropWhile_value proper]
    by_cases after : '\n' ∈ a.after
    · rw [if_pos after]
    · rw [if_neg after]
      cases quoted : a.quote with
      | none =>
        obtain ⟨nonempty, bare⟩ := proper.bare quoted
        obtain ⟨c, more, value⟩ := List.exists_cons_of_ne_nil nonempty
        obtain ⟨blank, marks⟩ := bare c (by rw [value]; exact List.mem_cons_self)
        have unquoted : (c == '"' || c == '\'') = false := by
          simp only [List.mem_cons, not_or] at marks
          simp [marks]
        rw [value, Option.toList_none, List.nil_append, List.cons_append, dropWhile_lineRest_cons blank]
        simp only [unquoted, Bool.false_and, Bool.false_eq_true, if_false]
      | some q =>
        obtain ⟨mark, outside⟩ := proper.quoted q quoted
        have feed : '\n' ∈ a.value := by
          have member := other.resolve_left (by simp [quoted])
          rw [List.mem_append, List.mem_append] at member
          exact (member.resolve_left before).resolve_left after
        have blank : isBlank q = false := by rcases mark with rfl | rfl <;> decide
        rw [Option.toList_some, List.singleton_append, dropWhile_lineRest_cons blank, lineRest_append_of_mem feed]
        have open_ : (lineRest a.value).contains q = false := by
          rw [Bool.eq_false_iff, ne_eq, List.contains_iff_mem]
          exact fun member => outside ((List.takeWhile_sublist _).subset member)
        simp only [open_, Bool.and_false, Bool.false_eq_true, if_false]

/-- **At the place of a token, a static attribute is found exactly if the token is one.** -/
theorem staticValue?_token (named : IsName name) (proper : t.Proper) (follows : Follows rest) (p : Spot) :
    (staticValue? name p.2 (lineRest (t.text ++ rest))).map (fun v => (p.1, v)) = t.static? name p := by
  by_cases same : t.name = name
  · have plain : '\n' ∉ t.name := fun feed => absurd (proper.name.2 _ feed) (by decide)
    rw [Token.text, List.append_assoc, lineRest_append plain, same, Token.static?]
    cases assigned : t.assigned with
    | none =>
      rw [Option.map_none, Option.getD_none, List.nil_append, staticValue?_append]
      split
      next more sign => exact absurd sign (follows.no_sign more)
      · rfl
    | some a =>
      rw [Option.map_some, Option.getD_some, Option.bind_some]
      cases quoted : a.quote with
      | none => rw [staticValue?_other (proper.assigned a assigned) (Or.inl quoted)]; rfl
      | some q =>
        by_cases line : '\n' ∈ a.before ++ (a.after ++ a.value)
        · rw [staticValue?_other (proper.assigned a assigned) (Or.inr line), Option.bind_some,
            if_neg fun both => both.2 line]
          rfl
        · rw [staticValue?_quoted (proper.assigned a assigned) quoted line, Option.bind_some, if_pos ⟨same, line⟩]
          rfl
  · -- The first word is the name of the token, and that is another one.
    have unread : staticValue? name p.2 (lineRest (t.text ++ rest)) = none := by
      rw [Option.eq_none_iff_forall_ne_some]
      intro v found
      have word := headWord_of_staticValue? named found
      rw [headWord_lineRest, headWord_token proper follows] at word
      exact same word
    rw [unread, Token.static?]
    simp [same]

end

end Remedy.Component
