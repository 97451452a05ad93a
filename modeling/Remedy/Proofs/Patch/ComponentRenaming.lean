import Mathlib.Data.List.Basic
import Remedy.Proofs.Component.Places
import Remedy.Proofs.Component.Scanning
import Remedy.Proofs.Fix.Accepted
import Remedy.Proofs.Patch.ComponentPlacement
import Remedy.Proofs.Patch.ComponentSequence

/-!
Which names a fix replaces that gives an element another tag.

At both of its places a tag must begin, or nothing is done. What is not looked at is whether the two tags have the same name:
the places are believed. So they must be those of one element of the text as it is, not of an earlier one.
-/

namespace Remedy.Patch.Component

open Remedy.Component

/-! ### Names behind marks -/

/-- What follows a name does not go on with it. -/
def EndsName (rest : List Char) : Prop := ∀ c, rest.head? = some c → isTagNamePart c = false

/-- A mark stands at the front of a text, and behind it a name, up to where it ends. -/
structure Heads (mark name text : List Char) : Prop where
  nonempty : name ≠ []
  part : ∀ c ∈ name, isTagNamePart c = true
  stands : ∃ rest, text = mark ++ (name ++ rest) ∧ EndsName rest

/-- At a place of a text, a mark stands and a name behind it. -/
def Names (text mark : List Char) (p : Position) (name : List Char) : Prop :=
  ∃ front back, text = front ++ back ∧ Position.after front = p ∧ Heads mark name back

/-- At a place of a text, an open tag of a name begins. -/
def Opens (text : List Char) (p : Position) (name : List Char) : Prop := Names text ['<'] p name

/-- At a place of a text, a closing tag of a name begins. -/
def Closes (text : List Char) (p : Position) (name : List Char) : Prop := Names text ['<', '/'] p name

section

variable {mark name name' text : List Char} {line : Line} {column : Nat}

theorem takeWhile_name {rest : List Char} (part : ∀ c ∈ name, isTagNamePart c = true) (ends : EndsName rest) :
    (name ++ rest).takeWhile isTagNamePart = name :=
  takeWhile_ends part ends

theorem Heads.unique (h : Heads mark name text) (h' : Heads mark name' text) : name = name' := by
  obtain ⟨rest, rfl, ends⟩ := h.stands
  obtain ⟨rest', same, ends'⟩ := h'.stands
  rw [← takeWhile_name h.part ends, List.append_cancel_left same, takeWhile_name h'.part ends']

/-- A name is on one line. -/
theorem heads_line (plain : '\n' ∉ mark) (more : List Line) :
    Heads mark name (line ++ more.flatMap ('\n' :: ·)) ↔ Heads mark name line := by
  have below : EndsName (more.flatMap ('\n' :: ·)) := by
    cases more with
    | nil => exact nofun
    | cons next more =>
      intro c same
      obtain rfl := Option.some.inj same
      decide
  constructor
  · rintro ⟨nonempty, part, rest, split, ends⟩
    rw [← List.append_assoc] at split
    rcases List.append_eq_append_iff.mp split with ⟨extra, longer, feeds⟩ | ⟨ys, shorter, rfl⟩
    · cases extra with
      | nil => exact ⟨nonempty, part, [], by simpa using longer.symm, nofun⟩
      | cons c extra =>
        -- Neither the mark nor the name has a line feed.
        have feed : c = '\n' := by
          cases more with
          | nil => cases feeds
          | cons next more => exact (List.cons.inj feeds).1.symm
        have member : '\n' ∈ mark ++ name := by simp [longer, feed]
        rcases List.mem_append.mp member with inMark | inName
        · exact absurd inMark plain
        · exact absurd (part _ inName) (by decide)
    · refine ⟨nonempty, part, ys, by rw [shorter, List.append_assoc], fun c same => ends c ?_⟩
      rw [List.head?_append, same, Option.some_or]
  · rintro ⟨nonempty, part, rest, rfl, ends⟩
    refine ⟨nonempty, part, rest ++ more.flatMap ('\n' :: ·), by simp, fun c same => ?_⟩
    rw [List.head?_append] at same
    cases first : rest.head? with
    | some d =>
      rw [first, Option.some_or] at same
      exact ends c (first.trans same)
    | none =>
      rw [first, Option.none_or] at same
      exact below c same

/-- **A name is found exactly where it stands.** -/
theorem nameAfter?_eq_some_iff (nonempty : mark ≠ []) {start stop p : Int} :
    nameAfter? line p mark = some (start, stop) ↔
      ∃ (c : Nat) (name : List Char), p = c ∧ Heads mark name (line.drop c) ∧
        start = p + mark.length ∧ stop = start + name.length := by
  constructor
  · intro h
    rw [nameAfter?] at h
    split at h
    · cases h
    next found =>
      simp only [Bool.or_eq_true, decide_eq_true_eq, bne_iff_ne, not_or, not_not] at found
      obtain ⟨c, rfl⟩ := Int.eq_ofNat_of_zero_le (show 0 ≤ p by omega)
      have stands := drop_of_between nonempty found.2
      simp only at h
      split at h
      · cases h
      next named =>
        obtain ⟨rfl, rfl⟩ := Prod.mk.inj (Option.some.inj h)
        have column : ((c : Int) + mark.length).toNat = c + mark.length := by omega
        rw [column] at named ⊢
        refine ⟨c, _, rfl, ⟨by simpa using named, List.all_eq_true.mp List.all_takeWhile,
          (line.drop (c + mark.length)).dropWhile isTagNamePart, ?_, ?_⟩, rfl, rfl⟩
        · rw [List.takeWhile_append_dropWhile, stands]
        · intro d first
          have other := List.head?_dropWhile_not isTagNamePart (line.drop (c + mark.length))
          rw [first] at other
          simpa using other
  · rintro ⟨c, name, rfl, ⟨nonempty', part, rest, split, ends⟩, rfl, rfl⟩
    have inside : c ≤ line.length := by
      by_contra outside
      rw [List.drop_of_length_le (by omega)] at split
      simp [nonempty] at split
    have marked : between line c (c + mark.length) = mark := by
      have stretch := between_natCast line c (c + mark.length) inside
      rwa [List.drop_take, Nat.add_sub_cancel_left, split, List.take_left, Nat.cast_add] at stretch
    have named : (line.drop (c + mark.length)).takeWhile isTagNamePart = name := by
      rw [← List.drop_drop, split, List.drop_left, takeWhile_name part ends]
    have column : ((c : Int) + mark.length).toNat = c + mark.length := by omega
    have nonneg : ¬ (c : Int) < 0 := by omega
    rw [nameAfter?]
    simp [nonneg, marked, column, named, nonempty']

/-! ### Names at places -/

variable {source : String} {p q : Position} {a b : List Char}

/-- A name stands at a place exactly if it stands on its line at its column. -/
theorem names_iff (plain : '\n' ∉ mark) :
    Names source.toList mark p name ↔
      ∃ i c : Nat, p = ⟨i + 1, c⟩ ∧ i < (linesOf source).length ∧ Heads mark name ((lineAt (linesOf source) i).drop c) := by
  constructor
  · rintro ⟨front, back, split, rfl, heads⟩
    obtain ⟨i, c, cut, place⟩ := cutsAt_of_append front back
    rw [← split] at cut
    refine ⟨i, c, place, cut.column.line_lt, ?_⟩
    rwa [← cut.back, fromColumn, heads_line plain] at heads
  · rintro ⟨i, c, rfl, line_lt, heads⟩
    have inside : c ≤ (lineAt (linesOf source) i).length := by
      obtain ⟨rest, split, _⟩ := heads.stands
      by_contra outside
      rw [List.drop_of_length_le (by omega)] at split
      simp [heads.nonempty] at split
    have column : IsColumn (linesOf source) i c := ⟨line_lt, by omega, Int.ofNat_le.mpr inside⟩
    have whole : source.toList = textOfLines (linesOf source) := (Text.intercalate_splitAtNewlines source.toList).symm
    refine ⟨beforeColumn (linesOf source) i c, fromColumn (linesOf source) i c, ?_, ?_, ?_⟩
    · rw [whole, column.textOfLines_eq]
    · exact after_beforeColumn (fun _ => Text.not_mem_of_mem_splitAtNewlines) column
    · rw [fromColumn, heads_line plain]
      exact heads

theorem Names.unique (plain : '\n' ∉ mark) (h : Names source.toList mark p name) (h' : Names source.toList mark p name') :
    name = name' := by
  obtain ⟨i, c, rfl, _, heads⟩ := (names_iff plain).mp h
  obtain ⟨j, d, place, _, heads'⟩ := (names_iff plain).mp h'
  simp only [Position.mk.injEq, add_left_inj, Nat.cast_inj] at place
  obtain ⟨rfl, rfl⟩ := place
  exact heads.unique heads'

theorem Names.found (nonempty : mark ≠ []) (plain : '\n' ∉ mark) (h : Names source.toList mark p name) :
    ∃ i, lineIndex? (linesOf source) p = some i ∧ nameAfter? (lineAt (linesOf source) i) p.column mark =
      some (p.column + mark.length, p.column + mark.length + name.length) := by
  obtain ⟨i, c, rfl, line_lt, heads⟩ := (names_iff plain).mp h
  refine ⟨i, lineIndex?_eq_some_iff.mpr ⟨rfl, line_lt⟩, ?_⟩
  exact (nameAfter?_eq_some_iff nonempty).mpr ⟨c, name, rfl, heads, rfl, rfl⟩

theorem exists_names (nonempty : mark ≠ []) (plain : '\n' ∉ mark) {i : Nat} (onLine : lineIndex? (linesOf source) p = some i)
    {start stop : Int} (found : nameAfter? (lineAt (linesOf source) i) p.column mark = some (start, stop)) :
    ∃ name, Names source.toList mark p name ∧ start = p.column + mark.length ∧ stop = start + name.length := by
  obtain ⟨c, name, column, heads, start_eq, stop_eq⟩ := (nameAfter?_eq_some_iff nonempty).mp found
  obtain ⟨line, line_lt⟩ := lineIndex?_eq_some_iff.mp onLine
  refine ⟨name, (names_iff plain).mpr ⟨i, c, ?_, line_lt, heads⟩, start_eq, stop_eq⟩
  cases p
  simp only at line column
  rw [line, column]

end

/-! ### The two edits -/

/-- The edit that puts another name behind a mark. -/
def nameEdit (p : Position) (mark name : List Char) (new : String) : LineEdit :=
  { line := (p.line - 1).toNat, start := p.column + mark.length, stop := p.column + mark.length + name.length, text := new }

section

variable {source : String} {f : Fix} {l : Location} {p : Position} {new : String} {attributes : List (String × String)}
  {a b : List Char} {index : Nat}

theorem lineIndex?_eq {lines : List Line} {p : Position} {i : Nat} (h : lineIndex? lines p = some i) : (p.line - 1).toNat = i := by
  have := (lineIndex?_eq_some_iff.mp h).1
  omega

/-- Where both tags begin, both names are replaced. -/
theorem renameEdits_of_names (closing : l.closing = some p) (onLine : lineIndex? (linesOf source) l.start = some index)
    (opens : Opens source.toList l.start a) (closes : Closes source.toList p b) :
    renameEdits (linesOf source) index l new = .ok [nameEdit l.start ['<'] a new, nameEdit p ['<', '/'] b new] := by
  obtain ⟨i, first, opening⟩ := opens.found (by simp) (by simp)
  obtain ⟨j, second, closed⟩ := closes.found (by simp) (by simp)
  obtain rfl := Option.some.inj (onLine.symm.trans first)
  rw [renameEdits, opening, closing]
  simp only [second, closed, Option.bind_some, Option.map_some, nameEdit, lineIndex?_eq onLine, lineIndex?_eq second]

/-- Only where both tags begin is anything replaced, and then it is their names. -/
theorem names_of_renameEdits (closing : l.closing = some p) (onLine : lineIndex? (linesOf source) l.start = some index)
    {names : List LineEdit} (h : renameEdits (linesOf source) index l new = .ok names) :
    ∃ a b, Opens source.toList l.start a ∧ Closes source.toList p b := by
  rw [renameEdits] at h
  split at h
  · cases h
  next start stop opening =>
    obtain ⟨a, opens, _⟩ := exists_names (by simp) (by simp) onLine opening
    rw [closing] at h
    simp only at h
    split at h
    next e closed =>
      obtain ⟨i, onLine', found⟩ := Option.bind_eq_some_iff.mp closed
      obtain ⟨⟨start', stop'⟩, name, _⟩ := Option.map_eq_some_iff.mp found
      obtain ⟨b, closes, _⟩ := exists_names (by simp) (by simp) onLine' name
      exact ⟨a, b, opens, closes⟩
    · cases h

/-- In any pass, a fix replaces the names of the tags that begin at its two places, or it does nothing at all. -/
theorem contribution_names (change : f.change? = some (.rename new attributes)) (location : f.location = some l)
    (closing : l.closing = some p) (before : List Fix) :
    contribution (linesOf source) before f = [] ∨
      ∃ a b more, Opens source.toList l.start a ∧ Closes source.toList p b ∧
        contribution (linesOf source) before f = nameEdit l.start ['<'] a new :: nameEdit p ['<', '/'] b new :: more := by
  have made : contribution (linesOf source) before f = [] ∨ _ := contribution_rename (linesOf source) change location closing
  rcases made with nothing | ⟨index, first, second, more, onLine, names, adds⟩
  · exact Or.inl nothing
  · obtain ⟨a, b, opens, closes⟩ := names_of_renameEdits closing onLine names
    rw [renameEdits_of_names closing onLine opens closes, Except.ok.injEq, List.cons.injEq, List.cons.injEq] at names
    obtain ⟨rfl, rfl, _⟩ := names
    exact Or.inr ⟨a, b, more, opens, closes, adds⟩

/-- What stands at the columns of a line at which a mark and a name stand. -/
theorem Heads.getElem? {mark name : List Char} {cs : Line} {c : Nat} (heads : Heads mark name (cs.drop c)) (k : Nat) :
    (k < mark.length → cs[c + k]? = mark[k]?) ∧
      (mark.length ≤ k → k < mark.length + name.length → ∃ d, cs[c + k]? = some d ∧ isTagNamePart d = true) := by
  obtain ⟨rest, split, _⟩ := heads.stands
  have stands : cs[c + k]? = (mark ++ (name ++ rest))[k]? := by rw [← split, List.getElem?_drop]
  rw [stands]
  constructor
  · intro inMark
    rw [List.getElem?_append_left inMark]
  · intro behind inside
    have inName : k - mark.length < name.length := by omega
    rw [List.getElem?_append_right behind, List.getElem?_append_left inName, List.getElem?_eq_getElem inName]
    exact ⟨_, rfl, heads.part _ (List.getElem_mem inName)⟩

/-- The names of an open tag and a closing tag never overlap: no mark stands in a name. -/
theorem nameEdit_apart (opens : Opens source.toList l.start a) (closes : Closes source.toList p b) :
    (nameEdit p ['<', '/'] b new).overlaps (nameEdit l.start ['<'] a new) = false := by
  obtain ⟨i, c, place, _, opening⟩ := (names_iff (by simp)).mp opens
  obtain ⟨j, d, place', _, closed⟩ := (names_iff (by simp)).mp closes
  rw [Bool.eq_false_iff]
  intro overlap
  simp only [LineEdit.overlaps, nameEdit, place, place', Bool.and_eq_true, beq_iff_eq, decide_eq_true_eq, List.length_cons,
    List.length_nil] at overlap
  obtain rfl : i = j := by omega
  have angle : (lineAt (linesOf source) i)[c]? = some '<' := (opening.getElem? 0).1 (by decide)
  have angle' : (lineAt (linesOf source) i)[d]? = some '<' := (closed.getElem? 0).1 (by decide)
  have slash : (lineAt (linesOf source) i)[d + 1]? = some '/' := (closed.getElem? 1).1 (by decide)
  have other (x : Char) (h : isTagNamePart x = true) : x ≠ '<' ∧ x ≠ '/' := by
    constructor <;> rintro rfl <;> exact absurd h (by decide)
  rcases Nat.lt_trichotomy c d with first | rfl | behind
  · -- The bracket of the closing tag would be part of the name of the open one.
    obtain ⟨x, stands, part⟩ := (opening.getElem? (d - c)).2 (by simp; omega) (by simp; omega)
    rw [Nat.add_sub_cancel' (Nat.le_of_lt first), angle'] at stands
    exact (other x part).1 (Option.some.inj stands).symm
  · obtain ⟨x, stands, part⟩ := (opening.getElem? 1).2 (by simp) (by simp; omega)
    rw [slash] at stands
    exact (other x part).2 (Option.some.inj stands).symm
  · by_cases next : c = d + 1
    · rw [next, slash] at angle
      exact absurd angle (by decide)
    · obtain ⟨x, stands, part⟩ := (closed.getElem? (c - d)).2 (by simp; omega) (by simp; omega)
      rw [Nat.add_sub_cancel' (Nat.le_of_lt behind), angle] at stands
      exact (other x part).1 (Option.some.inj stands).symm

/-- Without attributes, the names of the two tags are all that a fix replaces by itself, whatever they are. -/
theorem contribution_alone (change : f.change? = some (.rename new [])) (location : f.location = some l)
    (closing : l.closing = some p) (opens : Opens source.toList l.start a) (closes : Closes source.toList p b) :
    contribution (linesOf source) [] f = [nameEdit l.start ['<'] a new, nameEdit p ['<', '/'] b new] := by
  obtain ⟨index, onLine, _⟩ := opens.found (by simp) (by simp)
  have planned : plannedEdits (linesOf source) f = [nameEdit l.start ['<'] a new, nameEdit p ['<', '/'] b new] := by
    simp [plannedEdits, location, onLine, planFix, change, renameEdits_of_names closing onLine opens closes, updateEdits]
  have taken {e e' : LineEdit} (claim : e.claim = none) (claim' : e'.claim = none) (apart : e'.overlaps e = false) :
      (LinePlan.empty.addFor [e, e'] f).1.edits = [e, e'] := by
    simp [LinePlan.addFor, LinePlan.gather, LinePlan.empty, claim, claim', apart]
  rw [← edits_planOf_singleton, planOf_singleton, own, planned]
  exact taken rfl rfl (nameEdit_apart opens closes)

/-- Where one of the two tags does not begin, nothing is done. -/
theorem apply_of_missing (change : f.change? = some (.rename new attributes)) (location : f.location = some l)
    (closing : l.closing = some p)
    (missing : (¬ ∃ a, Opens source.toList l.start a) ∨ ¬ ∃ b, Closes source.toList p b) :
    (∀ before, contribution (linesOf source) before f = []) ∧ (apply source [f]).text = .ok source := by
  have nothing (before : List Fix) : contribution (linesOf source) before f = [] := by
    rcases contribution_names change location closing before with nothing | ⟨a, b, _, opens, closes, _⟩
    · exact nothing
    · exact (missing.elim (fun h => h ⟨a, opens⟩) fun h => h ⟨b, closes⟩).elim
  refine ⟨nothing, ?_⟩
  rw [text_apply, textOf, edits_planOf_singleton, nothing]
  rfl

/-! ### The text with both names replaced -/

/-- An open tag, and a closing tag behind it. -/
structure Tags (text : List Char) (p q : Position) (a b front mid back : List Char) : Prop where
  text : text = front ++ '<' :: (a ++ (mid ++ '<' :: '/' :: (b ++ back)))
  start : Position.after front = p
  stop : Position.after (front ++ '<' :: (a ++ mid)) = q
  ends : EndsName (mid ++ '<' :: '/' :: (b ++ back))
  ends' : EndsName back

/-- Tags that begin one behind the other stand so in the text. -/
theorem exists_tags {text : List Char} {q : Position} (opens : Opens text p a) (closes : Closes text q b)
    (before : p.Before q) : ∃ front mid back, Tags text p q a b front mid back := by
  obtain ⟨front, back, rfl, rfl, _, part, rest, rfl, ends⟩ := opens
  obtain ⟨front', back', split, rfl, _, _, rest', rfl, ends'⟩ := closes
  have further (cs more : List Char) : Position.after (cs ++ more) = more.foldl Position.stepChar (Position.after cs) :=
    List.foldl_append
  -- The closing tag begins behind the name of the open one: not before it by the order of the places, not in it by its bracket.
  rcases List.append_eq_append_iff.mp split with ⟨more, rfl, inner⟩ | ⟨more, rfl, _⟩
  · cases more with
    | nil => exact absurd (by rw [List.append_nil]) before.ne
    | cons c more =>
      obtain rfl : '<' = c := (List.cons.inj inner).1
      have behindName : a ++ rest = more ++ '<' :: '/' :: (b ++ rest') := (List.cons.inj inner).2
      rcases List.append_eq_append_iff.mp behindName with ⟨mid, rfl, rfl⟩ | ⟨extra, name, feeds⟩
      · exact ⟨front, mid, rest', rfl, rfl, rfl, ends, ends'⟩
      · cases extra with
        | nil =>
          rw [List.append_nil] at name
          subst name
          rw [List.nil_append] at feeds
          subst feeds
          exact ⟨front, [], rest', rfl, rfl, by rw [List.append_nil], ends, ends'⟩
        | cons d extra =>
          -- The bracket of the closing tag is no part of a name.
          obtain rfl : '<' = d := (List.cons.inj feeds).1
          exact absurd (part '<' (by simp [name])) (by decide)
  · cases more with
    | nil => exact absurd (by rw [List.append_nil]) before.ne
    | cons c more =>
      have earlier := Position.before_foldl (Position.after front') c more
      rw [← further] at earlier
      exact absurd rfl (before.trans earlier).ne

/-- The edit of a name stands where the name does. -/
theorem nameEdit_replaces {mark name front rest : List Char} (plain : '\n' ∉ mark)
    (part : ∀ c ∈ name, isTagNamePart c = true) (split : source.toList = front ++ (mark ++ (name ++ rest)))
    (place : Position.after front = p) :
    (nameEdit p mark name new).Replaces (linesOf source) (front ++ mark) name rest := by
  obtain ⟨i, c, cut, place'⟩ := cutsAt_of_append front (mark ++ (name ++ rest))
  rw [← split] at cut
  have feedless : '\n' ∉ name := fun member => absurd (part _ member) (by decide)
  have start := cut.along plain
  have stop := start.along feedless
  have line : (p.line - 1).toNat = i := by
    rw [← place, place']
    simp
  have column : p.column = c := by rw [← place, place']
  refine ⟨?_, ?_, by simp [nameEdit]⟩
  · rw [nameEdit, line, column]
    exact start
  · rw [nameEdit, line, column]
    exact stop

/-- Without attributes, what a fix makes of a text is the text with both names replaced, whatever they were. -/
theorem apply_tags (change : f.change? = some (.rename new [])) (location : f.location = some l)
    (closing : l.closing = some p) (opens : Opens source.toList l.start a) (closes : Closes source.toList p b)
    (before : l.start.Before p) {front mid back : List Char} (tags : Tags source.toList l.start p a b front mid back) :
    (apply source [f]).text =
      .ok (String.ofList (front ++ '<' :: (new.toList ++ (mid ++ '<' :: '/' :: (new.toList ++ back))))) := by
  have part : ∀ c ∈ a, isTagNamePart c = true := opens.elim fun _ h => h.elim fun _ h => h.2.2.part
  have part' : ∀ c ∈ b, isTagNamePart c = true := closes.elim fun _ h => h.elim fun _ h => h.2.2.part
  have first : (nameEdit l.start ['<'] a new).Replaces (linesOf source) (front ++ ['<']) a
      ((mid ++ ['<', '/']) ++ (b ++ back)) :=
    nameEdit_replaces (by simp) part (by simp [tags.text]) tags.start
  have second : (nameEdit p ['<', '/'] b new).Replaces (linesOf source) (front ++ ['<'] ++ (a ++ (mid ++ ['<', '/']))) b back := by
    have split : source.toList = (front ++ '<' :: (a ++ mid)) ++ (['<', '/'] ++ (b ++ back)) := by simp [tags.text]
    have stands : (nameEdit p ['<', '/'] b new).Replaces (linesOf source) (front ++ '<' :: (a ++ mid) ++ ['<', '/']) b back :=
      nameEdit_replaces (by simp) part' split tags.stop
    have same : front ++ '<' :: (a ++ mid) ++ ['<', '/'] = front ++ ['<'] ++ (a ++ (mid ++ ['<', '/'])) := by simp
    rwa [same] at stands
  -- Edits are applied from behind, so the first place is still that of its name when its turn comes.
  have order : (nameEdit l.start ['<'] a new).notAfter (nameEdit p ['<', '/'] b new) = true := by
    have line := Position.one_le_line_after front
    rw [tags.start] at line
    rw [LineEdit.notAfter_iff]
    rw [Position.Before] at before
    simp only [nameEdit, List.length_cons, List.length_nil]
    omega
  have apart : (nameEdit l.start ['<'] a new).overlaps (nameEdit p ['<', '/'] b new) = false := by
    rw [LineEdit.overlaps_comm]
    exact nameEdit_apart opens closes
  have behind := LineEdit.behind_of_notAfter second.forward order apart
  rw [text_apply, textOf, edits_planOf_singleton, contribution_alone change location closing opens closes, LinePlan.apply,
    edits_planOf_singleton, contribution_alone change location closing opens closes]
  have sorted : [nameEdit l.start ['<'] a new, nameEdit p ['<', '/'] b new].mergeSort LineEdit.notAfter =
      [nameEdit l.start ['<'] a new, nameEdit p ['<', '/'] b new] := by
    apply List.mergeSort_of_pairwise
    simpa using order
  have text := (first.applyTo second behind).text
  rw [textOfLines] at text
  rw [sorted]
  simp only [List.isEmpty_cons, Bool.false_eq_true, if_false, List.foldr_cons, List.foldr_nil, joinLines, text]
  simp [nameEdit]

/-- Behind its own outcome, a fix that replaced two names does nothing more exactly if no closing tag of another name has come to
stand where the one was that it replaced. -/
theorem apply_again (change : f.change? = some (.rename new [])) (location : f.location = some l)
    (closing : l.closing = some p) (opens : Opens source.toList l.start a) (closes : Closes source.toList p b)
    (before : l.start.Before p) (nonempty : new.toList ≠ []) (part : ∀ c ∈ new.toList, isTagNamePart c = true) :
    ∃ once, (apply source [f]).text = .ok once ∧ Opens once.toList l.start new.toList ∧
      ((apply once [f]).text = .ok once ↔ ∀ b', Closes once.toList p b' → b' = new.toList) := by
  obtain ⟨front, mid, back, tags⟩ := exists_tags opens closes before
  let text := front ++ '<' :: (new.toList ++ (mid ++ '<' :: '/' :: (new.toList ++ back)))
  have whole : (String.ofList text).toList = text := String.toList_ofList
  have ends : EndsName (mid ++ '<' :: '/' :: (new.toList ++ back)) := by
    have ends := tags.ends
    cases mid with
    | nil => exact ends
    | cons c mid => exact ends
  have opens' : Opens text l.start new.toList := ⟨front, _, rfl, tags.start, nonempty, part, _, rfl, ends⟩
  refine ⟨String.ofList text, apply_tags change location closing opens closes before tags, by rwa [whole], ?_⟩
  -- The open tag is back at its place. What is left of the question is which closing tag stands at the other one, if any.
  by_cases closed : ∃ b', Closes text p b'
  · obtain ⟨b', closes'⟩ := closed
    rw [← whole] at opens' closes'
    obtain ⟨front', mid', back', tags'⟩ := exists_tags opens' closes' before
    rw [apply_tags change location closing opens' closes' before tags', Except.ok.injEq, ← String.toList_inj,
      String.toList_ofList]
    constructor
    · -- A name that differs would be replaced by another one, and the text with it.
      intro same b'' closes''
      obtain rfl := Names.unique (by simp) closes'' closes'
      rw [tags'.text] at same
      simpa using same.symm
    · intro unmoved
      rw [unmoved b' closes'] at tags'
      exact tags'.text.symm
  · rw [← whole] at closed
    refine iff_of_true (apply_of_missing change location closing (Or.inr closed)).2 fun b' closes' => absurd ⟨b', closes'⟩ closed

end

/-! ### Places of the text as it is -/

/-- A mark stands at a byte of a text, and a name behind it that ends before the text does. -/
def SpelledAt (text mark : List Char) (byte : Nat) (name : List Char) : Prop :=
  ∃ front back, text = front ++ (mark ++ (name ++ back)) ∧ (Text.encode front).length = byte ∧ name ≠ [] ∧
    (∀ c ∈ name, isTagNamePart c = true) ∧ back ≠ [] ∧ EndsName back

theorem SpelledAt.isBoundary {text mark name : List Char} {byte : Nat} (h : SpelledAt text mark byte name) :
    Text.IsBoundary text byte := by
  obtain ⟨front, back, split, length, _⟩ := h
  exact ⟨front, _, split, length⟩

/-- What stands at a byte of a block stands in the file at the place that is told of it. -/
theorem names_of_block {source : String} {b : Block} (cut : b.IsCutFrom source) {mark name : List Char} {byte : Nat}
    (nonempty : mark ≠ []) (spelled : SpelledAt b.content.toList mark byte name) :
    Names source.toList mark (b.position source byte) name := by
  obtain ⟨front, back, split, rfl, named, part, more, ends⟩ := spelled
  obtain ⟨rest, whole⟩ := cut.content
  rw [split, Text.encode_append, List.append_assoc] at whole
  have behind : (Text.encode source.toList).drop (b.offset + (Text.encode front).length) =
      Text.encode (mark ++ (name ++ back)) ++ rest := by
    rw [← List.drop_drop, ← whole, List.drop_left]
  -- The mark begins with a whole character, in the block and so in the file.
  obtain ⟨m, ms, rfl⟩ := List.exists_cons_of_ne_nil nonempty
  obtain ⟨first, bytes, encoded, begins, _⟩ := Text.exists_utf8EncodeChar m
  have byte : (Text.encode source.toList)[b.offset + (Text.encode front).length]? = some first := by
    have spread : Text.encode (m :: ms ++ (name ++ back)) = first :: (bytes ++ Text.encode (ms ++ (name ++ back))) := by
      rw [← List.cons_append, ← encoded]
      rfl
    rw [← Nat.add_zero (b.offset + _), ← List.getElem?_drop, behind, spread]
    rfl
  obtain ⟨before, after, cutThere, length⟩ := Text.IsBoundary.of_byte byte begins
  have onward : Text.encode (m :: ms ++ (name ++ back)) ++ rest = Text.encode after := by
    rw [← behind, cutThere, Text.encode_append, ← length, List.drop_left]
  obtain ⟨later, rfl⟩ := Text.exists_of_encode_append onward
  refine ⟨before, _, cutThere, ?_, named, part, back ++ later, by simp, ?_⟩
  · rw [Block.position, ← length, Position.ofOffset_encode cutThere]
  · obtain ⟨c, back, rfl⟩ := List.exists_cons_of_ne_nil more
    exact ends

/-! ### Both names -/

/-- A closing tag that begins at the second of two places has the name of the open tag that begins at the first one. -/
def Paired (text : List Char) (p q : Position) : Prop := ∀ a b, Opens text p a → Closes text q b → a = b

/-- What becomes of a fix that gives an element with a closing tag another name, by what stands at its two places. -/
structure RenamesInPlace (source : String) (f : Fix) (l : Location) (p : Position) (new : String)
    (attributes : List (String × String)) : Prop where
  /-- In any pass, the fix replaces the whole names of the tags that begin at its places, or it does nothing at all. -/
  names : ∀ before, contribution (linesOf source) before f = [] ∨
    ∃ a b more, Opens source.toList l.start a ∧ Closes source.toList p b ∧
      contribution (linesOf source) before f = nameEdit l.start ['<'] a new :: nameEdit p ['<', '/'] b new :: more
  /-- It does nothing where one of the tags has moved away. -/
  moved : ((¬ ∃ a, Opens source.toList l.start a) ∨ ¬ ∃ b, Closes source.toList p b) →
    (∀ before, contribution (linesOf source) before f = []) ∧ (apply source [f]).text = .ok source
  /-- Where the tags are paired, it replaces one name twice. -/
  paired : Paired source.toList l.start p → ∀ before, contribution (linesOf source) before f = [] ∨
    ∃ a more, Opens source.toList l.start a ∧ Closes source.toList p a ∧
      contribution (linesOf source) before f = nameEdit l.start ['<'] a new :: nameEdit p ['<', '/'] a new :: more
  /-- Where they are not, it replaces two names, for all that it looks at. -/
  crossed : attributes = [] → ¬ Paired source.toList l.start p →
    ∃ a b, a ≠ b ∧ Opens source.toList l.start a ∧ Closes source.toList p b ∧
      contribution (linesOf source) [] f = [nameEdit l.start ['<'] a new, nameEdit p ['<', '/'] b new]
  /-- Behind its own outcome, it does nothing more unless another closing tag has come to its place, and exactly then. -/
  again : attributes = [] → l.start.Before p → '\n' ∉ new.toList → (∃ a, Opens source.toList l.start a) →
    (∃ b, Closes source.toList p b) →
      ∃ once, (apply source [f]).text = .ok once ∧ Opens once.toList l.start new.toList ∧
        ((apply once [f]).text = .ok once ↔ Paired once.toList l.start p)

/-- The name that is given is one that is found again, but for a line feed at its end. -/
theorem isTagNamePart_of_rename {f : Fix} {new : String} {attributes : List (String × String)}
    (change : f.change? = some (.rename new attributes)) (plain : '\n' ∉ new.toList) :
    new.toList ≠ [] ∧ ∀ c ∈ new.toList, isTagNamePart c = true := by
  cases Fix.change?_eq_some_iff.mp change with
  | renames _ _ valid =>
    obtain ⟨tag, isTag, same | fed⟩ := isTagName_iff.mp valid
    · rw [same]
      exact ⟨isTag.ne_nil, fun c member => nameClass_component.tag c (isTag.part c member)⟩
    · exact absurd (by simp [fed]) plain

theorem renamesInPlace {source : String} {f : Fix} {l : Location} {p : Position} {new : String}
    {attributes : List (String × String)} (change : f.change? = some (.rename new attributes)) (location : f.location = some l)
    (closing : l.closing = some p) : RenamesInPlace source f l p new attributes where
  names := contribution_names change location closing
  moved := apply_of_missing change location closing
  paired pair before := by
    rcases contribution_names change location closing before with nothing | ⟨a, b, more, opens, closes, adds⟩
    · exact Or.inl nothing
    · obtain rfl := pair a b opens closes
      exact Or.inr ⟨a, more, opens, closes, adds⟩
  crossed bare drifted := by
    subst bare
    simp only [Paired, not_forall] at drifted
    obtain ⟨a, b, opens, closes, differ⟩ := drifted
    exact ⟨a, b, differ, opens, closes, contribution_alone change location closing opens closes⟩
  again bare before plain := by
    subst bare
    obtain ⟨nonempty, part⟩ := isTagNamePart_of_rename change plain
    rintro ⟨a, opens⟩ ⟨b, closes⟩
    obtain ⟨once, text, opens', second⟩ := apply_again change location closing opens closes before nonempty part
    refine ⟨once, text, opens', second.trans ⟨fun same a' b' open_ close_ => ?_, fun pair b' close_ => ?_⟩⟩
    · rw [same b' close_]
      exact Names.unique (by simp) open_ opens'
    · exact (pair _ b' opens' close_).symm

/-- **Both names of an element are replaced, or two of different elements.** A fix that gives an element another name replaces
what is named at its two places; one of the names may be that of another element only if such a closing tag stands there. Places
that are told of an element whose two tags have the same name, on the text as it is, are never so. -/
theorem tags_renamed_in_place (source : String) {f : Fix} {l : Location} {p : Position} {new : String}
    {attributes : List (String × String)} (change : f.change? = some (.rename new attributes)) (location : f.location = some l)
    (closing : l.closing = some p) :
    RenamesInPlace source f l p new attributes ∧
      ∀ parsers : Remedy.Component.Parsers, parsers.Sound → ∀ (file : String) (b : Block),
        template? (parsers.blocks source) = some b → ∀ e ∈ Html.elements (parsers.html b.content),
          ∀ (c : Candidate) (t : Node) (name : List Char),
            Candidate.ofHtmlElement? (Remedy.Component.Parsers.templateView b) (Text.encode b.content.toList) file e = some c →
              Html.closeTag? e = some t → SpelledAt b.content.toList ['<'] e.start name →
                SpelledAt b.content.toList ['<', '/'] t.start name → l.start = c.location → l.closing = c.closing →
                  Opens source.toList l.start name ∧ Closes source.toList p name ∧ Paired source.toList l.start p := by
  refine ⟨renamesInPlace change location closing, ?_⟩
  intro parsers sound file b first e _ c t name made closes opening closed start stop
  have cut := (sound.tellsPlaces source).cut b (Remedy.Component.Parsers.mem_of_template? first)
  obtain ⟨told, told'⟩ := Candidate.places_ofHtmlElement? made
  have place : l.start = b.position source e.start := start.trans (told.trans (cut.shift opening.isBoundary))
  have place' : p = b.position source t.start := by
    rw [closes] at told'
    have same := closing.symm.trans (stop.trans told')
    exact (Option.some.inj same).trans (cut.shift closed.isBoundary)
  have opens : Opens source.toList l.start name := place ▸ names_of_block cut (by simp) opening
  have closes' : Closes source.toList p name := place' ▸ names_of_block cut (by simp) closed
  refine ⟨opens, closes', fun a d open_ close_ => ?_⟩
  exact (Names.unique (by simp) open_ opens).trans (Names.unique (by simp) closes' close_)

namespace Emphasis

/-- Where the two tags of the bold element of a component begin. -/
def place : Location := ⟨"a.vue", ⟨2, 0⟩, some ⟨2, 4⟩⟩

/-- The element becomes an emphasized one. -/
def fix : Fix where
  kind := .convertTag
  selector := ""
  payload := ⟨none, none, none, some "em", []⟩
  metadata := ⟨.null, none, none, some place, []⟩

def block : Block := ⟨"template", Accented.template, 12, ⟨1, 11⟩, []⟩

def closing : Node := Accented.part "end_tag" 10 14 [Accented.part "tag_name" 12 13 []]

def element : Node :=
  Accented.part "element" 6 14 [
    Accented.part "start_tag" 6 9 [Accented.part "tag_name" 7 8 []],
    Accented.part "text" 9 10 [],
    closing]

def once : String := "é<template>é<i>\n<em>x</em></template>"

theorem spelled : SpelledAt block.content.toList ['<'] element.start ['b'] :=
  ⟨"é<i>\n".toList, ">x</b>".toList, by decide, by decide, by decide, by simp [isTagNamePart], by decide,
    fun c same => by cases same; decide⟩

theorem spelled_closing : SpelledAt block.content.toList ['<', '/'] closing.start ['b'] :=
  ⟨"é<i>\n<b>x".toList, ">".toList, by decide, by decide, by decide, by simp [isTagNamePart], by decide,
    fun c same => by cases same; decide⟩

end Emphasis

/-- The places of the bold element are those of both its tags. The closing tag moves to the right with what stands before it, so
its old place is missed the second time. -/
theorem emphasis_once :
    Paired Accented.source.toList ⟨2, 0⟩ ⟨2, 4⟩ ∧ (apply Accented.source [Emphasis.fix]).text = .ok Emphasis.once ∧
      (apply Emphasis.once [Emphasis.fix]).text = .ok Emphasis.once := by
  obtain ⟨renames, fresh⟩ := tags_renamed_in_place Accented.source (f := Emphasis.fix) (p := ⟨2, 4⟩) (l := Emphasis.place)
    (by cbv : Emphasis.fix.change? = some (.rename "em" [])) rfl rfl
  have told : (Candidate.ofHtmlElement? (Remedy.Component.Parsers.templateView Emphasis.block)
      (Text.encode Emphasis.block.content.toList) "a.vue" Emphasis.element).map (fun c => (c.location, c.closing)) =
        some (⟨2, 0⟩, some ⟨2, 4⟩) := by decide +kernel
  obtain ⟨c, made, places⟩ := Option.map_eq_some_iff.mp told
  obtain ⟨start, stop⟩ := Prod.mk.inj places
  obtain ⟨opens, closes, paired⟩ :=
    fresh Accented.parsers Accented.sound "a.vue" Emphasis.block (by decide) Emphasis.element (List.mem_of_getElem? (i := 1) rfl) c
      Emphasis.closing ['b'] made rfl Emphasis.spelled Emphasis.spelled_closing start.symm stop.symm
  obtain ⟨once, first, _, second⟩ := renames.again rfl (Or.inr ⟨rfl, by decide⟩) (by decide) ⟨_, opens⟩ ⟨_, closes⟩
  have text : (apply Accented.source [Emphasis.fix]).text = .ok Emphasis.once := by cbv
  rw [text] at first
  obtain rfl := Except.ok.inj first
  refine ⟨paired, text, second.mpr fun a b _ closes => ?_⟩
  -- At the old place, there is the text of the element.
  obtain ⟨i, onLine, found⟩ := closes.found (by simp) (by simp)
  obtain rfl : 1 = i := Option.some.inj ((by decide : some 1 = lineIndex? (linesOf Emphasis.once) ⟨2, 4⟩).trans onLine)
  have unfound : nameAfter? (lineAt (linesOf Emphasis.once) 1) 4 ['<', '/'] = none := by decide
  rw [unfound] at found
  cases found

namespace Label

/-- An anchor around a bold element becomes a label. -/
def source : String := "<template>\n<a><b></b></a>\n</template>\n"

def fix : Fix where
  kind := .convertTag
  selector := ""
  payload := ⟨none, none, none, some "label", []⟩
  metadata := ⟨.null, none, none, some ⟨"c.vue", ⟨2, 0⟩, some ⟨2, 10⟩⟩, []⟩

def once : String := "<template>\n<label><b></b></label>\n</template>\n"

def twice : String := "<template>\n<label><b></label></label>\n</template>\n"

end Label

/-- The second time, the closing tag of the bold element has come to stand where that of the anchor was: its name is replaced
together with the one of the label, and the tags cross. -/
theorem label_crosses :
    (apply Label.source [Label.fix]).text = .ok Label.once ∧ Opens Label.once.toList ⟨2, 0⟩ "label".toList ∧
      Closes Label.once.toList ⟨2, 10⟩ ['b'] ∧ (apply Label.once [Label.fix]).text = .ok Label.twice := by
  refine ⟨by cbv, ?_, ?_, by cbv⟩
  · refine ⟨"<template>\n".toList, "<label><b></b></label>\n</template>\n".toList, by decide, by decide, ?_⟩
    refine ⟨by decide, by simp [isTagNamePart], "><b></b></label>\n</template>\n".toList, by decide, fun c same => ?_⟩
    cases same
    decide
  · refine ⟨"<template>\n<label><b>".toList, "</b></label>\n</template>\n".toList, by decide, by decide, ?_⟩
    refine ⟨by decide, by simp [isTagNamePart], "></label>\n</template>\n".toList, by decide, fun c same => ?_⟩
    cases same
    decide

end Remedy.Patch.Component
