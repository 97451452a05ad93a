import Mathlib.Data.List.Basic
import Remedy.Proofs.Path.Canonical
import Remedy.Run.Target

/-!
Which source a built file is taken for. The directory in which it was built is looked for in the text of its path, between two
slashes, and the first one of a name is the only one that is found; at the front of a relative path there is no slash before it.
-/

namespace Remedy.Target

open Remedy.Path

/-! ### Words between slashes -/

section

variable {name new out word : List Char} {rest : List (List Char)}

theorem intercalate_cons (word : List Char) (rest : List (List Char)) :
    ['/'].intercalate (word :: rest) = word ++ rest.flatMap ('/' :: ·) := by
  induction rest generalizing word with
  | nil => rw [List.intercalate_singleton, List.flatMap_nil, List.append_nil]
  | cons v rest ih =>
    rw [List.intercalate_cons_cons, ih, List.flatMap_cons, List.append_assoc]
    rfl

/-- How names of directories stand in the middle of a path. -/
def mark (names : List String) : List Char := '/' :: names.flatMap fun n => n.toList ++ ['/']

theorem flatMap_mark (names : List String) (v : List Char) (back : List (List Char)) :
    (names.map String.toList ++ v :: back).flatMap ('/' :: ·) = mark names ++ ['/'].intercalate (v :: back) := by
  rw [intercalate_cons]
  induction names with
  | nil => rfl
  | cons n rest ih =>
    rw [List.map_cons, List.cons_append, List.flatMap_cons, ih]
    simp [mark]

theorem intercalate_mark {front back : List (List Char)} (nonempty : front ≠ []) (nonempty' : back ≠ []) (names : List String) :
    ['/'].intercalate (front ++ (names.map String.toList ++ back)) =
      ['/'].intercalate front ++ (mark names ++ ['/'].intercalate back) := by
  obtain ⟨w, front, rfl⟩ := List.exists_cons_of_ne_nil nonempty
  obtain ⟨v, back, rfl⟩ := List.exists_cons_of_ne_nil nonempty'
  rw [List.cons_append, intercalate_cons, List.flatMap_append, flatMap_mark, ← List.append_assoc, ← intercalate_cons]

theorem replaceFirst?_plain (plain : '/' ∉ word) (text : List Char) :
    replaceFirst? ('/' :: name) new (word ++ text) = (replaceFirst? ('/' :: name) new text).map (word ++ ·) := by
  induction word with
  | nil => simp
  | cons c word ih =>
    rw [List.mem_cons, not_or] at plain
    have other : ('/' == c) = false := by simpa using plain.1
    rw [List.cons_append, replaceFirst?, List.isPrefixOf_cons_cons, other, Bool.false_and, if_neg Bool.false_ne_true, ih plain.2,
      Option.map_map]
    rfl

theorem replaceFirst?_here (back : List Char) :
    replaceFirst? ('/' :: (name ++ ['/'])) new ('/' :: (name ++ '/' :: back)) = some (new ++ back) := by
  have whole : '/' :: (name ++ '/' :: back) = ('/' :: (name ++ ['/'])) ++ back := by simp
  rw [replaceFirst?, whole, List.drop_left, if_pos]
  exact List.isPrefixOf_iff_prefix.mpr (List.prefix_append _ _)

theorem replaceFirst?_later {text : List Char} (other : ¬ name ++ ['/'] <+: text) :
    replaceFirst? ('/' :: (name ++ ['/'])) new ('/' :: text) =
      (replaceFirst? ('/' :: (name ++ ['/'])) new text).map ('/' :: ·) := by
  rw [replaceFirst?, if_neg]
  rwa [List.isPrefixOf_iff_prefix, List.cons_prefix_cons, eq_self, true_and]

/-- Words begin with a name and a slash exactly if the first is the name and another one follows. -/
theorem prefix_intercalate_iff (plain : '/' ∉ name) (plain' : '/' ∉ word) :
    name ++ ['/'] <+: ['/'].intercalate (word :: rest) ↔ word = name ∧ rest ≠ [] := by
  rw [intercalate_cons]
  cases rest with
  | nil =>
    rw [List.flatMap_nil, List.append_nil]
    refine ⟨fun begins => absurd (begins.subset (by simp)) plain', fun h => absurd rfl h.2⟩
  | cons v rest =>
    rw [List.flatMap_cons, List.cons_append]
    constructor
    · rintro ⟨more, same⟩
      rw [List.append_assoc, List.singleton_append] at same
      have words := congrArg (namesFrom []) same
      rw [namesFrom_append_slash [] plain, namesFrom_append_slash [] plain'] at words
      exact ⟨(List.cons.inj words).1.symm, List.cons_ne_nil v rest⟩
    · rintro ⟨rfl, _⟩
      exact ⟨v ++ rest.flatMap ('/' :: ·), by rw [List.append_assoc, List.singleton_append]⟩

/-- **The first word of a name is replaced**, of those that have a slash before and behind. -/
theorem replaceFirst?_words (plain : '/' ∉ name) (plain' : ∀ w ∈ word :: rest, '/' ∉ w) :
    replaceFirst? ('/' :: (name ++ ['/'])) new (['/'].intercalate (word :: rest)) = some out ↔
      ∃ before after, rest = before ++ name :: after ∧ after ≠ [] ∧ name ∉ before ∧
        out = ['/'].intercalate (word :: before) ++ (new ++ ['/'].intercalate after) := by
  induction rest generalizing word out with
  | nil =>
    rw [List.intercalate_singleton, ← List.append_nil word, replaceFirst?_plain (plain' word List.mem_cons_self), replaceFirst?,
      Option.map_none]
    refine ⟨nofun, ?_⟩
    rintro ⟨before, after, split, _⟩
    simp at split
  | cons v rest ih =>
    rw [List.forall_mem_cons] at plain'
    have begins : name ++ ['/'] <+: ['/'].intercalate (v :: rest) ↔ v = name ∧ rest ≠ [] :=
      prefix_intercalate_iff plain (plain'.2 v List.mem_cons_self)
    rw [List.intercalate_cons_cons, List.append_assoc, List.singleton_append, replaceFirst?_plain plain'.1]
    by_cases found : v = name ∧ rest ≠ []
    · obtain ⟨rfl, nonempty⟩ := found
      obtain ⟨u, more, rfl⟩ := List.exists_cons_of_ne_nil nonempty
      rw [List.intercalate_cons_cons, List.append_assoc, List.singleton_append, replaceFirst?_here, Option.map_some,
        Option.some.injEq]
      constructor
      · rintro rfl
        exact ⟨[], u :: more, rfl, nonempty, List.not_mem_nil, by rw [List.intercalate_singleton]⟩
      · rintro ⟨before, after, split, _, first, rfl⟩
        cases before with
        | nil =>
          obtain ⟨_, rfl⟩ := List.cons.inj split
          rw [List.intercalate_singleton]
        | cons w before =>
          obtain ⟨rfl, _⟩ := List.cons.inj split
          exact absurd List.mem_cons_self first
    · rw [replaceFirst?_later fun begun => found (begins.mp begun), Option.map_map]
      simp only [Option.map_eq_some_iff, ih plain'.2]
      constructor
      · rintro ⟨_, ⟨before, after, rfl, nonempty, first, rfl⟩, rfl⟩
        refine ⟨v :: before, after, rfl, nonempty, ?_, ?_⟩
        · rw [List.mem_cons, not_or]
          exact ⟨fun same => found ⟨same.symm, by simp⟩, first⟩
        · simp [List.intercalate_cons_cons]
      · rintro ⟨before, after, split, nonempty, first, rfl⟩
        cases before with
        | nil =>
          obtain ⟨rfl, rfl⟩ := List.cons.inj split
          exact absurd ⟨rfl, nonempty⟩ found
        | cons w before =>
          obtain ⟨rfl, rfl⟩ := List.cons.inj split
          refine ⟨_, ⟨before, after, rfl, nonempty, fun member => first (List.mem_cons_of_mem v member), rfl⟩, ?_⟩
          simp [List.intercalate_cons_cons]

/-- The same of all words: the one that is replaced is not the first of them. -/
theorem replaceFirst?_eq_some_iff {words : List (List Char)} (plain : '/' ∉ name) (plain' : ∀ w ∈ words, '/' ∉ w) :
    replaceFirst? ('/' :: (name ++ ['/'])) new (['/'].intercalate words) = some out ↔
      ∃ before after, words = before ++ name :: after ∧ before ≠ [] ∧ after ≠ [] ∧ name ∉ before.tail ∧
        out = ['/'].intercalate before ++ (new ++ ['/'].intercalate after) := by
  cases words with
  | nil => simp [List.intercalate, replaceFirst?]
  | cons word rest =>
    rw [replaceFirst?_words plain plain']
    constructor
    · rintro ⟨before, after, rfl, nonempty, first, rfl⟩
      exact ⟨word :: before, after, rfl, List.cons_ne_nil _ _, nonempty, first, rfl⟩
    · rintro ⟨before, after, split, nonempty, nonempty', first, rfl⟩
      obtain ⟨w, before, rfl⟩ := List.exists_cons_of_ne_nil nonempty
      obtain ⟨rfl, rfl⟩ := List.cons.inj split
      exact ⟨before, after, rfl, nonempty', first, rfl⟩

end

/-! ### Directories of a path -/

/-- The words before the names of a path: nothing stands before the slashes of its root. -/
def lead (root : String) : List (List Char) := root.toList.map fun _ => []

section

variable {p q : Path} {name : String} {before after source : List String}

/-- The words of a path that has names. -/
theorem text_words (root : IsRoot p.root) (names : ∀ n ∈ p.names, IsName n) (nonempty : p.names ≠ []) :
    p.text.toList = ['/'].intercalate (lead p.root ++ p.names.map String.toList) := by
  obtain ⟨front, ns⟩ := p
  obtain ⟨n, rest, rfl⟩ := List.exists_cons_of_ne_nil nonempty
  have chars := toList_written front (n :: rest)
  rw [List.map_cons] at chars
  have more : n.toList ≠ [] := fun nothing => (names n List.mem_cons_self).1 (String.toList_eq_nil_iff.mp nothing)
  rw [text, if_neg]
  · rw [chars]
    rcases root.ways with rfl | rfl | rfl <;> simp [lead, List.intercalate_cons_cons]
  · rw [String.isEmpty_iff, ← String.toList_eq_nil_iff, chars, intercalate_cons]
    simp [more]

/-- A directory on the way to the last name of a path: what comes before it and behind it. -/
structure Stands (p : Path) (before : List String) (name : String) (after : List String) : Prop where
  names : p.names = before ++ name :: after
  inside : after ≠ []

/-- A directory that is found: it is the first of its name, where the first name of a relative path does not count. -/
structure Seen (p : Path) (before : List String) (name : String) (after : List String) : Prop extends Stands p before name after where
  led : p.isAbsolute = false → before ≠ []
  first : name ∉ if p.isAbsolute then before else before.tail

theorem lead_eq_nil_iff : lead p.root = [] ↔ p.isAbsolute = false := by
  simp [lead, isAbsolute]

theorem not_mem_lead (nonempty : name ≠ "") (root : String) : name.toList ∉ lead root := by
  rw [lead, List.mem_map]
  rintro ⟨_, _, nothing⟩
  exact nonempty (String.toList_eq_nil_iff.mp nothing.symm)

theorem toList_mem_map_iff : name.toList ∈ before.map String.toList ↔ name ∈ before :=
  List.mem_map_of_injective fun _ _ => String.toList_injective

theorem not_mem_tail_iff (nonempty : name ≠ "") :
    name.toList ∉ (lead p.root ++ before.map String.toList).tail ↔ name ∉ if p.isAbsolute then before else before.tail := by
  cases absolute : p.isAbsolute with
  | false =>
    rw [lead_eq_nil_iff.mpr absolute, List.nil_append, ← List.map_tail, toList_mem_map_iff, if_neg Bool.false_ne_true]
  | true =>
    have slashes : lead p.root ≠ [] := fun nothing => by
      rw [lead_eq_nil_iff, absolute] at nothing
      cases nothing
    have apart : name.toList ∉ (lead p.root).tail := fun member => not_mem_lead nonempty p.root (List.mem_of_mem_tail member)
    rw [List.tail_append_of_ne_nil slashes, List.mem_append, toList_mem_map_iff, if_pos rfl]
    simp [apart]

theorem seen_iff (nonempty : name ≠ "") :
    Seen p before name after ↔ p.names = before ++ name :: after ∧ lead p.root ++ before.map String.toList ≠ [] ∧ after ≠ [] ∧
      name.toList ∉ (lead p.root ++ before.map String.toList).tail := by
  have led : lead p.root ++ before.map String.toList ≠ [] ↔ (p.isAbsolute = false → before ≠ []) := by
    rw [Ne, List.append_eq_nil_iff, lead_eq_nil_iff, List.map_eq_nil_iff, not_and]
  rw [led, not_mem_tail_iff nonempty]
  constructor
  · rintro ⟨⟨names, inside⟩, led, first⟩
    exact ⟨names, led, inside, first⟩
  · rintro ⟨names, led, inside, first⟩
    exact ⟨⟨names, inside⟩, led, first⟩

/-- Words of a path are cut at a name exactly where its names are. -/
theorem words_eq_append_iff (nonempty : name ≠ "") {b a : List (List Char)} :
    lead p.root ++ p.names.map String.toList = b ++ name.toList :: a ↔
      ∃ before after, p.names = before ++ name :: after ∧ b = lead p.root ++ before.map String.toList ∧
        a = after.map String.toList := by
  constructor
  · intro split
    have behind : ∃ more, b = lead p.root ++ more ∧ p.names.map String.toList = more ++ name.toList :: a := by
      rcases List.append_eq_append_iff.mp split with ⟨more, longer, rest⟩ | ⟨more, longer, rest⟩
      · exact ⟨more, longer, rest⟩
      · -- The name is not one of the words of the root.
        cases more with
        | nil => exact ⟨[], by rw [longer, List.append_nil, List.append_nil], rest.symm⟩
        | cons w more =>
          obtain ⟨rfl, _⟩ := List.cons.inj rest
          exact absurd (longer ▸ List.mem_append_right b List.mem_cons_self) (not_mem_lead nonempty p.root)
    obtain ⟨more, rfl, rest⟩ := behind
    obtain ⟨before, back, names, rfl, tail⟩ := List.map_eq_append_iff.mp rest
    obtain ⟨n, after, rfl, same, rfl⟩ := List.map_eq_cons_iff.mp tail
    obtain rfl := String.toList_injective same
    exact ⟨before, after, names, rfl, rfl⟩
  · rintro ⟨before, after, names, rfl, rfl⟩
    rw [names, List.map_append, List.map_cons, List.append_assoc]

/-- A directory is replaced in the text of a path exactly if it is one that is found, and by what is written in its place. -/
theorem replaceFirst?_text (root : IsRoot p.root) (names : ∀ n ∈ p.names, IsName n) (nonempty : p.names ≠ []) (named : IsName name)
    {out : List Char} :
    replaceFirst? (mark [name]) (mark source) p.text.toList = some out ↔
      ∃ before after, Seen p before name after ∧
        out = ['/'].intercalate (lead p.root ++ (before ++ (source ++ after)).map String.toList) := by
  have plain : ∀ w ∈ lead p.root ++ p.names.map String.toList, '/' ∉ w := by
    intro w member
    rcases List.mem_append.mp member with slash | word
    · obtain ⟨_, _, rfl⟩ := List.mem_map.mp slash
      exact List.not_mem_nil
    · obtain ⟨n, inside, rfl⟩ := List.mem_map.mp word
      exact (names n inside).2.2
  have one : mark [name] = '/' :: (name.toList ++ ['/']) := by simp [mark]
  rw [text_words root names nonempty, one, replaceFirst?_eq_some_iff named.2.2 plain]
  constructor
  · rintro ⟨b, a, split, led, inside, first, rfl⟩
    obtain ⟨before, after, cut, rfl, rfl⟩ := (words_eq_append_iff named.1).mp split
    refine ⟨before, after, (seen_iff named.1).mpr ⟨cut, led, fun nothing => inside (by rw [nothing]; rfl), first⟩, ?_⟩
    rw [← intercalate_mark led inside, List.map_append, List.map_append, List.append_assoc]
  · rintro ⟨before, after, seen, rfl⟩
    obtain ⟨cut, led, inside, first⟩ := (seen_iff named.1).mp seen
    have inside' : after.map String.toList ≠ [] := fun nothing => inside (List.map_eq_nil_iff.mp nothing)
    refine ⟨_, _, (words_eq_append_iff named.1).mpr ⟨before, after, cut, rfl, rfl⟩, led, inside', first, ?_⟩
    rw [← intercalate_mark led inside', List.map_append, List.map_append, List.append_assoc]

end

/-! ### Copies -/

/-- Names of directories that hold what is built. -/
def buildNames : List String := ["dist", "build"]

/-- What may be in their place on the way to a source: one directory, or nothing. -/
def sourceNames : List (List String) := [["public"], ["src"], []]

/-- A path with one of its directories that hold what is built replaced. -/
def IsCopy (p q : Path) : Prop :=
  ∃ name ∈ buildNames, ∃ source ∈ sourceNames, ∃ before after, Stands p before name after ∧ q = ⟨p.root, before ++ (source ++ after)⟩

/-- The same, with a directory that is found. -/
def IsSeenCopy (p q : Path) : Prop :=
  ∃ name ∈ buildNames, ∃ source ∈ sourceNames, ∃ before after, Seen p before name after ∧ q = ⟨p.root, before ++ (source ++ after)⟩

theorem buildMarks_eq : buildMarks = buildNames.map fun name => String.ofList (mark [name]) := by decide +kernel

theorem sourceMarks_eq : sourceMarks = sourceNames.map fun source => String.ofList (mark source) := by decide +kernel

section

variable {p q : Path}

theorem IsSeenCopy.isCopy (h : IsSeenCopy p q) : IsCopy p q := by
  obtain ⟨name, build, source, there, before, after, seen, same⟩ := h
  exact ⟨name, build, source, there, before, after, seen.toStands, same⟩

theorem IsCopy.ne (h : IsCopy p q) : q ≠ p := by
  obtain ⟨name, build, source, there, before, after, stands, rfl⟩ := h
  intro same
  have tails : source ++ after = name :: after :=
    List.append_cancel_left ((congrArg Path.names same).trans stands.names)
  have replaced : source = [name] := List.append_cancel_right (tails.trans List.singleton_append.symm)
  subst replaced
  revert build there
  simp only [buildNames, sourceNames, List.mem_cons, List.not_mem_nil, or_false]
  rintro (rfl | rfl) <;> decide

theorem isName_of_mem_source {source : List String} (there : source ∈ sourceNames) : ∀ n ∈ source, IsName n := by
  revert source
  decide +kernel

theorem isName_of_mem_build {name : String} (build : name ∈ buildNames) : IsName name := by
  revert name
  decide +kernel

/-- What is written for a copy is read as this copy. -/
theorem ofString_copy (root : IsRoot p.root) (names : ∀ n ∈ p.names, IsName n) {name : String} {source before after : List String}
    (there : source ∈ sourceNames) (stands : Stands p before name after) :
    ofString (String.ofList (['/'].intercalate (lead p.root ++ (before ++ (source ++ after)).map String.toList))) =
      ⟨p.root, before ++ (source ++ after)⟩ := by
  obtain ⟨split, inside⟩ := stands
  have named : ∀ n ∈ before ++ (source ++ after), IsName n := by
    rw [split] at names
    intro n member
    rcases List.mem_append.mp member with front | rest
    · exact names n (List.mem_append_left _ front)
    rcases List.mem_append.mp rest with new | behind
    · exact isName_of_mem_source there n new
    · exact names n (List.mem_append_right _ (List.mem_cons_of_mem _ behind))
  have words := text_words (p := ⟨p.root, before ++ (source ++ after)⟩) root named (by simp [inside])
  rw [← words, String.ofList_toList]
  exact ofString_text root named

theorem sourceCopies_nameless (root : IsRoot p.root) (nameless : p.names = []) : sourceCopies p = [] := by
  obtain ⟨front, _⟩ := p
  subst nameless
  rcases root.ways with rfl | rfl | rfl <;> decide +kernel

theorem mem_sourceCopies_iff (root : IsRoot p.root) (names : ∀ n ∈ p.names, IsName n) : q ∈ sourceCopies p ↔ IsSeenCopy p q := by
  by_cases nameless : p.names = []
  · rw [sourceCopies_nameless root nameless]
    refine ⟨nofun, ?_⟩
    rintro ⟨name, _, source, _, before, after, seen, _⟩
    have split := seen.names
    simp [nameless] at split
  · simp only [sourceCopies, buildMarks_eq, sourceMarks_eq, List.mem_flatMap, List.mem_filterMap, List.mem_map,
      Option.map_eq_some_iff]
    constructor
    · rintro ⟨_, ⟨name, build, rfl⟩, _, ⟨source, there, rfl⟩, out, replaced, rfl⟩
      rw [String.toList_ofList, String.toList_ofList, replaceFirst?_text root names nameless (isName_of_mem_build build)] at replaced
      obtain ⟨before, after, seen, rfl⟩ := replaced
      exact ⟨name, build, source, there, before, after, seen, ofString_copy root names there seen.toStands⟩
    · rintro ⟨name, build, source, there, before, after, seen, rfl⟩
      refine ⟨_, ⟨name, build, rfl⟩, _, ⟨source, there, rfl⟩, _, ?_, ofString_copy root names there seen.toStands⟩
      rw [String.toList_ofList, String.toList_ofList, replaceFirst?_text root names nameless (isName_of_mem_build build)]
      exact ⟨before, after, seen, rfl⟩

theorem redirect_cases (t : FileTree) (p : Path) :
    redirect t p = p ∧ (∀ q ∈ sourceCopies p, t.exists q = false) ∨
      redirect t p ∈ sourceCopies p ∧ t.exists (redirect t p) = true := by
  rw [redirect]
  cases found : (sourceCopies p).find? t.exists with
  | none => exact Or.inl ⟨rfl, fun q member => Bool.eq_false_iff.mpr (List.find?_eq_none.mp found q member)⟩
  | some q => exact Or.inr ⟨List.mem_of_find?_eq_some found, List.find?_some found⟩

/-- A directory that stands there only once is found, unless it is at the front of a relative path. -/
theorem Stands.seen {name : String} {before after : List String} (stands : Stands p before name after)
    (front : p.isAbsolute = true ∨ p.names.head? ≠ some name) (once : p.names.dropLast.count name ≤ 1) :
    Seen p before name after := by
  have first : name ∉ before := by
    rw [stands.names, List.dropLast_append_of_ne_nil (List.cons_ne_nil _ _), List.count_append,
      List.dropLast_cons_of_ne_nil stands.inside, List.count_cons_self] at once
    rw [← List.count_eq_zero]
    omega
  refine ⟨stands, fun relative nothing => ?_, ?_⟩
  · rcases front with absolute | other
    · rw [relative] at absolute
      cases absolute
    · exact other (by rw [stands.names, nothing]; rfl)
  · split
    · exact first
    · exact fun member => first (List.mem_of_mem_tail member)

theorem IsCopy.seen (h : IsCopy p q) (front : p.isAbsolute = true ∨ ∀ name ∈ buildNames, p.names.head? ≠ some name)
    (once : ∀ name ∈ buildNames, p.names.dropLast.count name ≤ 1) : IsSeenCopy p q := by
  obtain ⟨name, build, source, there, before, after, stands, same⟩ := h
  exact ⟨name, build, source, there, before, after, stands.seen (front.imp_right fun other => other name build) (once name build),
    same⟩

end

/-- What is told of the path that a path is taken for, from the files that are there. -/
structure Redirected (t : FileTree) (p : Path) : Prop where
  /-- Another path than the given one is that of a source that is there. -/
  sound : redirect t p ≠ p → IsCopy p (redirect t p) ∧ t.exists (redirect t p) = true
  /-- Where there is no source, the path stays. -/
  unchanged : (∀ q, IsCopy p q → t.exists q = false) → redirect t p = p
  /-- A source is taken exactly if there is one for a directory that is found. -/
  found : redirect t p ≠ p ↔ ∃ q, IsSeenCopy p q ∧ t.exists q = true
  /-- No source is missed where none of the directories stands there twice, or at the front of a relative path. -/
  complete : (p.isAbsolute = true ∨ ∀ name ∈ buildNames, p.names.head? ≠ some name) →
    (∀ name ∈ buildNames, p.names.dropLast.count name ≤ 1) → (∃ q, IsCopy p q ∧ t.exists q = true) → redirect t p ≠ p

/-- **A built file is taken for a source that is there**, or for itself: of the directories that hold what is built, the first of
each name is tried, and a source for another one is missed. -/
theorem source_taken_for_first (t : FileTree) (s : String) : Redirected t (Path.ofString s) := by
  have copies (q : Path) : q ∈ sourceCopies (Path.ofString s) ↔ IsSeenCopy (Path.ofString s) q :=
    mem_sourceCopies_iff (isRoot_rootOf s.toList) fun n member => isName_of_mem_ofString member
  have ways := redirect_cases t (Path.ofString s)
  simp only [copies] at ways
  have found : redirect t (Path.ofString s) ≠ Path.ofString s ↔ ∃ q, IsSeenCopy (Path.ofString s) q ∧ t.exists q = true := by
    rcases ways with ⟨stays, missing⟩ | ⟨copy, there⟩
    · refine ⟨fun other => absurd stays other, ?_⟩
      rintro ⟨q, copy, there⟩
      rw [missing q copy] at there
      cases there
    · exact ⟨fun _ => ⟨_, copy, there⟩, fun _ => copy.isCopy.ne⟩
  refine ⟨fun other => ?_, fun missing => ?_, found, fun front once => ?_⟩
  · rcases ways with ⟨stays, _⟩ | ⟨copy, there⟩
    · exact absurd stays other
    · exact ⟨copy.isCopy, there⟩
  · by_contra other
    obtain ⟨q, copy, there⟩ := found.mp other
    rw [missing q copy.isCopy] at there
    cases there
  · rintro ⟨q, copy, there⟩
    exact found.mpr ⟨q, copy.seen front once, there⟩

/-- A site in which a page is built, with its source. -/
def site : FileTree :=
  ((FileTree.empty ⟨"/", ["ci", "app"]⟩).putText ⟨"/", ["ci", "app", "build", "page.html"]⟩ "" 0).putText
    ⟨"/", ["ci", "app", "src", "page.html"]⟩ "" 0

/-- The page is taken for its source, for there is only one directory in which it could have been built. -/
theorem source_for_only_taken :
    redirect site (.ofString "/ci/app/build/page.html") = .ofString "/ci/app/src/page.html" ∧
      IsCopy (.ofString "/ci/app/build/page.html") (redirect site (.ofString "/ci/app/build/page.html")) ∧
      site.exists (redirect site (.ofString "/ci/app/build/page.html")) = true := by
  have told := source_taken_for_first site "/ci/app/build/page.html"
  have copy : IsCopy (.ofString "/ci/app/build/page.html") (.ofString "/ci/app/src/page.html") :=
    ⟨"build", by decide, ["src"], by decide, ["ci", "app"], ["page.html"], ⟨by decide +kernel, by decide⟩, by decide +kernel⟩
  have other := told.complete (Or.inl (by decide +kernel)) (by decide +kernel) ⟨_, copy, by decide +kernel⟩
  exact ⟨by decide +kernel, told.sound other⟩

/-- A checkout below a directory called `build`, in which a page is built. -/
def checkout : FileTree :=
  ((FileTree.empty ⟨"/", ["ci", "build", "app"]⟩).putText ⟨"/", ["ci", "build", "app", "build", "page.html"]⟩ "" 0).putText
    ⟨"/", ["ci", "build", "app", "src", "page.html"]⟩ "" 0

/-- The source of the page is missed, be its path absolute or seen from the checkout: the directory in which the page is built is
the second of its name, or stands at the front. -/
theorem source_for_second_missed :
    (IsCopy (.ofString "/ci/build/app/build/page.html") (.ofString "/ci/build/app/src/page.html") ∧
      checkout.exists (.ofString "/ci/build/app/src/page.html") = true ∧
      redirect checkout (.ofString "/ci/build/app/build/page.html") = .ofString "/ci/build/app/build/page.html") ∧
    IsCopy (.ofString "build/page.html") (.ofString "src/page.html") ∧
      checkout.exists (.ofString "src/page.html") = true ∧
      redirect checkout (.ofString "build/page.html") = .ofString "build/page.html" := by
  refine ⟨⟨?_, by decide +kernel, by decide +kernel⟩, ?_, by decide +kernel, by decide +kernel⟩
  · exact ⟨"build", by decide, ["src"], by decide, ["ci", "build", "app"], ["page.html"], ⟨by decide +kernel, by decide⟩,
      by decide +kernel⟩
  · exact ⟨"build", by decide, ["src"], by decide, [], ["page.html"], ⟨by decide +kernel, by decide⟩, by decide +kernel⟩

end Remedy.Target
