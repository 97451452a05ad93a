import Mathlib.Data.List.Basic
import Remedy.Component.OpenTag

/-!
The tag that begins last on a line, and where it ends as far as that line goes.

Nothing is said about it if the line has no `<`, if its last one begins a closing tag, or if no `>` behind that one can end a tag:
those of arrows cannot. Otherwise new attributes go before the last `/>` of the line, if it stands behind the `<`, and else before
the last `>` there that can. A search to the left, from one `>` to the one before it, finds the same.
-/

namespace Remedy.Component

/-- A mark stands at a column of a line. -/
def StandsAt (row mark : Line) (i : Nat) : Prop := mark <+: row.drop i

/-- The last column at which something holds. -/
def IsLast (holds : Nat → Prop) (i : Nat) : Prop := holds i ∧ ∀ j, holds j → j ≤ i

/-- A `>` behind a column that can end a tag: it belongs to no arrow. -/
def EndsBehind (row : Line) (opened i : Nat) : Prop := opened < i ∧ row[i]? = some '>' ∧ row[i - 1]? ≠ some '='

/-! ### Last columns -/

section

variable {row mark : Line} {i n : Nat}

theorem find?_reverse_range_eq_some_iff {p : Nat → Bool} :
    (List.range n).reverse.find? p = some i ↔ i < n ∧ p i = true ∧ ∀ j, j < n → p j = true → j ≤ i := by
  induction n with
  | zero => simp
  | succ n ih =>
    -- The last one of the range is tried first.
    rw [List.range_succ, List.reverse_append, List.reverse_singleton, List.singleton_append, List.find?_cons]
    cases here : p n with
    | true =>
      rw [Option.some.injEq]
      constructor
      · rintro rfl
        exact ⟨Nat.lt_succ_self n, here, fun j below _ => Nat.le_of_lt_succ below⟩
      · rintro ⟨below, _, last⟩
        have := last n (Nat.lt_succ_self n) here
        omega
    | false =>
      rw [ih]
      constructor
      · rintro ⟨below, holds, last⟩
        refine ⟨Nat.lt_succ_of_lt below, holds, fun j inside also => ?_⟩
        have other : j ≠ n := by
          rintro rfl
          rw [here] at also
          cases also
        exact last j (by omega) also
      · rintro ⟨below, holds, last⟩
        have other : i ≠ n := by
          rintro rfl
          rw [here] at holds
          cases holds
        exact ⟨by omega, holds, fun j inside => last j (Nat.lt_succ_of_lt inside)⟩

theorem StandsAt.lt_length (nonempty : mark ≠ []) (h : StandsAt row mark i) : i < row.length := by
  by_contra outside
  rw [StandsAt, List.drop_eq_nil_of_le (Nat.le_of_not_lt outside), List.prefix_nil] at h
  exact nonempty h

theorem standsAt_singleton {c : Char} : StandsAt row [c] i ↔ row[i]? = some c := by
  rw [StandsAt, ← List.head?_drop]
  cases row.drop i with
  | nil => simp
  | cons d rest => simp [eq_comm]

theorem EndsBehind.lt_length {opened : Nat} (h : EndsBehind row opened i) : i < row.length :=
  (List.getElem?_eq_some_iff.mp h.2.1).1

/-- Of the columns at which a mark stands the last one is found. -/
theorem lastPlace?_eq_some_iff (nonempty : mark ≠ []) {test : Line → Bool} (tests : ∀ cs, test cs = true ↔ mark <+: cs) :
    lastPlace? test row = some i ↔ IsLast (StandsAt row mark) i := by
  rw [lastPlace?, find?_reverse_range_eq_some_iff]
  simp only [tests]
  constructor
  · rintro ⟨_, here, last⟩
    exact ⟨here, fun j also => last j (also.lt_length nonempty) also⟩
  · rintro ⟨here, last⟩
    exact ⟨StandsAt.lt_length nonempty here, here, fun j _ => last j⟩

/-- What holds at a column, and only at columns within the line, holds at a last one. -/
theorem exists_isLast (holds : Nat → Prop) (inside : ∀ j, holds j → j < n) (h : holds i) : ∃ j, IsLast holds j := by
  classical
  have there : ∃ j ∈ (List.range n).reverse, decide (holds j) = true :=
    ⟨i, List.mem_reverse.mpr (List.mem_range.mpr (inside i h)), decide_eq_true h⟩
  obtain ⟨j, found⟩ := Option.isSome_iff_exists.mp (List.find?_isSome.mpr there)
  obtain ⟨_, here, last⟩ := find?_reverse_range_eq_some_iff.mp found
  exact ⟨j, of_decide_eq_true here, fun k also => last k (inside k also) (decide_eq_true also)⟩

theorem isLast_mark (nonempty : mark ≠ []) : lastPlace? (mark.isPrefixOf ·) row = some i ↔ IsLast (StandsAt row mark) i :=
  lastPlace?_eq_some_iff nonempty fun _ => List.isPrefixOf_iff_prefix

theorem no_mark (nonempty : mark ≠ []) : lastPlace? (mark.isPrefixOf ·) row = none ↔ ∀ j, ¬ StandsAt row mark j := by
  rw [lastPlace?, List.find?_eq_none]
  simp only [List.mem_reverse, List.mem_range, List.isPrefixOf_iff_prefix]
  exact ⟨fun absent j also => absent j (also.lt_length nonempty) also, fun absent j _ => absent j⟩

theorem IsLast.unique {holds : Nat → Prop} {j : Nat} (h : IsLast holds i) (h' : IsLast holds j) : i = j :=
  Nat.le_antisymm (h'.2 i h.1) (h.2 j h'.1)

theorem head?_iff (c : Char) (cs : Line) : (cs.head? == some c) = true ↔ [c] <+: cs := by
  cases cs with
  | nil => simp
  | cons d rest => rw [List.head?_cons, beq_iff_eq, Option.some.injEq, List.cons_prefix_cons, eq_comm, and_iff_left List.nil_prefix]

end

/-! ### The search to the left -/

section

variable {row : Line} {opened stop i : Nat}

theorem lt_of_lastPlace? {test : Line → Bool} (h : lastPlace? test row = some i) : i < row.length :=
  (find?_reverse_range_eq_some_iff.mp h).1

/-- From one `>` to the one before it, each of them looked for in what stands before the last one, until one can end a tag or none
is left behind the `<`. No character is read that the line does not have. -/
def searchBack (row : Line) (opened stop : Nat) : Option Nat :=
  match found : lastPlace? (['>'].isPrefixOf ·) (row.take stop) with
  | none => none
  | some i =>
    have inside : i < stop ∧ i < row.length := by
      have reach := lt_of_lastPlace? found
      rw [List.length_take] at reach
      omega
    if opened < i then
      if row[i - 1] = '=' then searchBack row opened i else some i
    else none
termination_by stop
decreasing_by exact inside.1

/-- Before a column a `>` stands where it stands on the line. -/
theorem standsAt_take : StandsAt (row.take stop) ['>'] i ↔ i < stop ∧ row[i]? = some '>' := by
  rw [standsAt_singleton, List.getElem?_take]
  split
  next inside => simp [inside]
  next outside => simp [outside]

/-- Whatever can end a tag before a column stands no further to the right than the last `>` there. -/
theorem EndsBehind.le_of_lastPlace? {k : Nat} (h : EndsBehind row opened i) (below : i < stop)
    (found : lastPlace? (['>'].isPrefixOf ·) (row.take stop) = some k) : i ≤ k :=
  ((isLast_mark (List.cons_ne_nil _ _)).mp found).2 i (standsAt_take.mpr ⟨below, h.2.1⟩)

/-- The search comes to the last column before the one it begins at, of those that can end a tag. -/
theorem searchBack_eq_some_iff :
    searchBack row opened stop = some i ↔
      i < stop ∧ EndsBehind row opened i ∧ ∀ j, j < stop → EndsBehind row opened j → j ≤ i := by
  -- The induction is on the search; whatever can end a tag stands no further to the right than the bracket found last.
  fun_induction searchBack row opened stop with
  | case1 stop unfound =>
    have free := (no_mark (List.cons_ne_nil _ _)).mp unfound
    refine ⟨nofun, fun ⟨below, ends, _⟩ => ?_⟩
    exact absurd (standsAt_take.mpr ⟨below, ends.2.1⟩) (free i)
  | case2 stop k found inside behind arrow ih =>
    -- The bracket of an arrow does not count, so it is as if the search had begun there.
    have passed {j : Nat} (below : j < stop) (ends : EndsBehind row opened j) : j < k := by
      have upTo := ends.le_of_lastPlace? below found
      have other : j ≠ k := by
        rintro rfl
        exact ends.2.2 (List.getElem?_eq_some_iff.mpr ⟨_, arrow⟩)
      omega
    rw [ih]
    constructor
    · rintro ⟨below, ends, last⟩
      exact ⟨by omega, ends, fun j before also => last j (passed before also) also⟩
    · rintro ⟨below, ends, last⟩
      exact ⟨passed below ends, ends, fun j before => last j (by omega)⟩
  | case3 stop k found inside behind other =>
    have here : row[k]? = some '>' :=
      (standsAt_take.mp ((isLast_mark (List.cons_ne_nil _ _)).mp found).1).2
    have ends : EndsBehind row opened k := by
      refine ⟨behind, here, fun arrow => other ?_⟩
      exact (List.getElem?_eq_some_iff.mp arrow).2
    rw [Option.some.injEq]
    constructor
    · rintro rfl
      exact ⟨inside.1, ends, fun j below also => also.le_of_lastPlace? below found⟩
    · rintro ⟨below, also, last⟩
      exact Nat.le_antisymm (last k inside.1 ends) (also.le_of_lastPlace? below found)
  | case4 stop k found inside short =>
    refine ⟨nofun, fun ⟨below, ends, _⟩ => ?_⟩
    have upTo := ends.le_of_lastPlace? below found
    exact absurd (Nat.lt_of_lt_of_le ends.1 upTo) short

/-- From the end of the line, that is the last of all columns that can end a tag. -/
theorem searchBack_length : searchBack row opened row.length = some i ↔ IsLast (EndsBehind row opened) i := by
  rw [searchBack_eq_some_iff]
  constructor
  · rintro ⟨_, ends, last⟩
    exact ⟨ends, fun j also => last j also.lt_length also⟩
  · rintro ⟨ends, last⟩
    exact ⟨ends.lt_length, ends, fun j _ => last j⟩

end

/-! ### The end of the last tag -/

/-- The last `<` of a line begins a tag that is not a closing one. -/
structure OpensLast (row : Line) (opened : Nat) : Prop where
  last : IsLast (StandsAt row ['<']) opened
  opening : ¬ StandsAt row ['<', '/'] opened

/-- What is found on a line: all of it may belong to the tag, and new attributes go to a column. -/
def onLine (row : Line) (number column : Nat) (selfClosing : Bool) : OpenTag :=
  ⟨[⟨number, 0, row.length⟩], number, column, selfClosing⟩

section

variable {row : Line} {number opened : Nat}

theorem isLast_open : lastPlace? (fun cs => cs.head? == some '<') row = some opened ↔ IsLast (StandsAt row ['<']) opened :=
  lastPlace?_eq_some_iff (List.cons_ne_nil _ _) (head?_iff '<')

theorem fallback_eq_none (closed : ∀ opened, ¬ OpensLast row opened) : fallback row number = none := by
  rw [fallback]
  split
  · rfl
  next opened found =>
    have last := isLast_open.mp found
    simp only
    split
    · rfl
    next opening => exact absurd ⟨last, fun closing => opening (List.isPrefixOf_iff_prefix.mpr closing)⟩ (closed opened)

/-- Behind a `<` that opens a tag the last `/>` is looked for, and without one a `>` from the right. -/
theorem fallback_of_opensLast (opens : OpensLast row opened) :
    fallback row number =
      (((lastPlace? (['/', '>'].isPrefixOf ·) row).filter (opened < ·)).map (onLine row number · true)).or
        ((searchBack row opened row.length).map (onLine row number · false)) := by
  have found := isLast_open.mpr opens.last
  have opening : ¬ ['<', '/'].isPrefixOf (row.drop opened) = true := fun closing =>
    opens.opening (List.isPrefixOf_iff_prefix.mp closing)
  -- The last column is found at once here, and not by going from one bracket to the one before.
  have search : (List.range row.length).reverse.find? (fun i =>
      opened < i && (row.drop i).head? == some '>' && (row.drop (i - 1)).head? != some '=') =
      searchBack row opened row.length := by
    apply Option.ext
    intro i
    rw [searchBack_eq_some_iff, find?_reverse_range_eq_some_iff]
    simp [EndsBehind, and_assoc]
  rw [fallback, found]
  simp only [if_neg opening, search]
  cases (lastPlace? (['/', '>'].isPrefixOf ·) row).filter (opened < ·) with
  | some i => rfl
  | none => cases searchBack row opened row.length <;> rfl

/-- The last `/>`, if it stands behind the last `<`, ends the tag. -/
theorem fallback_eq_slashed (opens : OpensLast row opened) {i : Nat} (slashed : IsLast (StandsAt row ['/', '>']) i)
    (behind : opened < i) : fallback row number = some (onLine row number i true) := by
  have closing := (isLast_mark (List.cons_ne_nil _ _)).mpr slashed
  rw [fallback_of_opensLast opens, closing, Option.filter_some, if_pos (decide_eq_true behind), Option.map_some,
    Option.some_or]

/-- Otherwise the search to the left decides. -/
theorem fallback_eq_searched (opens : OpensLast row opened) (bare : ∀ i, StandsAt row ['/', '>'] i → ¬ opened < i) :
    fallback row number = (searchBack row opened row.length).map (onLine row number · false) := by
  have unslashed : (lastPlace? (['/', '>'].isPrefixOf ·) row).filter (opened < ·) = none := by
    rw [Option.filter_eq_none_iff]
    intro i closing
    have here := ((isLast_mark (List.cons_ne_nil _ _)).mp closing).1
    simpa using bare i here
  rw [fallback_of_opensLast opens, unslashed, Option.map_none, Option.none_or]

/-- A `/>` behind a column has a `>` there that can end a tag. -/
theorem endsBehind_succ {i : Nat} (slashed : StandsAt row ['/', '>'] i) (behind : opened < i) :
    EndsBehind row opened (i + 1) := by
  obtain ⟨rest, split⟩ := slashed
  have slash : row[i]? = some '/' := by rw [← List.head?_drop, ← split]; rfl
  have bracket : row[i + 1]? = some '>' := by rw [← List.head?_drop, ← List.tail_drop, ← split]; rfl
  refine ⟨by omega, bracket, ?_⟩
  rw [Nat.add_sub_cancel, slash]
  decide

/-- What is found where a tag can end behind the `<` that opens it. -/
theorem fallback_eq_some (number : Nat) (opens : OpensLast row opened) {i : Nat} (ends : EndsBehind row opened i) :
    ∃ column, fallback row number = some (onLine row number column true) ∧ IsLast (StandsAt row ['/', '>']) column ∧
        opened < column ∨
      fallback row number = some (onLine row number column false) ∧
        (∀ j, StandsAt row ['/', '>'] j → ¬ opened < j) ∧ IsLast (EndsBehind row opened) column := by
  by_cases slashed : ∃ j, StandsAt row ['/', '>'] j ∧ opened < j
  · obtain ⟨j, stands, behind⟩ := slashed
    obtain ⟨column, last⟩ := exists_isLast (StandsAt row _) (fun k => StandsAt.lt_length (List.cons_ne_nil _ _)) stands
    have beyond : opened < column := Nat.lt_of_lt_of_le behind (last.2 j stands)
    exact ⟨column, .inl ⟨fallback_eq_slashed opens last beyond, last, beyond⟩⟩
  · have bare : ∀ j, StandsAt row ['/', '>'] j → ¬ opened < j := fun j stands behind => slashed ⟨j, stands, behind⟩
    obtain ⟨column, last⟩ := exists_isLast (EndsBehind row opened) (fun k => EndsBehind.lt_length) ends
    refine ⟨column, .inr ⟨?_, bare, last⟩⟩
    rw [fallback_eq_searched opens bare, searchBack_length.mpr last]
    rfl

theorem fallback_eq_none_of_endless (number : Nat) (opens : OpensLast row opened) (endless : ∀ i, ¬ EndsBehind row opened i) :
    fallback row number = none := by
  have bare : ∀ j, StandsAt row ['/', '>'] j → ¬ opened < j := fun j stands behind =>
    endless _ (endsBehind_succ stands behind)
  rw [fallback_eq_searched opens bare, Option.map_eq_none_iff, Option.eq_none_iff_forall_ne_some]
  intro i found
  exact endless i (searchBack_length.mp found).1

theorem exists_last_opening (bracket : '<' ∈ row) : ∃ opened, IsLast (StandsAt row ['<']) opened := by
  obtain ⟨i, inside, here⟩ := List.getElem_of_mem bracket
  exact exists_isLast (StandsAt row _) (fun j => StandsAt.lt_length (List.cons_ne_nil _ _))
    (standsAt_singleton.mpr (List.getElem?_eq_some_iff.mpr ⟨inside, here⟩))

theorem fallback_eq_none_iff :
    fallback row number = none ↔
      '<' ∉ row ∨ ∃ opened, IsLast (StandsAt row ['<']) opened ∧
        (StandsAt row ['<', '/'] opened ∨ ∀ i, ¬ EndsBehind row opened i) := by
  constructor
  · intro nothing
    by_cases bracket : '<' ∈ row
    · obtain ⟨opened, last⟩ := exists_last_opening bracket
      refine .inr ⟨opened, last, or_iff_not_imp_left.mpr fun opening i ends => ?_⟩
      obtain ⟨column, ⟨found, -⟩ | ⟨found, -⟩⟩ := fallback_eq_some number ⟨last, opening⟩ ends <;>
        rw [nothing] at found <;> cases found
    · exact .inl bracket
  · rintro (without | ⟨opened, last, closed⟩)
    · refine fallback_eq_none fun opened opens => without ?_
      exact List.mem_of_getElem? (standsAt_singleton.mp opens.last.1)
    · by_cases closing : StandsAt row ['<', '/'] opened
      · refine fallback_eq_none fun other opens => opens.opening ?_
        rwa [opens.last.unique last]
      · exact fallback_eq_none_of_endless number ⟨last, closing⟩ (closed.resolve_left closing)

theorem fallback_eq_some_iff (tag : OpenTag) :
    fallback row number = some tag ↔ ∃ opened column, OpensLast row opened ∧
      (tag = onLine row number column true ∧ IsLast (StandsAt row ['/', '>']) column ∧ opened < column ∨
        tag = onLine row number column false ∧ (∀ j, StandsAt row ['/', '>'] j → ¬ opened < j) ∧
          IsLast (EndsBehind row opened) column) := by
  constructor
  · intro found
    have any : ∃ opened, OpensLast row opened := by
      by_contra unopened
      rw [fallback_eq_none (not_exists.mp unopened)] at found
      cases found
    obtain ⟨opened, opens⟩ := any
    have ends : ∃ i, EndsBehind row opened i := by
      by_contra endless
      rw [fallback_eq_none_of_endless number opens (not_exists.mp endless)] at found
      cases found
    obtain ⟨i, ends⟩ := ends
    obtain ⟨column, ⟨is, rest⟩ | ⟨is, rest⟩⟩ := fallback_eq_some number opens ends
    · exact ⟨opened, column, opens, .inl ⟨Option.some.inj (found.symm.trans is), rest⟩⟩
    · exact ⟨opened, column, opens, .inr ⟨Option.some.inj (found.symm.trans is), rest⟩⟩
  · rintro ⟨opened, column, opens, ⟨rfl, last, behind⟩ | ⟨rfl, bare, last⟩⟩
    · exact fallback_eq_slashed opens last behind
    · rw [fallback_eq_searched opens bare, searchBack_length.mpr last]
      rfl

end

/-- **The end of the last tag of a line.** Nothing is found iff the line has no `<`, or its last one begins a closing tag or has
no `>` behind it that can end a tag. What is found is the whole line, and new attributes go before its last `/>`, if that stands
behind the last `<`, and otherwise before the last `>` behind the `<` that can end a tag; the search to the left, which always
comes to an end, finds this one. -/
theorem fallback_ends_last_tag (row : Line) (number : Nat) :
    (fallback row number = none ↔
      '<' ∉ row ∨ ∃ opened, IsLast (StandsAt row ['<']) opened ∧
        (StandsAt row ['<', '/'] opened ∨ ∀ i, ¬ EndsBehind row opened i)) ∧
    (∀ tag, fallback row number = some tag ↔ ∃ opened column, OpensLast row opened ∧
      (tag = onLine row number column true ∧ IsLast (StandsAt row ['/', '>']) column ∧ opened < column ∨
        tag = onLine row number column false ∧ (∀ j, StandsAt row ['/', '>'] j → ¬ opened < j) ∧
          IsLast (EndsBehind row opened) column)) ∧
    ∀ opened, OpensLast row opened → (∀ j, StandsAt row ['/', '>'] j → ¬ opened < j) →
      fallback row number = (searchBack row opened row.length).map (onLine row number · false) :=
  ⟨fallback_eq_none_iff, fallback_eq_some_iff, fun _ => fallback_eq_searched⟩

namespace Arrowed

/-- A line whose tag ends before an arrow and has another one in a value. -/
def line : Line := "</b><i @on=\"x=>y\">=>".toList

end Arrowed

/-- Both arrows are passed over, by the search as well. -/
theorem arrowed_line_ends :
    fallback Arrowed.line 7 = some (onLine Arrowed.line 7 17 false) ∧ OpensLast Arrowed.line 4 ∧
      searchBack Arrowed.line 4 Arrowed.line.length = some 17 := by
  have found : fallback Arrowed.line 7 = some (onLine Arrowed.line 7 17 false) := by decide
  have opens : OpensLast Arrowed.line 4 := by
    refine ⟨isLast_open.mp (by decide), ?_⟩
    rw [StandsAt]
    decide
  have bare : ∀ j, StandsAt Arrowed.line ['/', '>'] j → ¬ 4 < j := fun j slashed =>
    absurd slashed ((no_mark (List.cons_ne_nil _ _)).mp (by decide) j)
  have searched := (fallback_ends_last_tag Arrowed.line 7).2.2 4 opens bare
  obtain ⟨column, back, same⟩ := Option.map_eq_some_iff.mp (searched.symm.trans found)
  have place : (column : Int) = (17 : Nat) := congrArg OpenTag.column same
  exact ⟨found, opens, by rw [back, Int.ofNat.inj place]⟩

end Remedy.Component
