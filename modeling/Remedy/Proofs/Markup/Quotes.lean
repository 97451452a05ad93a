import Mathlib.Data.List.Basic

/-!
Quotes in tags. An angle bracket ends a tag unless it stands in quotes; so what stands between the brackets of a tag is a
text in which quotes come in pairs and no bracket stands outside of them.
-/

namespace Remedy.Markup

/-- How quotes stand behind one more character of a tag; outside of quotes there is none for an angle bracket. -/
def quoteBehind? (quote : Option Char) (c : Char) : Option (Option Char) :=
  match quote with
  | some q => some (if c = q then none else some q)
  | none => if c = '"' ∨ c = '\'' then some (some c) else if c = '<' ∨ c = '>' then none else some none

/-- How quotes stand behind a stretch of a tag, unless an angle bracket stands in it outside of quotes. -/
def quoteAfter? (quote : Option Char) (cs : List Char) : Option (Option Char) := cs.foldlM quoteBehind? quote

/-- What may stand between the angle brackets of a tag. -/
def IsInside (cs : List Char) : Prop := quoteAfter? none cs = some none

instance (cs : List Char) : Decidable (IsInside cs) := inferInstanceAs (Decidable (_ = _))

/-- Which quotes there are. -/
def IsMarks (quote : Option Char) : Prop := ∀ q, quote = some q → q = '"' ∨ q = '\''

theorem isMarks_none : IsMarks none := nofun

/-- A character that is no quote and no angle bracket. -/
def isPlain (c : Char) : Bool := !(['"', '\'', '<', '>'].contains c)

theorem quoteAfter?_cons (quote : Option Char) (c : Char) (cs : List Char) :
    quoteAfter? quote (c :: cs) = (quoteBehind? quote c).bind fun behind => quoteAfter? behind cs := List.foldlM_cons

theorem quoteAfter?_append (quote : Option Char) (xs ys : List Char) :
    quoteAfter? quote (xs ++ ys) = (quoteAfter? quote xs).bind fun behind => quoteAfter? behind ys := List.foldlM_append

section

variable {xs ys : List Char}

/-- Nothing changes along plain characters, in quotes or outside of them. -/
theorem quoteAfter?_plain {quote : Option Char} (marks : IsMarks quote) (plain : ∀ c ∈ xs, isPlain c = true) :
    quoteAfter? quote xs = some quote := by
  induction xs with
  | nil => rfl
  | cons c xs ih =>
    obtain ⟨here, later⟩ := List.forall_mem_cons.mp plain
    simp only [isPlain, Bool.not_eq_true', List.contains_eq_mem, decide_eq_false_iff_not, List.mem_cons, not_or] at here
    have same : quoteBehind? quote c = some quote := by
      cases quote with
      | none => simp [quoteBehind?, here]
      | some q =>
        have other : c ≠ q := by rcases marks q rfl with rfl | rfl <;> simp [here]
        simp [quoteBehind?, other]
    rw [quoteAfter?_cons, same, Option.bind_some, ih later]

/-- In quotes, nothing changes up to the closing one. -/
theorem quoteAfter?_within {q : Char} (other : q ∉ xs) : quoteAfter? (some q) xs = some (some q) := by
  induction xs with
  | nil => rfl
  | cons c xs ih =>
    rw [List.mem_cons, not_or] at other
    have same : quoteBehind? (some q) c = some (some q) := by simp [quoteBehind?, Ne.symm other.1]
    rw [quoteAfter?_cons, same, Option.bind_some, ih other.2]

/-- A text between two double quotes leaves none open. -/
theorem quoteAfter?_quoted (other : '"' ∉ xs) : quoteAfter? none ('"' :: (xs ++ ['"'])) = some none := by
  have opens : quoteBehind? none '"' = some (some '"') := by decide
  have closes : quoteAfter? (some '"') ['"'] = some none := by decide
  rw [quoteAfter?_cons, opens, Option.bind_some, quoteAfter?_append, quoteAfter?_within other, Option.bind_some, closes]

/-- A bracket outside of quotes ends a tag. -/
theorem quoteAfter?_bracket {quote : Option Char} (closed : quoteAfter? quote xs = some none) {b : Char}
    (bracket : b = '<' ∨ b = '>') (ys : List Char) : quoteAfter? quote (xs ++ b :: ys) = none := by
  have ends : quoteBehind? none b = none := by rcases bracket with rfl | rfl <;> decide
  rw [quoteAfter?_append, closed, Option.bind_some, quoteAfter?_cons, ends, Option.bind_none]

/-- A stretch in which a tag ends has a first bracket outside of quotes. -/
theorem exists_bracket {quote : Option Char} (ends : quoteAfter? quote xs = none) :
    ∃ front b back, xs = front ++ b :: back ∧ (b = '<' ∨ b = '>') ∧ quoteAfter? quote front = some none := by
  induction xs generalizing quote with
  | nil => cases ends
  | cons c xs ih =>
    cases here : quoteBehind? quote c with
    | some behind =>
      rw [quoteAfter?_cons, here, Option.bind_some] at ends
      obtain ⟨front, b, back, rfl, bracket, closed⟩ := ih ends
      exact ⟨c :: front, b, back, rfl, bracket, by rw [quoteAfter?_cons, here, Option.bind_some, closed]⟩
    | none =>
      -- In quotes no character ends a tag, and outside of them only brackets do.
      cases quote with
      | some q => cases here
      | none =>
        simp only [quoteBehind?] at here
        split at here
        · cases here
        · split at here
          next bracket => exact ⟨[], c, xs, rfl, bracket, rfl⟩
          · cases here

/-- There is only one such bracket. -/
theorem bracket_unique {quote : Option Char} {xs' ys' : List Char} {b b' : Char} (bracket : b = '<' ∨ b = '>')
    (bracket' : b' = '<' ∨ b' = '>') (closed : quoteAfter? quote xs = some none) (closed' : quoteAfter? quote xs' = some none)
    (same : xs ++ b :: ys = xs' ++ b' :: ys') : xs = xs' ∧ b = b' ∧ ys = ys' := by
  have shorter {xs ys xs' ys' more : List Char} {b b' : Char} (bracket : b = '<' ∨ b = '>')
      (closed : quoteAfter? quote xs = some none) (closed' : quoteAfter? quote xs' = some none) (longer : xs' = xs ++ more)
      (rest : b :: ys = more ++ b' :: ys') : xs = xs' ∧ b = b' ∧ ys = ys' := by
    cases more with
    | nil => exact ⟨by simp [longer], List.cons.inj rest⟩
    | cons c more =>
      obtain ⟨rfl, _⟩ := List.cons.inj rest
      rw [longer, quoteAfter?_bracket closed bracket] at closed'
      cases closed'
  -- Of two stretches one goes on behind the other, and then the bracket of the shorter one would stand in the longer one.
  rcases List.append_eq_append_iff.mp same with ⟨more, longer, rest⟩ | ⟨more, longer, rest⟩
  · exact shorter bracket closed closed' longer rest
  · obtain ⟨inside, bracket, behind⟩ := shorter bracket' closed' closed longer rest
    exact ⟨inside.symm, bracket.symm, behind.symm⟩

/-- Quotes are double or single ones, all along a tag. -/
theorem IsMarks.behind {quote behind : Option Char} (marks : IsMarks quote) (passed : quoteAfter? quote xs = some behind) :
    IsMarks behind := by
  induction xs generalizing quote with
  | nil =>
    obtain rfl := Option.some.inj passed
    exact marks
  | cons c xs ih =>
    rw [quoteAfter?_cons] at passed
    obtain ⟨next, here, passed⟩ := Option.bind_eq_some_iff.mp passed
    refine ih ?_ passed
    cases quote with
    | none =>
      simp only [quoteBehind?] at here
      split at here
      next quoted =>
        obtain rfl := Option.some.inj here
        intro q same
        obtain rfl := Option.some.inj same
        exact quoted
      · split at here
        · cases here
        · obtain rfl := Option.some.inj here
          exact nofun
    | some q =>
      obtain rfl := Option.some.inj here
      split
      · exact nofun
      · exact marks

end

end Remedy.Markup
