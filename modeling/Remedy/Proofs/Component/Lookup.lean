import Remedy.Proofs.Component.Tokens

/-!
The search for a name along a whole tag: it finds what is among the attributes of the tag, and nothing else.

Blanks are passed over, and so are the characters of an attribute behind its first one, as long as they hide nothing. What is
found as a value of an attribute stands between its quotes.
-/

namespace Remedy.Component

open Text (isBlank)

/-! ### Tags as they are written -/

/-- Attributes with the blanks before them. -/
def written (tokens : List Token) : List Char := tokens.flatMap fun t => t.gap ++ t.text

/-- An open tag as it is written: its name, its attributes, and how it ends. -/
structure Written where
  name : List Char
  tokens : List Token
  blanks : List Char
  slash : Bool
  deriving DecidableEq, Repr

/-- How a tag ends. -/
def Written.close (w : Written) : List Char := w.blanks ++ if w.slash then ['/', '>'] else ['>']

def Written.text (w : Written) : List Char := '<' :: (w.name ++ (written w.tokens ++ w.close))

structure Written.Proper (w : Written) : Prop where
  name : ∀ c ∈ w.name, isNamePart c = true
  tokens : ∀ t ∈ w.tokens, t.Proper
  blanks : ∀ c ∈ w.blanks, isBlank c = true

instance (w : Written) : Decidable w.Proper :=
  decidable_of_iff (w.name.all isNamePart = true ∧ w.tokens.all (·.isProper) = true ∧ w.blanks.all isBlank = true) <| by
    simp only [List.all_eq_true, Token.isProper_iff]
    exact ⟨fun ⟨name, tokens, blanks⟩ => ⟨name, tokens, blanks⟩, fun ⟨name, tokens, blanks⟩ => ⟨name, tokens, blanks⟩⟩

/-- The name of the tag or one of its attributes has something that looks like the name of an attribute. -/
def Written.hides (w : Written) (name : List Char) : Bool :=
  lookalike name (some '<') w.name [] || w.tokens.any fun t => t.hides name

/-- An attribute of a name, static or bound, is among the tokens. -/
def presentAmong (name : List Char) (tokens : List Token) : Bool := tokens.any fun t => (spellings name).contains t.name

theorem behind_free {c : Char} (free : joinsName c = false) : (behind c).any joinsName = false := by
  rw [behind]
  split
  · rfl
  · exact free

/-- Names may begin behind text of which no character joins names. -/
theorem behindAll_free {cs : List Char} (free : ∀ c ∈ cs, joinsName c = false) {previous : Option Char}
    (before : previous.any joinsName = false) : (behindAll previous cs).any joinsName = false := by
  induction cs generalizing previous with
  | nil => exact before
  | cons c cs ih =>
    exact ih (fun d member => free d (List.mem_cons_of_mem c member)) (behind_free (free c List.mem_cons_self))

/-- Names may begin behind blanks. -/
theorem behindAll_of_blank {cs : List Char} (nonempty : cs ≠ []) (blank : ∀ c ∈ cs, isBlank c = true)
    (previous : Option Char) : (behindAll previous cs).any joinsName = false := by
  obtain ⟨c, more, rfl⟩ := List.exists_cons_of_ne_nil nonempty
  have free : ∀ d ∈ c :: more, joinsName d = false := fun d member => joinsName_of_isBlank (blank d member)
  exact behindAll_free (fun d member => free d (List.mem_cons_of_mem c member)) (behind_free (free c List.mem_cons_self))

/-! ### The search -/

section

variable {name : List Char}

/-- The end of a tag ends names, and no equals sign is in it. -/
theorem Written.Proper.follows {w : Written} (proper : w.Proper) : Follows w.close where
  ends := by
    rw [Written.close]
    cases blanks : w.blanks with
    | nil => cases w.slash <;> exact headWord_cons_of_ends (by decide) _
    | cons c _ => exact headWord_cons_of_ends (endsName_of_isBlank (proper.blanks c (by simp [blanks]))) _
  plain := by
    rw [Written.close, List.dropWhile_append_of_pos proper.blanks]
    cases w.slash <;> decide

/-- So do the attributes before it. -/
theorem Follows.written {tokens : List Token} (proper : ∀ t ∈ tokens, t.Proper) {close : List Char}
    (closes : Follows close) : Follows (written tokens ++ close) := by
  cases tokens with
  | nil => exact closes
  | cons t rest =>
    obtain ⟨⟨nonempty, blank⟩, named, _⟩ := proper t List.mem_cons_self
    obtain ⟨b, gap, gaps⟩ := List.exists_cons_of_ne_nil nonempty
    obtain ⟨c, more, chars⟩ := List.exists_cons_of_ne_nil named.1
    have part := named.2 c (by simp [chars])
    have split : Component.written (t :: rest) ++ close =
        t.gap ++ (c :: (more ++ ((t.assigned.map Assigned.text).getD [] ++ (Component.written rest ++ close)))) := by
      simp [Component.written, Token.text, chars]
    have other : isBlank c = false := by
      simp only [isNamePart, Bool.not_eq_true', Bool.or_eq_false_iff] at part
      exact part.1
    constructor
    · rw [split, gaps]
      exact headWord_cons_of_ends (endsName_of_isBlank (blank b (by simp [gaps]))) _
    · rw [split, List.dropWhile_append_of_pos blank, List.dropWhile_cons_of_neg (by simp [other]), List.head?_cons, ne_eq,
        Option.some.injEq]
      rintro rfl
      exact absurd part (by decide)

/-- **The search along the attributes of a tag finds what is among them.** -/
theorem search_written (named : IsName name) {tokens : List Token} (proper : ∀ t ∈ tokens, t.Proper)
    (clear : ∀ t ∈ tokens, t.hides name = false) {close : List Char} (closes : Follows close)
    (ends : ∀ c ∈ close, endsName c = true) (previous : Option Char) (p : Spot) :
    firstStatic name (namesFrom previous p (written tokens ++ close)) = staticAmong name p tokens ∧
      present name (namesFrom previous p (written tokens ++ close)) = presentAmong name tokens := by
  induction tokens generalizing previous p with
  | nil =>
    have nothing : lookalike name previous close [] = false := lookalike_of_ends named.1 ends previous []
    have quiet := search_quiet named nothing p
    have other : (spellings name).contains (headWord []) = false := by
      simp [spellings, headWord, named.1]
    obtain ⟨unfound, absent⟩ := not_found_of_headWord named other (spotAfter p close).2
    rw [List.append_nil, namesFrom] at quiet
    rw [written, List.flatMap_nil, List.nil_append, quiet.1, quiet.2]
    cases (behindAll previous close).any joinsName with
    | true => exact ⟨rfl, rfl⟩
    | false =>
      constructor
      · simpa [firstStatic, staticAmong, lineRest] using unfound
      · simpa [present, presentAmong, lineRest] using absent
  | cons t rest ih =>
    have own := proper t List.mem_cons_self
    have later := fun u (member : u ∈ rest) => proper u (List.mem_cons_of_mem t member)
    have follows : Follows (written rest ++ close) := closes.written later
    have split : written (t :: rest) ++ close = t.gap ++ (t.text ++ (written rest ++ close)) := by
      simp [written]
    -- The blanks before the attribute are passed over,
    have gap := search_quiet named (lookalike_of_ends named.1 (fun c member => endsName_of_isBlank (own.gap.2 c member))
      previous (t.text ++ (written rest ++ close))) p
    have free := behindAll_of_blank own.gap.1 own.gap.2 previous
    -- it is looked at where it begins,
    have static := staticValue?_token named own follows (spotAfter p t.gap)
    have held : isAttributeAt name (lineRest (t.text ++ (written rest ++ close))) = (spellings name).contains t.name := by
      rw [isAttributeAt_eq named, headWord_lineRest, headWord_token own follows]
    -- and the rest of it is passed over as well.
    obtain ⟨c, cs, chars⟩ : ∃ c cs, t.text = c :: cs := by
      obtain ⟨c, cs, chars⟩ := List.exists_cons_of_ne_nil own.name.1
      exact ⟨c, _, by rw [Token.text, chars, List.cons_append]⟩
    have hidden := clear t List.mem_cons_self
    rw [Token.hides, chars] at hidden
    have inside := search_quiet named ((lookalike_of_headWord follows.ends (behind c) cs).trans hidden)
      (stepSpot (spotAfter p t.gap) c)
    obtain ⟨statics, helds⟩ := ih later (fun u member => clear u (List.mem_cons_of_mem t member))
      (behindAll (behind c) cs) (spotAfter p (t.gap ++ t.text))
    have spot : spotAfter (stepSpot (spotAfter p t.gap) c) cs = spotAfter p (t.gap ++ t.text) := by
      rw [spotAfter_append, chars]
      rfl
    rw [spot] at inside
    rw [split, gap.1, gap.2]
    rw [chars, List.cons_append] at static held ⊢
    rw [namesFrom, free]
    constructor
    · rw [staticAmong, ← static, ← statics, ← inside.1, firstStatic, firstStatic]
      simp only [Bool.false_eq_true, if_false, List.singleton_append, List.findSome?_cons]
      cases staticValue? name (spotAfter p t.gap).2 (lineRest (c :: (cs ++ (written rest ++ close)))) <;> rfl
    · rw [presentAmong, List.any_cons, ← presentAmong, ← held, ← helds, ← inside.2, present, present]
      simp only [Bool.false_eq_true, if_false, List.singleton_append, List.any_cons]

/-- **The search along a tag finds what is among its attributes, if nothing else in it looks like the name.** -/
theorem search_tag (named : IsName name) {w : Written} (proper : w.Proper) (clear : w.hides name = false)
    (previous : Option Char) (p : Spot) :
    let place := spotAfter p ('<' :: w.name)
    firstStatic name (namesFrom previous p w.text) = staticAmong name place w.tokens ∧
      present name (namesFrom previous p w.text) = presentAmong name w.tokens := by
  rw [Written.hides, Bool.or_eq_false_iff, List.any_eq_false] at clear
  obtain ⟨own, tokens⟩ := clear
  have follows : Follows (written w.tokens ++ w.close) := proper.follows.written proper.tokens
  -- No name begins with the angle bracket.
  have angle : ('<' :: headWord (w.name ++ (written w.tokens ++ w.close))) ∉ spellings name := by
    intro member
    simp only [spellings, List.mem_cons, List.not_mem_nil, or_false] at member
    rcases member with same | same | same
    · exact absurd (List.cons.inj same).1 (by decide)
    · exact absurd (List.cons.inj same).1 (by decide)
    · exact absurd (named.2 '<' (same ▸ List.mem_cons_self)) (by decide)
  have quiet : lookalike name previous ('<' :: w.name) (written w.tokens ++ w.close) = false := by
    rw [lookalike, headWord_cons, if_neg (by decide), lookalike_of_headWord follows.ends, Bool.or_eq_false_iff]
    exact ⟨by simp [angle], own⟩
  have ends : ∀ c ∈ w.close, endsName c = true := by
    intro c member
    rw [Written.close, List.mem_append] at member
    rcases member with blank | last
    · exact endsName_of_isBlank (proper.blanks c blank)
    · cases slash : w.slash <;> simp only [slash, Bool.false_eq_true, if_true, if_false, List.mem_cons, List.not_mem_nil,
        or_false] at last
      · subst last; decide
      · rcases last with rfl | rfl <;> decide
  obtain ⟨static, held⟩ := search_quiet named quiet p
  have shown : ∀ t ∈ w.tokens, t.hides name = false := fun t member => by simpa using tokens t member
  obtain ⟨statics, helds⟩ := search_written named proper.tokens shown proper.follows ends
    (behindAll previous ('<' :: w.name)) (spotAfter p ('<' :: w.name))
  exact ⟨static.trans statics, held.trans helds⟩

end

/-! ### Where values stand -/

/-- The static attribute that is found is one of the tokens, and its value stands where it is found. -/
theorem staticAmong_stands {lines : List Line} {name : List Char} {tokens : List Token}
    (proper : ∀ t ∈ tokens, t.Proper) {close : List Char} {p : Spot} (laid : Laid lines p (written tokens ++ close))
    {line : Nat} {v : QuotedValue} (found : staticAmong name p tokens = some (line, v)) :
    ∃ t ∈ tokens, t.name = name ∧ ∃ a ∈ t.assigned, a.quote = some v.quote ∧
      between (lines.getD line []) v.start v.stop = a.value := by
  induction tokens generalizing p with
  | nil => cases found
  | cons t rest ih =>
    have split : written (t :: rest) ++ close = t.gap ++ (t.text ++ (written rest ++ close)) := by
      simp [written]
    rw [split] at laid
    rw [staticAmong, Option.or_eq_some_iff] at found
    rcases found with own | ⟨_, later⟩
    · refine ⟨t, List.mem_cons_self, ?_⟩
      obtain ⟨a, assigned, own⟩ := Option.bind_eq_some_iff.mp own
      obtain ⟨q, quoted, own⟩ := Option.bind_eq_some_iff.mp own
      split at own
      next both =>
        obtain ⟨same, plain⟩ := both
        obtain ⟨rfl, rfl⟩ := Prod.mk.inj (Option.some.inj own)
        refine ⟨same, a, assigned, quoted, ?_⟩
        have named := (proper t List.mem_cons_self).name
        have mark := ((proper t List.mem_cons_self).assigned a assigned).quoted q quoted
        have feedless : '\n' ∉ t.name := fun member => absurd (named.2 _ member) (by decide)
        have other : q ≠ '\n' := by rcases mark.1 with rfl | rfl <;> decide
        have text : t.text ++ (written rest ++ close) =
            (t.name ++ a.before ++ '=' :: a.after ++ [q]) ++ (a.value ++ q :: (written rest ++ close)) := by
          simp [Token.text, Assigned.text, assigned, quoted]
        have stands : Laid lines (spotAfter p t.gap) _ := text ▸ laid.append
        have value := stands.between_eq (by
          simp only [List.mem_append, not_or] at plain ⊢
          simp [feedless, plain, other.symm]) other
        rw [show (t.name ++ a.before ++ '=' :: a.after ++ [q]).length = name.length + a.before.length + a.after.length + 2 by
          simp only [same, List.length_append, List.length_cons, List.length_nil]
          omega] at value
        exact value
      · contradiction
    · rw [← List.append_assoc] at laid
      obtain ⟨u, member, stands⟩ := ih (fun u member => proper u (List.mem_cons_of_mem t member)) laid.append later
      exact ⟨u, List.mem_cons_of_mem t member, stands⟩

end Remedy.Component
