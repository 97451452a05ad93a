import Mathlib.Data.List.DropRight
import Remedy.Repair.Heal

/-!
What healing makes of a reply.

Code between fences comes out as it was put in, whatever tag the opening fence has and however many line feeds stand around
the reply; a reply without a fence is taken as it is, less the line feeds around it. In both cases the file ends in as many
line feeds as the one that was handed in. All that can go wrong ends in one kind of error: the client has no reply, or the
reply has no code in it.
-/

namespace Remedy

/-! ### Ends of texts -/

namespace Text

theorem dropTail_eq (test : Char → Bool) (cs : List Char) : dropTail test cs = cs.rdropWhile test := rfl

theorem dropTail_append {test : Char → Bool} {tail : List Char} (passes : ∀ c ∈ tail, test c = true) (cs : List Char) :
    dropTail test (cs ++ tail) = dropTail test cs := by
  have reversed : ∀ c ∈ tail.reverse, test c = true := by simpa using passes
  rw [dropTail, List.reverse_append, List.dropWhile_append_of_pos reversed, dropTail]

theorem dropTail_concat {test : Char → Bool} {c : Char} (fails : test c = false) (cs : List Char) :
    dropTail test (cs ++ [c]) = cs ++ [c] := by
  rw [dropTail_eq, List.rdropWhile_concat_neg _ _ _ (by simp [fails])]

end Text

open Text (dropTail dropTail_append dropTail_concat dropTail_eq isBlank trimEnd trimStart)

namespace Repair.Reply

/-- Code between fences: a line of backticks and a tag, with or without blanks behind it, and backticks on a line of their
own. -/
def fenced (tag blanks body : List Char) : List Char :=
  fence ++ (tag ++ (blanks ++ '\n' :: (body ++ '\n' :: fence)))

/-- What is left of a text without the line feeds around it: something that neither begins nor ends with one. -/
structure IsCore (cs : List Char) : Prop where
  head : ∃ c rest, cs = c :: rest ∧ c ≠ '\n'
  last : ∃ front c, cs = front ++ [c] ∧ c ≠ '\n'

/-! ### Line feeds around a text -/

theorem isNewline_iff {c : Char} : isNewline c = true ↔ c = '\n' := beq_iff_eq

theorem isNewline_of_ne {c : Char} (other : c ≠ '\n') : isNewline c = false := by simp [isNewline, other]

theorem IsCore.dropTail_eq {core : List Char} (proper : IsCore core) : dropTail isNewline core = core := by
  obtain ⟨front, c, rfl, other⟩ := proper.last
  exact dropTail_concat (isNewline_of_ne other) front

/-- The line feeds around a text are all that is dropped. -/
theorem stripped_eq {before core after : List Char} (feeds : ∀ c ∈ before ++ after, c = '\n') (proper : IsCore core) :
    dropTail isNewline ((before ++ (core ++ after)).dropWhile isNewline) = core := by
  have ⟨leading, trailing⟩ := List.forall_mem_append.mp fun c member => isNewline_iff.mpr (feeds c member)
  have kept : (core ++ after).dropWhile isNewline = core ++ after := by
    obtain ⟨c, rest, rfl, other⟩ := proper.head
    simp [isNewline_of_ne other]
  rw [List.dropWhile_append_of_pos leading, kept, dropTail_append trailing, proper.dropTail_eq]

theorem isBlank_of_feeds {cs : List Char} (feeds : ∀ c ∈ cs, c = '\n') : ∀ c ∈ cs, isBlank c = true := by
  intro c member
  rw [feeds c member]
  decide

/-- A text that is not blank has a core, and that is not blank either. -/
theorem exists_core {cs : List Char} (text : ∃ c ∈ cs, isBlank c = false) :
    ∃ before core after, cs = before ++ (core ++ after) ∧ (∀ c ∈ before ++ after, c = '\n') ∧ IsCore core ∧
      ∃ c ∈ core, isBlank c = false := by
  -- Behind the leading line feeds there is a character that is none, so taking off the trailing ones stops behind it.
  obtain ⟨c, rest, left, other⟩ : ∃ c rest, cs.dropWhile isNewline = c :: rest ∧ c ≠ '\n' := by
    cases left : cs.dropWhile isNewline with
    | nil =>
      obtain ⟨c, member, mark⟩ := text
      have feed := isNewline_iff.mp (List.dropWhile_eq_nil_iff.mp left c member)
      rw [feed] at mark
      cases mark
    | cons c rest =>
      have stops := List.head?_dropWhile_not isNewline cs
      refine ⟨c, rest, rfl, ?_⟩
      rintro rfl
      simp [left, isNewline] at stops
  obtain ⟨front, d, last, other'⟩ : ∃ front d, (c :: rest).rdropWhile isNewline = front ++ [d] ∧ d ≠ '\n' := by
    have nonempty : (c :: rest).rdropWhile isNewline ≠ [] := by simp [List.rdropWhile_eq_nil_iff, isNewline_of_ne other]
    have stops := List.rdropWhile_last_not isNewline (c :: rest) nonempty
    exact ⟨_, _, (List.dropLast_concat_getLast nonempty).symm, fun feed => stops (isNewline_iff.mpr feed)⟩
  have split : cs = cs.takeWhile isNewline ++ ((c :: rest).rdropWhile isNewline ++ (c :: rest).rtakeWhile isNewline) := by
    rw [List.rdropWhile_append_rtakeWhile, ← left, List.takeWhile_append_dropWhile]
  have before : ∀ e ∈ cs.takeWhile isNewline, e = '\n' := fun e member => isNewline_iff.mp (List.mem_takeWhile_imp member)
  have after : ∀ e ∈ (c :: rest).rtakeWhile isNewline, e = '\n' := fun e member =>
    isNewline_iff.mp (List.mem_rtakeWhile_imp member)
  have feeds := List.forall_mem_append.mpr ⟨before, after⟩
  refine ⟨_, _, _, split, feeds, ⟨?_, front, d, last, other'⟩, ?_⟩
  · obtain ⟨more, same⟩ := List.rdropWhile_prefix isNewline (l := c :: rest)
    rw [last] at same ⊢
    cases front with
    | nil => exact ⟨d, [], rfl, other'⟩
    | cons e front => exact ⟨e, _, rfl, by simpa [(List.cons.inj same).1] using other⟩
  · obtain ⟨e, member, mark⟩ := text
    refine ⟨e, ?_, mark⟩
    by_contra outside
    rw [split, List.mem_append, List.mem_append] at member
    have feed : e = '\n' := by
      apply feeds
      rw [List.mem_append]
      tauto
    rw [feed] at mark
    cases mark

/-! ### Fences -/

section

variable {tag blanks body : List Char}

/-- The line of an opening fence is read over, whatever tag it has. -/
theorem afterFence?_line (tagged : ∀ c ∈ tag, isTagChar c = true) (blank : ∀ c ∈ blanks, c = ' ' ∨ c = '\t')
    (code : List Char) : afterFence? (fence ++ (tag ++ (blanks ++ '\n' :: code))) = some code := by
  have front : after? fence (fence ++ (tag ++ (blanks ++ '\n' :: code))) = some (tag ++ (blanks ++ '\n' :: code)) := by
    simp [after?]
  have stops : isTagChar '\n' = false := by decide
  -- Blanks are no characters of tags, so the tag ends where they begin, or else at the line feed.
  have untagged : (blanks ++ '\n' :: code).dropWhile isTagChar = blanks ++ '\n' :: code := by
    cases blanks with
    | nil => simp [stops]
    | cons c more =>
      have other : isTagChar c = false := by
        rcases blank c List.mem_cons_self with rfl | rfl <;> decide
      simp [other]
  have blank : ∀ c ∈ blanks, (c == ' ' || c == '\t') = true := by simpa using blank
  rw [afterFence?, front, Option.bind_some, List.dropWhile_append_of_pos tagged, untagged,
    List.dropWhile_append_of_pos blank]
  simp

/-- A closing fence on a line of its own is taken off together with the line feed before it, and nothing else is. -/
theorem beforeFence?_line (body : List Char) : beforeFence? (body ++ '\n' :: fence) = some body := by
  -- Nothing is trimmed behind a backtick, whatever the body ends in.
  have trimmed : trimEnd (body ++ '\n' :: fence) = body ++ '\n' :: fence := by
    have last : body ++ '\n' :: fence = (body ++ ['\n', '\x60', '\x60']) ++ ['\x60'] := by simp [fence]
    rw [last, trimEnd, dropTail_concat (by decide)]
  rw [beforeFence?, trimmed]
  simp [after?, fence]

theorem unfenced_fenced (tagged : ∀ c ∈ tag, isTagChar c = true) (blank : ∀ c ∈ blanks, c = ' ' ∨ c = '\t') :
    unfenced (fenced tag blanks body) = body := by
  rw [unfenced, fenced, afterFence?_line tagged blank, Option.getD_some, beforeFence?_line, Option.getD_some]

theorem isCore_fenced (tag blanks body : List Char) : IsCore (fenced tag blanks body) := by
  constructor
  · exact ⟨'\x60', _, rfl, by decide⟩
  · refine ⟨fence ++ (tag ++ (blanks ++ '\n' :: (body ++ ['\n', '\x60', '\x60']))), '\x60', ?_, by decide⟩
    simp [fenced, fence]

end

/-! ### The code of a reply -/

section

variable {before core after : List Char}

/-- The code of a reply depends on what is left of it without the line feeds around it. -/
theorem code_eq (feeds : ∀ c ∈ before ++ after, c = '\n') (proper : IsCore core) :
    code (before ++ (core ++ after)) =
      if core.all isBlank then .error .emptyFile
      else
        let code := if fence.isPrefixOf (trimStart core) then unfenced (trimStart core) else core
        if code.all isBlank then .error .emptyBlock else .ok code := by
  rw [code, stripped_eq feeds proper]

theorem all_isBlank_eq_false {cs : List Char} (text : ∃ c ∈ cs, isBlank c = false) : cs.all isBlank = false := by
  simpa using text

/-- The line feeds around a text make no difference to what stands at its front. -/
theorem trimStart_eq (feeds : ∀ c ∈ before ++ after, c = '\n') (text : ∃ c ∈ core, isBlank c = false) :
    trimStart (before ++ (core ++ after)) = trimStart core ++ after := by
  have ⟨leading, _⟩ := List.forall_mem_append.mp (isBlank_of_feeds feeds)
  have left : (core.dropWhile isBlank).isEmpty = false := by
    rw [List.isEmpty_eq_false_iff, ne_eq, List.dropWhile_eq_nil_iff]
    intro blank
    obtain ⟨c, member, other⟩ := text
    simp [blank c member] at other
  rw [trimStart, List.dropWhile_append_of_pos leading, List.dropWhile_append, left, trimStart]
  rfl

/-- **Code between fences is the code of the reply.** -/
theorem code_fenced {tag blanks body : List Char} (feeds : ∀ c ∈ before ++ after, c = '\n')
    (tagged : ∀ c ∈ tag, isTagChar c = true) (blank : ∀ c ∈ blanks, c = ' ' ∨ c = '\t')
    (text : ∃ c ∈ body, isBlank c = false) : code (before ++ (fenced tag blanks body ++ after)) = .ok body := by
  have first : trimStart (fenced tag blanks body) = fenced tag blanks body := by
    rw [trimStart, fenced, fence, List.cons_append, List.dropWhile_cons_of_neg (by decide)]
  have opens : fence.isPrefixOf (fenced tag blanks body) = true := by simp [fenced]
  have written : (fenced tag blanks body).all isBlank = false :=
    all_isBlank_eq_false ⟨'\x60', by simp [fenced, fence], by decide⟩
  rw [code_eq feeds (isCore_fenced tag blanks body), written, first, opens, if_pos rfl, unfenced_fenced tagged blank]
  simp [all_isBlank_eq_false text]

/-- Without a fence at its front a text is its own code. -/
theorem code_plain (feeds : ∀ c ∈ before ++ after, c = '\n') (proper : IsCore core)
    (text : ∃ c ∈ core, isBlank c = false) (plain : ¬ fence <+: trimStart core) :
    code (before ++ (core ++ after)) = .ok core := by
  have closed : fence.isPrefixOf (trimStart core) = false := by
    rwa [Bool.eq_false_iff, ne_eq, List.isPrefixOf_iff_prefix]
  rw [code_eq feeds proper, all_isBlank_eq_false text, closed]
  simp [all_isBlank_eq_false text]

end

/-- A reply without code is blank, or it begins with a fence. -/
theorem code_eq_error {reply : List Char} {e : ReplyError} (h : code reply = .error e) :
    (e = .emptyFile ∧ ∀ c ∈ reply, isBlank c = true) ∨ (e = .emptyBlock ∧ fence <+: trimStart reply) := by
  by_cases blank : ∀ c ∈ reply, isBlank c = true
  · left
    have given : (dropTail isNewline (reply.dropWhile isNewline)).all isBlank = true := by
      rw [dropTail_eq, List.all_eq_true]
      intro c member
      exact blank c ((List.dropWhile_sublist _).subset ((List.rdropWhile_prefix _ _).subset member))
    rw [code, given, if_pos rfl] at h
    exact ⟨(Except.error.inj h).symm, blank⟩
  · right
    obtain ⟨before, core, after, rfl, feeds, proper, text⟩ := exists_core (by simpa using blank)
    by_cases opens : fence <+: trimStart core
    · constructor
      · rw [code_eq feeds proper, all_isBlank_eq_false text, List.isPrefixOf_iff_prefix.mpr opens] at h
        simp only [Bool.false_eq_true, if_false, if_true] at h
        split at h
        · exact (Except.error.inj h).symm
        · cases h
      · rw [trimStart_eq feeds text]
        exact opens.trans (List.prefix_append _ _)
    · rw [code_plain feeds proper text opens] at h
      cases h

/-! ### The end of the file -/

/-- Code that is ended like a text has as many line feeds at its end. -/
theorem trailingNewlines_endedLike (content code : List Char) :
    trailingNewlines (endedLike content code) = trailingNewlines content := by
  have feeds : ∀ c ∈ trailingNewlines content, c = '\n' := fun c member => isNewline_iff.mp (List.mem_takeWhile_imp member)
  have backwards : (trailingNewlines content).reverse = trailingNewlines content := by
    rw [List.eq_replicate_of_mem feeds, List.reverse_replicate]
  have all : ∀ c ∈ trailingNewlines content, isNewline c = true := fun c member => isNewline_iff.mpr (feeds c member)
  -- No line feed is left at the end of the code.
  have nothing : (code.reverse.dropWhile isNewline).takeWhile isNewline = [] := by
    have stops := List.head?_dropWhile_not isNewline code.reverse
    cases left : code.reverse.dropWhile isNewline with
    | nil => rfl
    | cons c rest =>
      rw [left] at stops
      simp_all
  have whole : (endedLike content code).reverse = trailingNewlines content ++ code.reverse.dropWhile isNewline := by
    rw [endedLike, List.reverse_append, backwards, dropTail, List.reverse_reverse]
  rw [trailingNewlines, whole, List.takeWhile_append_of_pos all, nothing, List.append_nil]

end Repair.Reply

open Repair Repair.Reply

/-- Why there is no file: the client has no reply, or the reply is blank, or it begins with a fence that has no code in it. -/
inductive HealError.Explains (answer : Except String String) : HealError → Prop
  | client {message : String} (failed : answer = .error message) : Explains answer (.client message)
  | emptyFile {reply : String} (given : answer = .ok reply) (blank : ∀ c ∈ reply.toList, isBlank c = true) :
    Explains answer (.reply .emptyFile)
  | emptyBlock {reply : String} (given : answer = .ok reply) (opens : fence <+: trimStart reply.toList) :
    Explains answer (.reply .emptyBlock)

/-- Whatever the client has to say, there is a file that ends like the one handed in, or an error that tells why not. -/
theorem healed_cases (content : String) (answer : Except String String) :
    (∃ text, healed content answer = .ok text ∧ trailingNewlines text.toList = trailingNewlines content.toList) ∨
      ∃ e : HealError, healed content answer = .error e ∧ e.Explains answer := by
  rw [healed.eq_def]
  cases answer with
  | error message => exact Or.inr ⟨_, rfl, .client rfl⟩
  | ok reply =>
    dsimp only
    cases given : code reply.toList with
    | ok code => exact Or.inl ⟨_, rfl, by rw [String.toList_ofList, trailingNewlines_endedLike]⟩
    | error e =>
      refine Or.inr ⟨_, rfl, ?_⟩
      rcases code_eq_error given with ⟨rfl, blank⟩ | ⟨rfl, opens⟩
      · exact .emptyFile rfl blank
      · exact .emptyBlock rfl opens

theorem healed_of_code {content reply : String} {code : List Char} (given : Reply.code reply.toList = .ok code) :
    healed content (.ok reply) = .ok (String.ofList (endedLike content.toList code)) := by
  simp only [healed, given]

/-- **Healing undoes fencing and keeps the end of the file.** Take the answer of whatever client to the request for a file. If
it is code between fences, with line feeds around it, the code is taken out as it is, and the file is the code less the line
feeds at its end, with those of the file that was handed in. If it is no such thing but not blank, it is its own code, less
the line feeds around it. And whatever it is, there is a file with as many line feeds at its end as before, or an error. -/
theorem heal_unfences {σ : Type} (healer : Healer σ) (content : String) (errors : List String) (file : String) (state : σ)
    {answer : Except String String} (answered : (healer.answer (.of content errors file) state).1 = answer) :
    (∀ before tag blanks body after : List Char, (∀ c ∈ before ++ after, c = '\n') → (∀ c ∈ tag, isTagChar c = true) →
      (∀ c ∈ blanks, c = ' ' ∨ c = '\t') → (∃ c ∈ body, isBlank c = false) →
      code (before ++ (fenced tag blanks body ++ after)) = .ok body ∧
        (answer = .ok (String.ofList (before ++ (fenced tag blanks body ++ after))) →
          (healer.heal content errors file state).1 =
            .ok (String.ofList (dropTail isNewline body ++ trailingNewlines content.toList)))) ∧
    (∀ reply : List Char, (∃ c ∈ reply, isBlank c = false) → ¬ fence <+: trimStart reply →
      ∃ before core after, reply = before ++ (core ++ after) ∧ (∀ c ∈ before ++ after, c = '\n') ∧ IsCore core ∧
        code reply = .ok core ∧
        (answer = .ok (String.ofList reply) →
          (healer.heal content errors file state).1 = .ok (String.ofList (core ++ trailingNewlines content.toList)))) ∧
    ((∃ text, (healer.heal content errors file state).1 = .ok text ∧
        trailingNewlines text.toList = trailingNewlines content.toList) ∨
      ∃ e : HealError, (healer.heal content errors file state).1 = .error e ∧ e.Explains answer) := by
  have result : (healer.heal content errors file state).1 = healed content answer := by rw [← answered]; rfl
  rw [result]
  refine ⟨?_, ?_, healed_cases content answer⟩
  · intro before tag blanks body after feeds tagged blank text
    have given := code_fenced feeds tagged blank text
    refine ⟨given, ?_⟩
    rintro rfl
    exact healed_of_code (by rw [String.toList_ofList, given])
  · intro reply text plain
    obtain ⟨before, core, after, rfl, feeds, proper, text⟩ := exists_core text
    have given : code (before ++ (core ++ after)) = .ok core := by
      apply code_plain feeds proper text
      intro opens
      rw [trimStart_eq feeds text] at plain
      exact plain (opens.trans (List.prefix_append _ _))
    refine ⟨before, core, after, rfl, feeds, proper, given, ?_⟩
    rintro rfl
    rw [healed_of_code (by rw [String.toList_ofList, given]), endedLike, proper.dropTail_eq]

namespace Scripted

/-- A client that has one reply to everything. -/
def healer (reply : String) : Healer Unit where
  provider _ := "scripted"
  answer _ _ := (.ok reply, ())

/-- A snippet of a guide: it shows a fence, and has a line feed at its end. -/
def body : List Char := "<pre>\n\x60\x60\x60\n</pre>\n".toList

end Scripted

/-- A snippet that has a fence in it is taken out of its own fences whole; the file ends in two line feeds, as it did before. -/
theorem snippet_unfenced :
    code ("\n".toList ++ (fenced "vue".toList " ".toList Scripted.body ++ "\n\n".toList)) = .ok Scripted.body ∧
      ((Scripted.healer (String.ofList ("\n".toList ++ (fenced "vue".toList " ".toList Scripted.body ++ "\n\n".toList)))).heal
        "<p>\n\n" [] "a.vue" ()).1 = .ok "<pre>\n\x60\x60\x60\n</pre>\n\n" := by
  obtain ⟨undone, _, _⟩ := heal_unfences
    (Scripted.healer (String.ofList ("\n".toList ++ (fenced "vue".toList " ".toList Scripted.body ++ "\n\n".toList))))
    "<p>\n\n" [] "a.vue" () rfl
  have feeds : ("\n".toList ++ "\n\n".toList).all isNewline = true := by decide
  have tagged : "vue".toList.all isTagChar = true := by decide
  have blank : ∀ c ∈ " ".toList, c = ' ' ∨ c = '\t' := by simp
  obtain ⟨given, file⟩ := undone "\n".toList "vue".toList " ".toList Scripted.body "\n\n".toList
    (fun c member => isNewline_iff.mp (List.all_eq_true.mp feeds c member)) (List.all_eq_true.mp tagged) blank
    ⟨'<', by decide, by decide⟩
  refine ⟨given, (file rfl).trans ?_⟩
  cbv

end Remedy
