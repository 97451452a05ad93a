import Remedy.Check.Balance
import Remedy.Proofs.Text.Places

/-!
Where the events of a markup text are said to be. The reader always knows the place of the text that it has left, so an event
is put where it begins, and a tag where its `<` stands. What is found wrong with the tags of a text is put at one of them.
-/

namespace Remedy.Markup

/-- The reader has left a tail of the text, and knows the place at which that begins. -/
def Reader.On (text : List Char) (r : Reader) : Prop := ∃ before, text = before ++ r.rest ∧ r.position = Position.after before

/-- Tags, the starting ones and the ending ones. -/
def Event.isTag : Event → Bool
  | .start _ => true
  | .stop _ => true
  | _ => false

/-- An event is put where it begins. -/
def Placed.Stands (text : List Char) (e : Placed) : Prop :=
  ∃ before rest, text = before ++ rest ∧ e.position = Position.after before ∧ (e.event.isTag = true → rest.head? = some '<')

variable {text : List Char} {r : Reader} {mode : Mode} {final : Bool}

/-! ### The reader -/

theorem Reader.On.start (text : List Char) (raw : Option (List Char)) : Reader.On text ⟨text, ⟨1, 0⟩, raw⟩ := ⟨[], rfl, rfl⟩

theorem Reader.On.skip (h : r.On text) (n : Nat) : (r.skip n).On text := by
  induction n generalizing r with
  | zero => exact h
  | succ n ih =>
    obtain ⟨before, split, place⟩ := h
    rw [Reader.skip]
    split
    next => exact ⟨before, split, place⟩
    next c rest left =>
      apply ih
      rw [left] at split
      refine ⟨before ++ [c], by rw [split, List.append_assoc, List.singleton_append], ?_⟩
      rw [Position.after, List.foldl_append, ← Position.after, ← place]
      simp only [List.foldl_cons, List.foldl_nil, Position.stepChar, beq_iff_eq]

theorem Reader.On.at (h : r.On text) (tail : List Char) : (r.at tail).On text := h.skip _

theorem Reader.On.withRaw (h : r.On text) (raw : Option (List Char)) : Reader.On text { r with raw } := h

/-- A step goes on from a place in the text, and its events are put where it began. -/
structure Step.Follows (text : List Char) (r : Reader) (s : Step) : Prop where
  here : ∀ e ∈ s.events, e.position = r.position
  next : s.next.On text

theorem follows_wait (h : r.On text) : Step.Follows text r ⟨[], r, true⟩ := ⟨by simp, h⟩

theorem follows_at (h : r.On text) {events : List Placed} (here : ∀ e ∈ events, e.position = r.position) (tail : List Char)
    (raw : Option (List Char)) (waits : Bool) : Step.Follows text r ⟨events, { r.at tail with raw }, waits⟩ :=
  ⟨here, (h.at tail).withRaw raw⟩

/-- What is made of a construct: one event and the text behind it, or text where the construct has no end. -/
theorem follows_finish (h : r.On text) (found : Option (Option Event × List Char × Option (List Char))) (content : Event)
    (tail : List Char) :
    Step.Follows text r (match found with
      | some (event, rest, raw) =>
        ⟨(event.map fun e => (⟨r.position, e⟩ : Placed)).toList, { r.at rest with raw }, false⟩
      | none => if final then ⟨[⟨r.position, content⟩], r.at tail, false⟩ else ⟨[], r, true⟩) := by
  split
  next event rest raw =>
    apply follows_at h
    cases event <;> simp
  next =>
    split
    · exact follows_at h (by simp) tail _ false
    · exact follows_wait h

theorem atAngle_follows (h : r.On text) {s : Step} (step : atAngle mode final r = .ok s) : s.Follows text r := by
  simp only [atAngle, pure, Except.pure] at step
  split at step
  next =>
    obtain rfl := Except.ok.inj step
    exact follows_wait h
  next c body _ =>
    split at step
    · -- A start tag.
      split at step
      next =>
        obtain rfl := Except.ok.inj step
        exact follows_finish h none _ _
      next =>
        obtain rfl := Except.ok.inj step
        exact follows_at h (by simp) _ _ false
      next =>
        obtain rfl := Except.ok.inj step
        exact follows_at h (by simp) _ _ false
    · split at step
      · -- An end tag.
        obtain rfl := Except.ok.inj step
        exact follows_finish h _ _ _
      · split at step
        · -- An instruction.
          obtain rfl := Except.ok.inj step
          exact follows_finish h _ _ _
        · split at step
          · -- A declaration or a comment.
            cases declared : declaration? body with
            | error e =>
              rw [declared] at step
              cases step
            | ok found =>
              rw [declared] at step
              obtain rfl := Except.ok.inj step
              exact follows_finish h _ _ _
          · obtain rfl := Except.ok.inj step
            exact follows_at h (by simp) _ _ false

theorem atAmpersand_follows (h : r.On text) : (atAmpersand final r).Follows text r := by
  simp only [atAmpersand]
  split
  next body _ =>
    split
    next => exact follows_at h (by simp) _ _ false
    next =>
      split
      · exact follows_at h (by simp) _ _ true
      · exact follows_wait h
  next => exact follows_wait h
  next c body _ =>
    split
    next => exact follows_at h (by simp) _ _ false
    next =>
      split
      · split
        · exact ⟨by simp, h.skip 1⟩
        · exact follows_wait h
      · exact ⟨by simp, h.skip 1⟩

/-! ### Tags begin with their mark -/

@[simp] theorem isTag_textEvent (raw : Option (List Char)) (cs : List Char) : (mode.textEvent raw cs).isTag = false := by
  cases mode <;> cases raw <;> rfl

theorem isTag_of_mem_atAmpersand : ∀ e ∈ (atAmpersand final r).events, e.event.isTag = false := by
  simp only [atAmpersand]
  repeat' split
  all_goals simp [Event.isTag]

@[simp] theorem Reader.rest_skip (r : Reader) (n : Nat) : (r.skip n).rest = r.rest.drop n := by
  induction n generalizing r with
  | zero => rfl
  | succ n ih =>
    rw [Reader.skip]
    split
    next left => rw [left, List.drop_nil]
    next c rest left => rw [ih, left, List.drop_succ_cons]

theorem Reader.rest_at {tail : List Char} (h : tail <:+ r.rest) : (r.at tail).rest = tail := by
  obtain ⟨before, split⟩ := h
  rw [Reader.at, Reader.rest_skip, ← split, List.length_append, Nat.add_sub_cancel, List.drop_left]

theorem firstTail?_suffix {test : List Char → Bool} {cs tail : List Char} (h : firstTail? test cs = some tail) :
    tail <:+ cs := by
  induction cs with
  | nil =>
    rw [firstTail?] at h
    split at h
    · exact Option.some.inj h ▸ List.suffix_rfl
    · cases h
  | cons c rest ih =>
    rw [firstTail?] at h
    split at h
    · exact Option.some.inj h ▸ List.suffix_rfl
    · exact (ih h).trans (List.suffix_cons c rest)

theorem nextMarkup?_suffix {tail : List Char} (h : nextMarkup? mode r = some tail) : tail <:+ r.rest := by
  rw [nextMarkup?.eq_def] at h
  split at h
  · exact firstTail?_suffix h
  · split at h
    · exact Option.some.inj h ▸ List.dropWhile_suffix _
    · simp only at h
      split at h
      · split at h
        · cases h
        · exact Option.some.inj h ▸ List.nil_suffix
      · exact Option.some.inj h ▸ List.dropWhile_suffix _

/-! ### Runs -/

theorem ok_of_bind {ε α β : Type} {x : Except ε α} {f : α → Except ε β} {b : β} (h : x >>= f = .ok b) :
    ∃ a, x = .ok a ∧ f a = .ok b := by
  cases x with
  | error e => cases h
  | ok a => exact ⟨a, rfl, h⟩

/-- Text is put where the reader stood before it. -/
theorem Reader.On.text_stands (h : r.On text) (cs : List Char) :
    Placed.Stands text ⟨r.position, mode.textEvent r.raw cs⟩ := by
  obtain ⟨before, split, place⟩ := h
  exact ⟨before, r.rest, split, place, by simp⟩

/-- Events put where a reader stands do stand there, if it is at a `<` or none of them is a tag. -/
theorem Step.Follows.stands {s : Step} (h : r.On text) (follows : s.Follows text r)
    (marked : (∀ e ∈ s.events, e.event.isTag = false) ∨ r.rest.head? = some '<') : ∀ e ∈ s.events, e.Stands text := by
  obtain ⟨before, split, place⟩ := h
  intro e he
  refine ⟨before, r.rest, split, (follows.here e he).trans place, fun tag => ?_⟩
  rcases marked with plain | angle
  · rw [plain e he] at tag
    cases tag
  · exact angle

/-- A reader on its text stays on it, and all events on the way stand where they are put. -/
theorem run_stands {fuel : Nat} {es : List Placed} {last : Reader} (h : r.On text)
    (done : run mode final fuel r = .ok (es, last)) : (∀ e ∈ es, e.Stands text) ∧ last.On text := by
  -- The induction is on the steps that are left; each begins with the reader on its text.
  induction fuel generalizing r es last with
  | zero =>
    obtain ⟨rfl, rfl⟩ := Prod.mk.inj (Except.ok.inj done)
    exact ⟨by simp, h⟩
  | succ fuel ih =>
    rw [run] at done
    split at done
    · obtain ⟨rfl, rfl⟩ := Prod.mk.inj (Except.ok.inj done)
      exact ⟨by simp, h⟩
    · split at done
      next =>
        obtain ⟨rfl, rfl⟩ := Prod.mk.inj (Except.ok.inj done)
        exact ⟨by simp, h⟩
      next tail next =>
        simp only at done
        -- The text in front of the construct.
        have front : ∀ e ∈ (if (r.rest.take (r.rest.length - tail.length)).isEmpty then [] else
            [(⟨r.position, mode.textEvent r.raw (r.rest.take (r.rest.length - tail.length))⟩ : Placed)]), e.Stands text := by
          split
          · simp
          · exact List.forall_mem_singleton.mpr (h.text_stands _)
        generalize (if (r.rest.take (r.rest.length - tail.length)).isEmpty then _ else _) = before at done front
        -- What follows once the step at the construct has been taken.
        have onward {s : Step} (stands : ∀ e ∈ s.events, e.Stands text) (on : s.next.On text)
            (done : (if s.waits then pure (before ++ s.events, s.next) else do
              let later ← run mode final fuel s.next
              return (before ++ s.events ++ later.1, later.2)) = Except.ok (es, last)) :
            (∀ e ∈ es, e.Stands text) ∧ last.On text := by
          have both := List.forall_mem_append.mpr ⟨front, stands⟩
          split at done
          · obtain ⟨rfl, rfl⟩ := Prod.mk.inj (Except.ok.inj done)
            exact ⟨both, on⟩
          · obtain ⟨later, rest, done⟩ := ok_of_bind done
            obtain ⟨rfl, rfl⟩ := Prod.mk.inj (Except.ok.inj done)
            obtain ⟨stands', on'⟩ := ih on rest
            exact ⟨List.forall_mem_append.mpr ⟨both, stands'⟩, on'⟩
        split at done
        next =>
          obtain ⟨rfl, rfl⟩ := Prod.mk.inj (Except.ok.inj done)
          exact ⟨front, h.at _⟩
        next c rest =>
          have left : (r.at (c :: rest)).rest = c :: rest := Reader.rest_at (nextMarkup?_suffix next)
          have on := h.at (c :: rest)
          split at done
          next angle =>
            obtain ⟨s, step, done⟩ := ok_of_bind done
            have follows := atAngle_follows on step
            exact onward (follows.stands on (.inr (by rw [left, List.head?_cons, eq_of_beq angle]))) follows.next done
          next =>
            have follows : (atAmpersand final (r.at (c :: rest))).Follows text (r.at (c :: rest)) := atAmpersand_follows on
            exact onward (follows.stands on (.inl isTag_of_mem_atAmpersand)) follows.next done

/-- All events of a text stand where they are put. -/
theorem events_stand {text : String} {es : List Placed} (h : events mode text = .ok es) :
    ∀ e ∈ es, e.Stands text.toList := by
  rw [events] at h
  obtain ⟨⟨first, r⟩, once, h⟩ := ok_of_bind h
  obtain ⟨⟨second, last⟩, twice, h⟩ := ok_of_bind h
  -- The second pass begins where the first one has come to.
  obtain ⟨stands, on⟩ := run_stands (Reader.On.start text.toList none) once
  obtain ⟨stands', on'⟩ := run_stands on twice
  obtain rfl := Except.ok.inj h
  refine List.forall_mem_append.mpr ⟨List.forall_mem_append.mpr ⟨stands, stands'⟩, ?_⟩
  split
  · exact List.forall_mem_singleton.mpr (on'.text_stands _)
  · simp

end Remedy.Markup

/-! ### Tags that do not pair up -/

namespace Remedy.Check

def TagEvent.position : TagEvent → Position
  | .start _ p => p
  | .stop _ p => p
  | .selfClosing _ p => p

namespace Balance

variable {P : Position → Prop}

/-- All places that are kept have a property. -/
structure At (P : Position → Prop) (b : Balance) : Prop where
  opened : ∀ entry ∈ b.opened, P entry.2
  found : ∀ i ∈ b.found, P i.position

theorem at_report {entries : List (String × Position)} (h : ∀ entry ∈ entries, P entry.2) :
    ∀ i ∈ report entries, P i.position := by
  intro i hi
  obtain ⟨entry, he, rfl⟩ := List.mem_map.mp hi
  exact h entry he

theorem mem_of_splitAt? {tag : String} {entries inner outer : List (String × Position)}
    (h : splitAt? tag entries = some (inner, outer)) : (∀ entry ∈ inner, entry ∈ entries) ∧ ∀ entry ∈ outer, entry ∈ entries := by
  induction entries generalizing inner outer with
  | nil => cases h
  | cons first rest ih =>
    rw [splitAt?] at h
    split at h
    · obtain ⟨rfl, rfl⟩ := Prod.mk.inj (Option.some.inj h)
      exact ⟨by simp, fun entry => List.mem_cons_of_mem first⟩
    · obtain ⟨⟨inner', outer'⟩, split, same⟩ := Option.map_eq_some_iff.mp h
      obtain ⟨rfl, rfl⟩ := Prod.mk.inj same
      obtain ⟨left, right⟩ := ih split
      refine ⟨List.forall_mem_cons.mpr ⟨List.mem_cons_self, fun entry he => ?_⟩, fun entry he => ?_⟩
      · exact List.mem_cons_of_mem first (left entry he)
      · exact List.mem_cons_of_mem first (right entry he)

theorem At.step {b : Balance} (h : b.At P) {e : TagEvent} (he : P e.position) : (b.step e).At P := by
  cases e with
  | start tag p =>
    rw [Balance.step]
    split
    · exact h
    · exact ⟨List.forall_mem_cons.mpr ⟨he, h.opened⟩, h.found⟩
  | selfClosing tag p => exact h
  | stop tag p =>
    rw [Balance.step]
    split
    · exact h
    · split
      next inner outer split =>
        -- The inner tags are reported, the outer ones stay open.
        obtain ⟨left, right⟩ := mem_of_splitAt? split
        exact ⟨fun entry m => h.opened entry (right entry m),
          List.forall_mem_append.mpr ⟨h.found, at_report fun entry m => h.opened entry (left entry m)⟩⟩
      next => exact ⟨h.opened, List.forall_mem_append.mpr ⟨h.found, List.forall_mem_singleton.mpr he⟩⟩

theorem At.foldl {events : List TagEvent} (all : ∀ e ∈ events, P e.position) {b : Balance} (h : b.At P) :
    (events.foldl Balance.step b).At P := by
  induction events generalizing b with
  | nil => exact h
  | cons e rest ih =>
    obtain ⟨first, others⟩ := List.forall_mem_cons.mp all
    exact ih others (h.step first)

end Balance

/-- What is wrong with tags is put at some of them. -/
theorem position_of_mem_imbalances {P : Position → Prop} {events : List TagEvent} (all : ∀ e ∈ events, P e.position) :
    ∀ i ∈ imbalances events, P i.position := by
  have balance : (events.foldl Balance.step .empty).At P := Balance.At.foldl all ⟨by simp [Balance.empty], by simp [Balance.empty]⟩
  exact List.forall_mem_append.mpr ⟨balance.found, Balance.at_report balance.opened⟩

theorem ok_of_map {ε α β : Type} {x : Except ε α} {f : α → β} {b : β} (h : x.map f = .ok b) : ∃ a, x = .ok a ∧ f a = b := by
  cases x with
  | error e => cases h
  | ok a => exact ⟨a, rfl, Except.ok.inj h⟩

/-- What is wrong with the tags of a text is put at a `<` of it. -/
theorem markupImbalances_stand {text : String} {is : List Imbalance} (h : markupImbalances text = .ok is) :
    ∀ i ∈ is, ∃ before rest, text.toList = before ++ '<' :: rest ∧ i.position = Position.after before := by
  obtain ⟨es, read, rfl⟩ := ok_of_map h
  refine position_of_mem_imbalances
    (P := fun p => ∃ before rest, text.toList = before ++ '<' :: rest ∧ p = Position.after before) fun e he => ?_
  obtain ⟨placed, member, tag⟩ := List.mem_filterMap.mp he
  obtain ⟨before, rest, split, place, marked⟩ := Markup.events_stand read placed member
  -- Only tags are counted, and each keeps the place of its event.
  have isTag : placed.event.isTag = true ∧ e.position = placed.position := by
    rw [tagEvent?.eq_def] at tag
    split at tag
    next t same =>
      obtain rfl := Option.some.inj tag
      rw [same]
      refine ⟨rfl, ?_⟩
      split <;> rfl
    next name same =>
      obtain rfl := Option.some.inj tag
      rw [same]
      exact ⟨rfl, rfl⟩
    next => cases tag
  obtain ⟨rest', rfl⟩ := List.head?_eq_some_iff.mp (marked isTag.1)
  exact ⟨before, rest', split, isTag.2.trans place⟩

end Remedy.Check
