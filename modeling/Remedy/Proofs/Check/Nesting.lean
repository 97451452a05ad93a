import Mathlib.Data.List.Basic
import Remedy.Check.Balance

/-!
Well nested tags. Counting leaves nothing to tell of if and only if the tags that take part are well nested: each end tag
closes the tag that was opened last, and nothing stays open.
-/

namespace Remedy.Check

/-- Whether a tag takes part. Void elements and tags that close themselves do not. -/
def TagEvent.counts : TagEvent → Bool
  | .start tag _ => !voidElements.contains tag
  | .stop tag _ => !voidElements.contains tag
  | .selfClosing _ _ => false

/-- Every end tag closes the last start tag that is open, which has its name, and nothing stays open. -/
inductive WellNested : List TagEvent → Prop
  | nil : WellNested []
  | element (tag : String) (p q : Position) {inner rest : List TagEvent} :
      WellNested inner → WellNested rest → WellNested (.start tag p :: (inner ++ .stop tag q :: rest))

namespace Balance

theorem step_of_not_counts {e : TagEvent} (h : e.counts = false) (b : Balance) : b.step e = b := by
  cases e with
  | selfClosing tag p => rfl
  | start tag p =>
    have void : voidElements.contains tag = true := by simpa [TagEvent.counts] using h
    rw [step, if_pos void]
  | stop tag p =>
    have void : voidElements.contains tag = true := by simpa [TagEvent.counts] using h
    rw [step, if_pos void]

theorem step_start {tag : String} (h : voidElements.contains tag = false) (p : Position) (b : Balance) :
    b.step (.start tag p) = ⟨(tag, p) :: b.opened, b.found⟩ := by
  rw [step, h]
  rfl

theorem step_stop_closed {tag : String} (h : voidElements.contains tag = false) (q : Position) {b : Balance}
    {inner outer : List (String × Position)} (split : splitAt? tag b.opened = some (inner, outer)) :
    b.step (.stop tag q) = ⟨outer, b.found ++ report inner⟩ := by
  simp only [step, h, split, Bool.false_eq_true, if_false]

theorem step_stop_stray {tag : String} (h : voidElements.contains tag = false) (q : Position) {b : Balance}
    (split : splitAt? tag b.opened = none) : b.step (.stop tag q) = ⟨b.opened, b.found ++ [.stray tag q]⟩ := by
  simp only [step, h, split, Bool.false_eq_true, if_false]

/-- Tags that do not take part might as well not be there. -/
theorem foldl_step_filter (events : List TagEvent) (b : Balance) :
    (events.filter TagEvent.counts).foldl step b = events.foldl step b := by
  induction events generalizing b with
  | nil => rfl
  | cons e rest ih =>
    cases taken : e.counts with
    | true => rw [List.filter_cons_of_pos taken, List.foldl_cons, ih, List.foldl_cons]
    | false => rw [List.filter_cons_of_neg (by simp [taken]), List.foldl_cons, step_of_not_counts taken, ih]

/-- What was told of is not taken back. -/
theorem found_prefix (events : List TagEvent) (b : Balance) : b.found <+: (events.foldl step b).found := by
  induction events generalizing b with
  | nil => exact List.prefix_rfl
  | cons e rest ih =>
    refine List.IsPrefix.trans ?_ (ih (b.step e))
    cases e with
    | selfClosing tag p => exact List.prefix_rfl
    | start tag p =>
      rw [step]
      split
      · exact List.prefix_rfl
      · exact List.prefix_rfl
    | stop tag p =>
      rw [step]
      split
      · exact List.prefix_rfl
      · split
        · exact List.prefix_append _ _
        · exact List.prefix_append _ _

/-- Well nested tags leave all as it was. -/
theorem foldl_step_wellNested {events : List TagEvent} (h : WellNested events) (taken : ∀ e ∈ events, e.counts = true)
    (b : Balance) : events.foldl step b = b := by
  induction h generalizing b with
  | nil => rfl
  | @element tag p q inner rest _ _ inside after =>
    have counted : voidElements.contains tag = false := by
      simpa [TagEvent.counts] using taken (.start tag p) List.mem_cons_self
    have innermost : splitAt? tag ((tag, p) :: b.opened) = some ([], b.opened) := by simp [splitAt?]
    have closes : (⟨(tag, p) :: b.opened, b.found⟩ : Balance).step (.stop tag q) = b := by
      rw [step_stop_closed counted q innermost]
      simp [report]
    rw [List.foldl_cons, step_start counted, List.foldl_append, inside (fun e he => taken e (by simp [he])), List.foldl_cons, closes,
      after (fun e he => taken e (by simp [he]))]

/-- Whether tags close all of the open ones, innermost first, with well nested tags in between. -/
def Closes : List (String × Position) → List TagEvent → Prop
  | [], es => WellNested es
  | (tag, _) :: outer, es => ∃ inner q rest, es = inner ++ .stop tag q :: rest ∧ WellNested inner ∧ Closes outer rest

theorem Closes.cons_element {opened : List (String × Position)} {tag : String} {p q : Position} {inner rest : List TagEvent}
    (nested : WellNested inner) (h : Closes opened rest) :
    Closes opened (.start tag p :: (inner ++ .stop tag q :: rest)) := by
  cases opened with
  | nil => exact .element tag p q nested h
  | cons entry outer =>
    -- The element goes to the front of what stands before the next closing tag.
    obtain ⟨before, r, after, rfl, nested', closed⟩ := h
    refine ⟨.start tag p :: (inner ++ .stop tag q :: before), r, after, by simp, .element tag p q nested nested', closed⟩

theorem splitAt?_cons {tag : String} {entry : String × Position} {opened inner outer : List (String × Position)}
    (h : splitAt? tag (entry :: opened) = some (inner, outer)) (outermost : inner = []) :
    entry.1 = tag ∧ outer = opened := by
  rw [splitAt?] at h
  split at h
  next same =>
    obtain ⟨-, rfl⟩ := Prod.mk.inj (Option.some.inj h)
    exact ⟨beq_iff_eq.mp same, rfl⟩
  next =>
    obtain ⟨split, _, equal⟩ := Option.map_eq_some_iff.mp h
    have longer := (Prod.mk.inj equal).1
    rw [outermost] at longer
    cases longer

/-- If nothing is ever told of, the tags close what was open. -/
theorem closes_of_nothing_found {events : List TagEvent} (taken : ∀ e ∈ events, e.counts = true) {b : Balance}
    (quiet : (events.foldl step b).finish = []) : Closes b.opened events := by
  induction events generalizing b with
  | nil =>
    obtain ⟨-, nothing⟩ := List.append_eq_nil_iff.mp quiet
    rw [List.foldl_nil, report, List.map_eq_nil_iff] at nothing
    rw [nothing]
    exact .nil
  | cons e rest ih =>
    have closed := ih (fun f hf => taken f (List.mem_cons_of_mem e hf)) quiet
    -- Nothing is told of in the end, so nothing was told of after this tag either.
    have unsaid : (b.step e).found = [] := by
      have all : ((e :: rest).foldl step b).found = [] := (List.append_eq_nil_iff.mp quiet).1
      exact List.prefix_nil.mp (all ▸ found_prefix rest (b.step e))
    cases e with
    | selfClosing tag p => cases taken (.selfClosing tag p) List.mem_cons_self
    | start tag p =>
      have counted : voidElements.contains tag = false := by
        simpa [TagEvent.counts] using taken (.start tag p) List.mem_cons_self
      rw [step_start counted] at closed
      obtain ⟨inner, q, after, rfl, nested, others⟩ := closed
      exact others.cons_element nested
    | stop tag q =>
      have counted : voidElements.contains tag = false := by
        simpa [TagEvent.counts] using taken (.stop tag q) List.mem_cons_self
      cases split : splitAt? tag b.opened with
      | none => simp [step_stop_stray counted q split] at unsaid
      | some parts =>
        obtain ⟨inner, outer⟩ := parts
        rw [step_stop_closed counted q split] at closed unsaid
        have outermost : inner = [] := by
          obtain ⟨-, nothing⟩ := List.append_eq_nil_iff.mp unsaid
          simpa [report] using nothing
        cases opened : b.opened with
        | nil => simp [opened, splitAt?] at split
        | cons entry others =>
          rw [opened] at split
          obtain ⟨rfl, rfl⟩ := splitAt?_cons split outermost
          exact ⟨[], q, rest, rfl, .nil, closed⟩

end Balance

theorem imbalances_eq_nil_iff (events : List TagEvent) :
    imbalances events = [] ↔ WellNested (events.filter TagEvent.counts) := by
  have taken : ∀ e ∈ events.filter TagEvent.counts, e.counts = true := fun e he => (List.mem_filter.mp he).2
  rw [imbalances, ← Balance.foldl_step_filter]
  constructor
  · intro quiet
    exact Balance.closes_of_nothing_found taken quiet
  · intro nested
    rw [Balance.foldl_step_wellNested nested taken]
    rfl

end Remedy.Check
