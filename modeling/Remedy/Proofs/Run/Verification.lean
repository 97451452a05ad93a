import Remedy.Run.Verification
import Mathlib.Data.List.Basic

/-!
What a verification asks for: a check, a healing if that one failed, and another check if something was healed. A text
that is accepted has been found valid by one of the checks.
-/

namespace Remedy

namespace Event

def isHealing : Event → Bool
  | healed .. => true
  | _ => false

/-- Checks and healings ask someone else; all other events are the run's own. -/
def isCall (e : Event) : Bool := e.isCheck || e.isHealing

/-- The calls among some events, in order. -/
def calls (events : List Event) : List Event := events.filter isCall

/-- What is written, and where. -/
def write? : Event → Option (Path × String)
  | wrote file content => some (file, content)
  | _ => none

def attempt? : Event → Option Attempt
  | recorded a => some a
  | _ => none

@[simp] theorem calls_append (xs ys : List Event) : calls (xs ++ ys) = calls xs ++ calls ys := List.filter_append ..

@[simp] theorem isCall_warned (w : Warning) : (warned w).isCall = false := rfl

@[simp] theorem isCall_wrote (file : Path) (content : String) : (wrote file content).isCall = false := rfl

@[simp] theorem isCall_recorded (a : Attempt) : (recorded a).isCall = false := rfl

end Event

open Event (calls)

namespace Tools

variable (tools : Tools σ)

/-- The calls made for one file: two checks at most and one healing at most, which needs healing to be enabled and comes
right after a first check that found the text invalid. -/
structure Careful (made : List Event) : Prop where
  checks : made.countP Event.isCheck ≤ 2
  healings : made.countP Event.isHealing ≤ 1
  healing_after : ∀ before content result after, made = before ++ .healed content result :: after →
    tools.config.healing.enabled = true ∧
      ∃ report : Report, before = [.checked content (.ok report)] ∧ report.isValid = false

theorem careful_nil : tools.Careful [] := ⟨by simp, by simp, by simp⟩

theorem careful_check (content : String) (verdict : Verdict) : tools.Careful [.checked content verdict] where
  checks := by simp [List.countP_cons, Event.isCheck]
  healings := by simp [Event.isHealing]
  healing_after := by
    intro before text result after split
    have member : Event.healed text result ∈ [Event.checked content verdict] := by simp [split]
    simp at member

variable {tools} in
/-- A healing after a failed check, and one more check perhaps. -/
theorem careful_healing (enabled : tools.config.healing.enabled = true) {report : Report} (invalid : report.isValid = false)
    (content : String) (result : Except HealError String) (last : List Event) (one : last.length ≤ 1)
    (check : ∀ e ∈ last, e.isCheck = true) :
    tools.Careful ([.checked content (.ok report), .healed content result] ++ last) where
  checks := by
    have few := List.countP_le_length (p := Event.isCheck) (l := last)
    simp only [List.countP_append, List.countP_cons, List.countP_nil, Event.isCheck]
    simp
    omega
  healings := by
    have nothing : last.countP Event.isHealing = 0 := by
      rw [List.countP_eq_zero]
      intro e member
      have := check e member
      cases e <;> simp_all [Event.isCheck, Event.isHealing]
    simp [List.countP_cons, Event.isHealing, nothing]
  healing_after := by
    intro before text other after split
    refine ⟨enabled, report, ?_, invalid⟩
    match before, split with
    | [], split => simp at split
    | [first], split =>
      simp only [List.cons_append, List.nil_append, List.cons.injEq, Event.healed.injEq] at split
      obtain ⟨rfl, ⟨rfl, rfl⟩, _⟩ := split
      rfl
    | first :: second :: rest, split =>
      -- A healing any later would stand among checks.
      simp only [List.cons_append, List.nil_append, List.cons.injEq] at split
      have late : Event.healed text other ∈ last := by simp [split.2.2]
      have := check _ late
      simp [Event.isCheck] at this

/-- A text has been found valid by a check, unless no checks are made. -/
def Passed (content : String) (events : List Event) : Prop :=
  tools.config.patch.verify = true → ∃ report : Report, .checked content (.ok report) ∈ events ∧ report.isValid = true

variable {tools} in
theorem Passed.mono {content : String} {events more : List Event} (h : tools.Passed content events)
    (within : events ⊆ more) : tools.Passed content more := by
  intro on
  obtain ⟨report, member, valid⟩ := h on
  exact ⟨report, within member, valid⟩

/-- The answer to a call is one that the tools give, in some state. -/
def Answered (file : Path) : Event → Prop
  | .checked content verdict => ∃ s, (tools.check file content s).1 = verdict
  | .healed content result =>
    ∃ healer errors s, tools.healer = some healer ∧ (healer.heal content errors file.text s).1 = result
  | _ => True

/-- The ways a verification can go, each with all that happens on it. -/
inductive Verified (content : String) : Verification → List Event → Prop
  | unchecked (off : tools.config.patch.verify = false) : Verified content (.sound content) []
  | rejected (r : Markup.Rejection) : Verified content (.rejected r) [.checked content (.error r)]
  | valid (report : Report) (valid : report.isValid = true) :
    Verified content (.sound content) [.checked content (.ok report)]
  | invalid (report : Report) (w : Warning) :
    Verified content (.refused report.errors) [.checked content (.ok report), .warned w]
  | unhealed (enabled : tools.config.healing.enabled = true) (report : Report) (invalid : report.isValid = false)
      (w : Warning) (e : HealError) (errors : List String) :
    Verified content (.refused errors) [.checked content (.ok report), .warned w, .healed content (.error e)]
  | again (enabled : tools.config.healing.enabled = true) (report : Report) (invalid : report.isValid = false)
      (w : Warning) (healed : String) (verdict : Verdict) :
    Verified content (.ofSecond healed report.errors verdict)
      [.checked content (.ok report), .warned w, .healed content (.ok healed), .checked healed verdict]

theorem active_cases {healer : Healer σ} (h : tools.activeHealer? = some healer) :
    tools.config.healing.enabled = true ∧ tools.healer = some healer := by
  rw [activeHealer?] at h
  split at h
  next enabled => exact ⟨enabled, h⟩
  next => contradiction

/-- A verification goes one of these ways, and all that is asked on it is answered by the tools. -/
theorem verify_cases (file : Path) (content : String) (s : σ) :
    tools.Verified content (tools.verify file content s).1 (tools.verify file content s).2.2 ∧
      ∀ e ∈ (tools.verify file content s).2.2, tools.Answered file e := by
  -- By what the first check says, and then by what the healer does, if there is one.
  cases on : tools.config.patch.verify with
  | false =>
    simp only [verify, on]
    exact ⟨.unchecked on, by simp⟩
  | true =>
    cases first : tools.check file content s with
    | mk verdict s₁ =>
    have told : tools.Answered file (.checked content verdict) := ⟨s, by rw [first]⟩
    cases verdict with
    | error r =>
      simp only [verify, on, first]
      exact ⟨.rejected r, by simpa using told⟩
    | ok report =>
      cases valid : report.isValid with
      | true =>
        simp only [verify, on, first, valid]
        exact ⟨.valid report valid, by simpa using told⟩
      | false =>
        cases active : tools.activeHealer? with
        | none =>
          simp only [verify, on, first, valid, active]
          exact ⟨.invalid report _, by simpa [Answered] using told⟩
        | some healer =>
          obtain ⟨enabled, held⟩ := tools.active_cases active
          cases healing : healer.heal content report.errors file.text s₁ with
          | mk result s₂ =>
          have mended : tools.Answered file (.healed content result) := ⟨healer, report.errors, s₁, held, by rw [healing]⟩
          cases result with
          | error e =>
            simp only [verify, on, first, valid, active, healing]
            exact ⟨.unhealed enabled report valid _ e _, by simpa [Answered] using And.intro told mended⟩
          | ok healed =>
            have last : tools.Answered file (.checked healed (tools.check file healed s₂).1) := ⟨s₂, rfl⟩
            simp only [verify, on, first, valid, active, healing]
            exact ⟨.again enabled report valid _ healed _, by simpa [Answered] using And.intro told (And.intro mended last)⟩

namespace Verified

variable {tools} {content : String} {v : Verification} {events : List Event}

theorem careful (h : tools.Verified content v events) : tools.Careful (calls events) := by
  cases h with
  | unchecked => exact tools.careful_nil
  | rejected r => exact tools.careful_check content _
  | valid report => exact tools.careful_check content _
  | invalid report w => exact tools.careful_check content _
  | unhealed enabled report invalid w e => exact careful_healing enabled invalid content _ [] (by simp) (by simp)
  | again enabled report invalid w healed verdict =>
    exact careful_healing enabled invalid content _ [.checked healed verdict] (by simp) (by simp [Event.isCheck])

/-- A text that is accepted has passed a check, unless none are made. -/
theorem passed (h : tools.Verified content v events) {accepted : String} (taken : v.accepted? = some accepted) :
    tools.Passed accepted events := by
  intro on
  cases h with
  | unchecked off => rw [off] at on; contradiction
  | rejected r => contradiction
  | valid report valid =>
    obtain rfl := Option.some.inj taken
    exact ⟨report, by simp, valid⟩
  | invalid report w => contradiction
  | unhealed => contradiction
  | again enabled report invalid w healed verdict =>
    -- Here it is the second check that counts.
    cases verdict with
    | error r => contradiction
    | ok second =>
      cases valid : second.isValid with
      | false => simp [Verification.ofSecond, valid, Verification.accepted?] at taken
      | true =>
        simp only [Verification.ofSecond, valid, if_true, Verification.accepted?, Option.some.injEq] at taken
        subst taken
        exact ⟨second, by simp, valid⟩

/-- Only a text that cannot be checked ends a verification early. -/
theorem rejects (h : tools.Verified content v events) {r : Markup.Rejection} (given : v = .rejected r) :
    ∃ text, .checked text (.error r) ∈ events := by
  cases h with
  | unchecked => contradiction
  | rejected r' => cases given; exact ⟨content, by simp⟩
  | valid => contradiction
  | invalid => contradiction
  | unhealed => contradiction
  | again enabled report invalid w healed verdict =>
    cases verdict with
    | error r' => cases given; exact ⟨healed, by simp⟩
    | ok second =>
      simp only [Verification.ofSecond] at given
      split at given <;> contradiction

/-- A text that is found good as it is has not been changed on the way. -/
theorem unchanged (h : tools.Verified content v events) {accepted : String} (given : v = .sound accepted) :
    accepted = content := by
  cases h with
  | unchecked => exact (Verification.sound.inj given).symm
  | rejected => contradiction
  | valid => exact (Verification.sound.inj given).symm
  | invalid => contradiction
  | unhealed => contradiction
  | again enabled report invalid w healed verdict =>
    cases verdict with
    | error r => contradiction
    | ok second =>
      simp only [Verification.ofSecond] at given
      split at given <;> contradiction

/-- A verification writes nothing and records nothing. -/
theorem quiet (h : tools.Verified content v events) :
    events.filterMap Event.write? = [] ∧ events.filterMap Event.attempt? = [] := by
  cases h <;> exact ⟨rfl, rfl⟩

end Verified

end Tools

end Remedy
