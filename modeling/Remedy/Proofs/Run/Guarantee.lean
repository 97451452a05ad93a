import Remedy.Proofs.Run.Records
import Remedy.Proofs.Run.Verification
import Remedy.Run.Apply

/-!
What a run over files promises, whatever the texts, the patches, the checks and the healers are like: nobody is asked more
often than allowed, a source gets a new text only where the outcome says so, and then one that has passed a check, all
other sources stay as they are, and every file leaves one record, in order.

Each file is followed up to the point where its record is made; there are just two ways to get there, with a text written
or without. The record is the same step for both, and a run is one such turn after another.
-/

namespace Remedy.Tools

variable (tools : Tools σ)

/-- The outcomes by which a file gets a new text: something was accepted, and this is no dry run. -/
def Overwrites (o : Outcome) : Prop := (o.status = .applied ∨ o.status = .healed) ∧ tools.config.patch.apply = true

/-! ### Up to the record -/

/-- Events on the way to a decision about a file: calls that are in order, and nothing written or recorded so far. -/
structure Asked (file : Path) (events : List Event) : Prop where
  careful : tools.Careful (Event.calls events)
  answered : ∀ e ∈ events, tools.Answered file e
  unwritten : events.filterMap Event.write? = []
  unrecorded : events.filterMap Event.attempt? = []

variable {tools} {file : Path} {events : List Event}

theorem asked_nil (tools : Tools σ) (file : Path) : tools.Asked file [] := ⟨tools.careful_nil, by simp, rfl, rfl⟩

theorem asked_verify (tools : Tools σ) (file : Path) (content : String) (s : σ) :
    tools.Asked file (tools.verify file content s).2.2 := by
  obtain ⟨way, answered⟩ := tools.verify_cases file content s
  exact ⟨way.careful, answered, way.quiet.1, way.quiet.2⟩

/-- What is no call needs no answer. -/
theorem answered_of_not_isCall {e : Event} (h : e.isCall = false) : tools.Answered file e := by
  cases e with
  | checked => contradiction
  | healed => contradiction
  | _ => trivial

/-- Events that are no calls may stand before and after. -/
theorem Asked.within (h : tools.Asked file events) (before after : List Event) (first : ∀ e ∈ before, e.isCall = false)
    (last : ∀ e ∈ after, e.isCall = false) :
    tools.Careful (Event.calls (before ++ events ++ after)) ∧ ∀ e ∈ before ++ events ++ after, tools.Answered file e := by
  constructor
  · have nothing {own : List Event} (quiet : ∀ e ∈ own, e.isCall = false) : Event.calls own = [] :=
      List.filter_eq_nil_iff.mpr fun e member => by rw [quiet e member]; exact Bool.false_ne_true
    rw [Event.calls_append, Event.calls_append, nothing first, nothing last, List.nil_append, List.append_nil]
    exact h.careful
  · intro e member
    rcases List.mem_append.mp member with member | member
    · rcases List.mem_append.mp member with member | member
      · exact answered_of_not_isCall (first e member)
      · exact h.answered e member
    · exact answered_of_not_isCall (last e member)

/-- So may warnings, which leave nothing written or recorded either. -/
theorem Asked.among (h : tools.Asked file events) (before after : List Warning) :
    tools.Asked file (before.map .warned ++ events ++ after.map .warned) := by
  obtain ⟨careful, answered⟩ := h.within (before.map .warned) (after.map .warned) (by simp) (by simp)
  exact ⟨careful, answered, by simp [Event.write?, h.unwritten], by simp [Event.attempt?, h.unrecorded]⟩

/-- All that is written comes after. -/
theorem Asked.writes (h : tools.Asked file events) (own : List Event) :
    (events ++ own).filterMap Event.write? = own.filterMap Event.write? := by
  rw [List.filterMap_append, h.unwritten, List.nil_append]

/-- All that is recorded comes after. -/
theorem Asked.records (h : tools.Asked file events) (own : List Event) :
    (events ++ own).filterMap Event.attempt? = own.filterMap Event.attempt? := by
  rw [List.filterMap_append, h.unrecorded, List.nil_append]

variable (tools) (file) in
/-- What has happened when the record of an outcome is made: the file has been left alone, or a text was written to it
that passed a check. -/
inductive Led (w : Workspace σ) : Outcome → Workspace σ → List Event → Prop
  | kept {o : Outcome} {w₀ : Workspace σ} {events : List Event} (named : o.file = file) (stays : ¬ tools.Overwrites o)
      (same : w₀.tree = w.tree) (asked : tools.Asked file events) : Led w o w₀ events
  | written {o : Outcome} {w₀ : Workspace σ} {events : List Event} {before content : String} (named : o.file = file)
      (overwrites : tools.Overwrites o) (source : (Patch.Dialect.of? file).isSome)
      (read : w.tree.readText file = .ok before)
      (tree : w₀.tree = w.tree.put (w.tree.home.resolve file) ⟨Text.encode content.toList, w.clock⟩)
      (asked : tools.Asked file events) (passed : tools.Passed content events) :
      Led w o w₀ (events ++ [.wrote file content])

variable (tools) (file) in
/-- An outcome of a turn of the file is about to be recorded. -/
def Leads (fixes : List Fix) (w : Workspace σ) (turn : Progress σ Outcome) : Prop :=
  ∃ o w₀ led, tools.Led file w o w₀ led ∧ turn = tools.conclude o fixes w₀ led

variable (tools) (file) in
/-- A turn of the file is given up at a text that cannot be checked, before anything is written. -/
def Ends (w : Workspace σ) (turn : Progress σ Outcome) : Prop :=
  ∃ r w₀ events, turn = (.error r, w₀, events) ∧ w₀.tree = w.tree ∧ tools.Asked file events ∧
    ∃ content, (tools.verify file content w.healing).1 = .rejected r

variable {w w' : Workspace σ} {fixes : List Fix} {errors : List String} {before content : String}

theorem Led.leads {o : Outcome} (h : tools.Led file w o w' events) :
    tools.Leads file fixes w (tools.conclude o fixes w' events) := ⟨o, w', events, h, rfl⟩

/-- A file is left alone with a status that is not one of acceptance. -/
theorem led_kept {status : Status} (h : status ≠ .applied ∧ status ≠ .healed) (same : w'.tree = w.tree)
    (asked : tools.Asked file events) :
    tools.Led file w (.kept file status fixes errors) w' events := by
  refine .kept rfl ?_ same asked
  rintro ⟨accepted, _⟩
  exact accepted.elim h.1 h.2

/-- An accepted text is written, unless this is a dry run. -/
theorem accept_leads {o : Outcome} (named : o.file = file) (accepted : o.status = .applied ∨ o.status = .healed)
    (source : (Patch.Dialect.of? file).isSome) (read : w.tree.readText file = .ok before) (asked : tools.Asked file events)
    (passed : tools.Passed content events) (tree : w'.tree = w.tree) (clock : w'.clock = w.clock) :
    tools.Leads file fixes w (tools.accept o fixes before content w' events) := by
  subst named
  cases apply : tools.config.patch.apply with
  | true =>
    simp only [accept, apply, if_true]
    apply Led.leads
    refine .written rfl ⟨accepted, apply⟩ source read ?_ asked passed
    -- The file has been read, so it is a file that stands there, and the text is put in its place.
    rw [Workspace.writeSource, Workspace.putTree, tree, clock]
    exact FileTree.writeText_of_readText read content w.clock
  | false =>
    simp only [accept, apply, Bool.false_eq_true, if_false]
    apply Led.leads
    refine .kept rfl ?_ tree asked
    rintro ⟨_, on⟩
    exact Bool.false_ne_true (apply.symm.trans on)

theorem settle_cases (source : (Patch.Dialect.of? file).isSome) (read : w.tree.readText file = .ok before)
    (notices : List Warning) :
    tools.Leads file fixes w (tools.settle file fixes before content w (notices.map .warned)) ∨
      tools.Ends file w (tools.settle file fixes before content w (notices.map .warned)) := by
  have asked := tools.asked_verify file content w.healing
  have way := (tools.verify_cases file content w.healing).1
  -- From here on it only matters what the verification came to.
  rw [settle]
  generalize equal : tools.verify file content w.healing = verified at asked way
  obtain ⟨verification, healing, seen⟩ := verified
  have around := asked.among notices []
  rw [List.map_nil, List.append_nil] at around
  have passed {accepted : String} (taken : verification.accepted? = some accepted) :
      tools.Passed accepted (notices.map .warned ++ seen) :=
    (way.passed taken).mono (List.subset_append_right _ _)
  cases verification with
  | rejected r => exact Or.inr ⟨r, _, _, rfl, rfl, around, content, by rw [equal]⟩
  | refused errors =>
    left
    apply Led.leads
    exact led_kept (by decide) rfl (asked.among notices [.discarded file errors])
  | sound accepted =>
    exact Or.inl (accept_leads rfl (Or.inl rfl) source read around (passed rfl) rfl rfl)
  | mended accepted errors =>
    exact Or.inl (accept_leads rfl (Or.inr rfl) source read around (passed rfl) rfl rfl)

/-- Every way through a file leads to a record, or ends at a text that cannot be checked. -/
theorem applyFile_cases (file : Path) (fixes : List Fix) (w : Workspace σ) :
    tools.Leads file fixes w (tools.applyFile file fixes w) ∨ tools.Ends file w (tools.applyFile file fixes w) := by
  -- What ends a turn early leaves the file as it was, with some warnings.
  have early (status : Status) (h : status ≠ .applied ∧ status ≠ .healed) (errors : List String) (warnings : List Warning) :
      tools.Leads file fixes w (tools.conclude (.kept file status fixes errors) fixes w (warnings.map .warned)) := by
    have asked := (tools.asked_nil file).among warnings []
    rw [List.map_nil, List.append_nil, List.append_nil] at asked
    exact (led_kept h rfl asked).leads
  unfold applyFile
  cases kind : Patch.Dialect.of? file with
  | none => exact Or.inl (early .unsupported (by decide) [] [.unsupported file])
  | some dialect =>
  cases read : w.tree.readText file with
  | error e => exact Or.inl (early .missing (by decide) [e.message] [.unreadable file e])
  | ok before =>
  -- From here on the notices of the patch come first among the warnings.
  have notices : ((tools.patch dialect before fixes).notices.map fun n => Event.warned (.fix n)) =
      ((tools.patch dialect before fixes).notices.map .fix).map .warned := by
    rw [List.map_map]
    rfl
  simp only [notices]
  cases (tools.patch dialect before fixes).text with
  | error e =>
    have unpatched := early .unchanged (by decide) []
      ((tools.patch dialect before fixes).notices.map .fix ++ [.unpatched file e])
    rw [List.map_append] at unpatched
    exact Or.inl unpatched
  | ok content =>
    simp only
    split
    · exact Or.inl (early .unchanged (by decide) [] _)
    · exact settle_cases (by rw [kind]; rfl) read _

variable (tools) in
/-- What a turn keeps to: from a workspace `w` to `w'`, with an outcome and all that happened. -/
structure Guarded (file : Path) (w : Workspace σ) (o : Outcome) (w' : Workspace σ) (events : List Event) : Prop where
  named : o.file = file
  home : w'.tree.home = w.tree.home
  careful : tools.Careful (Event.calls events)
  answered : ∀ e ∈ events, tools.Answered file e
  /-- A source that was there has the text that was written, which passed a check unless there are none. -/
  written : tools.Overwrites o → ∃ content, events.filterMap Event.write? = [(file, content)] ∧
    (Patch.Dialect.of? file).isSome ∧ (w.tree.file? (w.tree.home.resolve file)).isSome ∧
    w'.tree.file? (w.tree.home.resolve file) = some ⟨Text.encode content.toList, w.clock⟩ ∧ tools.Passed content events
  /-- Otherwise the turn leaves no trace but its record. -/
  unwritten : ¬ tools.Overwrites o → events.filterMap Event.write? = [] ∧
    ∀ q, ¬ tools.IsRecord w.tree.home q → w'.tree.file? q = w.tree.file? q
  elsewhere : ∀ q, q ≠ w.tree.home.resolve file → ¬ tools.IsRecord w.tree.home q → w'.tree.file? q = w.tree.file? q
  record : ∃ a, events.filterMap Event.attempt? = [a] ∧ a.file = o.file.text ∧ a.status = o.status.name ∧
    tools.logged w' = tools.logged w ++ Text.encode (AttemptLog.line a).toList

/-- Making the record adds to what led to it, and takes nothing away. -/
theorem Led.guarded {o : Outcome} (h : tools.Led file w o w' events) (fixes : List Fix) :
    tools.Guarded file w o (tools.record o fixes w').1 (events ++ (tools.record o fixes w').2) := by
  obtain ⟨a, made, names, tells, log, home, frame⟩ := tools.record_spec w' o fixes
  generalize tools.record o fixes w' = next at made log home frame ⊢
  rw [made]
  -- Either way the log was as before when the record was made: a source never stands in its place.
  cases h with
  | kept named stays same asked =>
    have calm : tools.logged w' = tools.logged w := tools.logged_congr (by rw [same]) (by rw [same])
    obtain ⟨careful, answered⟩ := asked.within [] [.recorded a] (by simp) (by simp)
    rw [same] at home frame
    exact
      { named, home, careful, answered
        written := fun overwrites => absurd overwrites stays
        unwritten := fun _ => ⟨asked.writes [.recorded a], frame⟩
        elsewhere := fun q _ free => frame q free
        record := ⟨a, asked.records [.recorded a], names, tells, by rw [log, calm]⟩ }
  | @written events before content named overwrites source read tree asked passed =>
    obtain ⟨_, f, found, _⟩ := FileTree.place_of_readText read
    have plain := tools.not_isRecord_of_source w.tree.home source
    have apart : w'.tree.file? (tools.logPlace w.tree.home) = w.tree.file? (tools.logPlace w.tree.home) := by
      rw [tree, FileTree.file?_put, if_neg]
      intro same
      exact plain (Or.inl same.symm)
    have calm : tools.logged w' = tools.logged w := tools.logged_congr (by rw [tree, FileTree.home_put]) apart
    obtain ⟨careful, answered⟩ := asked.within [] [.wrote file content, .recorded a] (by simp) (by simp)
    rw [List.append_assoc]
    rw [tree, FileTree.home_put] at home
    simp only [tree, FileTree.home_put, FileTree.file?_put] at frame
    exact
      { named, home, careful, answered
        written := fun _ => ⟨content, asked.writes [.wrote file content, .recorded a], source, by rw [found]; rfl,
          by rw [frame _ plain, if_pos rfl], passed.mono (List.subset_append_left _ _)⟩
        unwritten := fun stays => absurd overwrites stays
        elsewhere := fun q other free => by rw [frame q free, if_neg other]
        record := ⟨a, asked.records [.wrote file content, .recorded a], names, tells, by rw [log, calm]⟩ }

variable (tools) in
/-- Files gone through one after the other. -/
inductive Turns : List (Path × List Fix) → Workspace σ → List Outcome → Workspace σ → List Event → Prop
  | nil (w : Workspace σ) : Turns [] w [] w []
  | cons {file : Path} {fixes : List Fix} {jobs : List (Path × List Fix)} {w w₁ w' : Workspace σ} {o : Outcome}
      {outcomes : List Outcome} {events more : List Event} (turn : tools.applyFile file fixes w = (.ok o, w₁, events))
      (guarded : tools.Guarded file w o w₁ events) (rest : Turns jobs w₁ outcomes w' more) :
      Turns ((file, fixes) :: jobs) w (o :: outcomes) w' (events ++ more)

namespace Turns

variable {jobs : List (Path × List Fix)} {outcomes : List Outcome}

theorem files (h : tools.Turns jobs w outcomes w' events) : outcomes.map (·.file) = jobs.map (·.1) := by
  induction h with
  | nil w => rfl
  | cons turn guarded rest ih => rw [List.map_cons, List.map_cons, ih, guarded.named]

/-- One record is made of each outcome, in order. -/
theorem recorded (h : tools.Turns jobs w outcomes w' events) :
    (events.filterMap Event.attempt?).map (fun a => (a.file, a.status)) =
      outcomes.map fun o => (o.file.text, o.status.name) := by
  induction h with
  | nil w => rfl
  | cons turn guarded rest ih =>
    obtain ⟨a, one, names, tells, _⟩ := guarded.record
    rw [List.filterMap_append, one, List.map_append, ih, List.map_cons, List.map_cons, names, tells]
    rfl

/-- The log grows by the lines of these records. -/
theorem logged (h : tools.Turns jobs w outcomes w' events) :
    tools.logged w' = tools.logged w ++
      (events.filterMap Event.attempt?).flatMap fun a => Text.encode (AttemptLog.line a).toList := by
  induction h with
  | nil w => simp
  | cons turn guarded rest ih =>
    obtain ⟨a, one, _, _, log⟩ := guarded.record
    rw [ih, log, List.filterMap_append, one, List.singleton_append, List.flatMap_cons, List.append_assoc]

/-- A place that no outcome overwrites stays as it is, unless it is one of records. -/
theorem untouched (h : tools.Turns jobs w outcomes w' events) {q : Path} (other : ¬ tools.IsRecord w.tree.home q)
    (free : ∀ o ∈ outcomes, tools.Overwrites o → w.tree.home.resolve o.file ≠ q) :
    w'.tree.file? q = w.tree.file? q := by
  induction h with
  | nil w => rfl
  | @cons file fixes jobs w w₁ w' o outcomes events more turn guarded rest ih =>
    rw [guarded.home] at ih
    -- The rest of the run leaves the place alone, so it is up to the first turn.
    rw [ih other fun o' member => free o' (List.mem_cons_of_mem _ member)]
    by_cases overwrites : tools.Overwrites o
    · apply guarded.elsewhere q _ other
      rw [← guarded.named]
      exact (free o List.mem_cons_self overwrites).symm
    · exact (guarded.unwritten overwrites).2 q other

end Turns

/-- Tools whose first check fails, and whose healer helps. -/
def mending : Tools Nat where
  config := {}
  patch := fun _ text _ => ⟨.ok (text ++ "!"), []⟩
  check := fun _ _ asked => (.ok ⟨asked != 0, ["broken"]⟩, asked + 1)
  healer := some { provider := fun _ => "mender", answer := fun _ asked => (.ok "better", asked) }
  stamp := fun _ => "now"

/-- A workspace with one page in it. -/
def desk : Workspace Nat where
  tree := ⟨⟨"/", ["desk"]⟩, [(⟨"/", ["desk", "page.html"]⟩, ⟨Text.encode ['x'], 0⟩)], [⟨"/", []⟩, ⟨"/", ["desk"]⟩]⟩
  cache := []
  healing := 0
  clock := 1
  records := 0

end Remedy.Tools
