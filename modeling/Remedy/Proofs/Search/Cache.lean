import Remedy.Proofs.Files.Lookup
import Remedy.Search.Basic

/-!
What is kept of files is never noticed. A file gives the same candidates whether it is read or remembered, as long as two
versions of one file that have the same time also say the same; so a search that keeps candidates answers as one that keeps
none, through any history of files that are written and deleted between the questions.

What a search adds to the cache is said once, in `mem_candidates`. That the cache is true of the files as they are, and that
each of its entries was true of some version, both follow from there.
-/

namespace Remedy

/-- The candidates of a file as it stands; none if it cannot be read as text, or if no way is known to find any. -/
def Candidate.ofFile (file : Path) (f : File) : List Candidate :=
  match FileTree.textOf f with
  | .error _ => []
  | .ok source =>
    match extract source file.text with
    | .ok found => found
    | .error _ => []

/-- The candidates of what stands at a path; none if there is no file. -/
def FileTree.candidatesAt (t : FileTree) (file : Path) : List Candidate :=
  match t.read file with
  | .ok f => Candidate.ofFile file f
  | .error _ => []

/-- The best of some candidates. -/
def Signature.bestMatch (s : Signature) (cs : List Candidate) : Option Match :=
  (s.rank cs).head?.map fun (score, candidate) => (⟨Path.ofString candidate.file, score, candidate⟩ : Match)

/-- What is kept of a file is what it gives, if it was kept of the file as it is now. -/
def CandidateCache.TrueOf (cache : CandidateCache) (t : FileTree) : Prop :=
  ∀ file seen, (file, seen) ∈ cache → ∀ f, t.read file = .ok f → f.time = seen.time →
    seen.candidates = Candidate.ofFile file f

theorem CandidateCache.trueOf_nil (t : FileTree) : CandidateCache.TrueOf [] t := by
  intro file seen member
  cases member

namespace SearchConfig

variable (c : SearchConfig) {t : FileTree} {cache : CandidateCache}

/-! ### One file -/

theorem mem_keep {file p : Path} {seen kept : Seen} (h : (p, kept) ∈ c.keep cache file seen) :
    (p, kept) ∈ cache ∨ (p, kept) = (file, seen) := by
  rw [keep] at h
  split at h
  · rcases List.mem_cons.mp h with new | old
    · exact Or.inr new
    · exact Or.inl (List.mem_filter.mp old).1
  · exact Or.inl h

theorem mem_of_remembered? {file : Path} {time : Nat} {found : List Candidate}
    (h : c.remembered? cache file time = some found) : (file, ⟨time, found⟩) ∈ cache := by
  rw [remembered?] at h
  split at h
  next seen kept =>
    simp only [Option.ite_none_right_eq_some, Bool.and_eq_true, beq_iff_eq, Option.some.injEq] at h
    obtain ⟨⟨-, rfl⟩, rfl⟩ := h
    obtain ⟨before, after, entry, -⟩ := List.lookup_eq_some_iff.mp kept
    rw [entry]
    exact List.mem_append_right before List.mem_cons_self
  next => cases h

/-- What is kept after a file has been looked at was kept before, or is what the file gives. -/
theorem mem_candidates {file p : Path} {seen : Seen} (h : (p, seen) ∈ (c.candidates t cache file).2.1) :
    (p, seen) ∈ cache ∨ ∃ f, t.read p = .ok f ∧ seen = ⟨f.time, Candidate.ofFile p f⟩ := by
  rw [candidates] at h
  cases read : t.read file with
  | error e => exact Or.inl (by simpa only [read] using h)
  | ok f =>
    simp only [read] at h
    cases held : c.remembered? cache file f.time with
    | some found => exact Or.inl (by simpa only [held] using h)
    | none =>
      simp only [held] at h
      cases text : FileTree.textOf f with
      | error e => exact Or.inl (by simpa only [text] using h)
      | ok source =>
        simp only [text] at h
        -- Both ways to go on keep what the file gives, be it nothing.
        cases extracted : Candidate.extract source file.text with
        | ok found =>
          simp only [extracted] at h
          refine (c.mem_keep h).imp id fun new => ?_
          obtain ⟨rfl, rfl⟩ := Prod.mk.inj new
          exact ⟨f, read, by simp only [Candidate.ofFile, text, extracted]⟩
        | error e =>
          simp only [extracted] at h
          refine (c.mem_keep h).imp id fun new => ?_
          obtain ⟨rfl, rfl⟩ := Prod.mk.inj new
          exact ⟨f, read, by simp only [Candidate.ofFile, text, extracted]⟩

theorem candidates_eq (h : cache.TrueOf t) (file : Path) : (c.candidates t cache file).1 = t.candidatesAt file := by
  rw [candidates, FileTree.candidatesAt]
  cases read : t.read file with
  | error e => rfl
  | ok f =>
    simp only
    cases held : c.remembered? cache file f.time with
    | some found => exact h file _ (c.mem_of_remembered? held) f read rfl
    | none =>
      simp only [Candidate.ofFile]
      cases FileTree.textOf f with
      | error e => rfl
      | ok source =>
        simp only
        cases Candidate.extract source file.text with
        | ok found => rfl
        | error e => rfl

theorem trueOf_candidates (h : cache.TrueOf t) (file : Path) : (c.candidates t cache file).2.1.TrueOf t := by
  intro p seen member f read time
  rcases c.mem_candidates member with old | ⟨g, read', rfl⟩
  · exact h p seen old f read time
  · rw [read, Except.ok.injEq] at read'
    rw [read']

/-! ### All files -/

theorem mem_candidatesOfAll {files : List Path} {p : Path} {seen : Seen}
    (h : (p, seen) ∈ (c.candidatesOfAll t cache files).2.1) :
    (p, seen) ∈ cache ∨ ∃ f, t.read p = .ok f ∧ seen = ⟨f.time, Candidate.ofFile p f⟩ := by
  induction files generalizing cache with
  | nil => exact Or.inl h
  | cons file rest ih =>
    rcases ih h with old | new
    · exact c.mem_candidates old
    · exact Or.inr new

theorem candidatesOfAll_eq (h : cache.TrueOf t) (files : List Path) :
    (c.candidatesOfAll t cache files).1 = files.flatMap t.candidatesAt := by
  induction files generalizing cache with
  | nil => rfl
  | cons file rest ih =>
    have first := c.candidates_eq h file
    have others := ih (c.trueOf_candidates h file)
    rw [candidatesOfAll, List.flatMap_cons, ← first, ← others]

/-- The best candidate below a directory, if all files are read. -/
def best (t : FileTree) (s : Signature) (directory : Path) : Option Match :=
  s.bestMatch ((c.files t directory).flatMap t.candidatesAt)

theorem find_eq (h : cache.TrueOf t) (s : Signature) (directory : Path) :
    (c.find t cache s directory).1 = c.best t s directory := by
  rw [find, best, Signature.bestMatch, ← c.candidatesOfAll_eq h]

end SearchConfig

/-! ### Histories -/

/-- What happens to files, and what is asked between that. -/
inductive SearchStep where
  | write (place : Path) (f : File)
  | delete (path : Path)
  | find (s : Signature) (directory : Path)
  | candidates (file : Path)

inductive SearchAnswer where
  | done
  | found (m : Option Match)
  | listed (cs : List Candidate)

/-- The files after a step. A file that is not there cannot be deleted. -/
def SearchStep.tree (t : FileTree) : SearchStep → FileTree
  | .write place f => t.put place f
  | .delete path =>
    match t.delete path with
    | .ok t' => t'
    | .error _ => t
  | .find _ _ => t
  | .candidates _ => t

/-- All states of the files, from the first to the last. -/
def SearchStep.trees (t : FileTree) : List SearchStep → List FileTree
  | [] => [t]
  | step :: rest => t :: trees (step.tree t) rest

/-- Two versions of one file that have the same time say the same. -/
def TimesTell (trees : List FileTree) : Prop :=
  ∀ t ∈ trees, ∀ u ∈ trees, ∀ p f g, t.file? p = some f → u.file? p = some g → f.time = g.time → f.bytes = g.bytes

namespace SearchConfig

variable (c : SearchConfig)

/-- The answer to a step, and what is kept from then on. -/
def answer (t : FileTree) (cache : CandidateCache) : SearchStep → SearchAnswer × CandidateCache
  | .write _ _ => (.done, cache)
  | .delete _ => (.done, cache)
  | .find s directory =>
    let (found, cache, _) := c.find t cache s directory
    (.found found, cache)
  | .candidates file =>
    let (listed, cache, _) := c.candidates t cache file
    (.listed listed, cache)

/-- The answers to steps, one after the other. -/
def answers (t : FileTree) (cache : CandidateCache) : List SearchStep → List SearchAnswer
  | [] => []
  | step :: rest =>
    let (answer, cache) := c.answer t cache step
    answer :: answers (step.tree t) cache rest

/-- The answer to a step if all files are read. -/
def plainAnswer (t : FileTree) : SearchStep → SearchAnswer
  | .write _ _ => .done
  | .delete _ => .done
  | .find s directory => .found (c.best t s directory)
  | .candidates file => .listed (t.candidatesAt file)

def plainAnswers (t : FileTree) : List SearchStep → List SearchAnswer
  | [] => []
  | step :: rest => c.plainAnswer t step :: plainAnswers (step.tree t) rest

end SearchConfig

/-! ### What was once there -/

/-- Everything that is kept of files was found in one of some states of them. -/
def CandidateCache.DrawnFrom (cache : CandidateCache) (trees : List FileTree) : Prop :=
  ∀ file seen, (file, seen) ∈ cache →
    ∃ t ∈ trees, ∃ f, t.read file = .ok f ∧ seen = ⟨f.time, Candidate.ofFile file f⟩

theorem SearchStep.home_tree (t : FileTree) (step : SearchStep) : (step.tree t).home = t.home := by
  cases step with
  | write place f => rfl
  | delete path =>
    rw [tree]
    cases deleted : t.delete path with
    | ok u => rw [FileTree.delete_eq deleted]
    | error e => rfl
  | find s directory => rfl
  | candidates file => rfl

theorem SearchStep.home_of_mem_trees {t u : FileTree} {steps : List SearchStep} (h : u ∈ trees t steps) :
    u.home = t.home := by
  induction steps generalizing t with
  | nil => rw [List.mem_singleton.mp h]
  | cons step rest ih =>
    rcases List.mem_cons.mp h with rfl | later
    · rfl
    · rw [ih later, home_tree]

theorem SearchStep.mem_trees (t : FileTree) (steps : List SearchStep) : t ∈ trees t steps := by
  cases steps with
  | nil => exact List.mem_cons_self
  | cons step rest => exact List.mem_cons_self

/-- A version with the time of the one that was looked at gives what was found in that. -/
theorem CandidateCache.DrawnFrom.trueOf {cache : CandidateCache} {trees : List FileTree} (h : cache.DrawnFrom trees)
    (times : TimesTell trees) (home : ∀ u ∈ trees, ∀ v ∈ trees, u.home = v.home) {t : FileTree} (now : t ∈ trees) :
    cache.TrueOf t := by
  intro file seen kept f read time
  obtain ⟨u, once, g, read', rfl⟩ := h file seen kept
  have here := (FileTree.place_of_read read).2
  have there := (FileTree.place_of_read read').2
  rw [home u once t now] at there
  have bytes := times t now u once _ f g here there time
  obtain ⟨_, _⟩ := f
  obtain ⟨_, _⟩ := g
  obtain rfl := bytes
  obtain rfl := time
  rfl

namespace SearchConfig

variable (c : SearchConfig) {t : FileTree} {cache : CandidateCache} {trees : List FileTree}

theorem drawnFrom_answer (h : cache.DrawnFrom trees) (now : t ∈ trees) (step : SearchStep) :
    (c.answer t cache step).2.DrawnFrom trees := by
  cases step with
  | write place f => exact h
  | delete path => exact h
  | find s directory =>
    intro p seen kept
    rcases c.mem_candidatesOfAll kept with old | new
    · exact h p seen old
    · exact ⟨t, now, new⟩
  | candidates file =>
    intro p seen kept
    rcases c.mem_candidates kept with old | new
    · exact h p seen old
    · exact ⟨t, now, new⟩

theorem answer_eq (h : cache.TrueOf t) (step : SearchStep) : (c.answer t cache step).1 = c.plainAnswer t step := by
  cases step with
  | write place f => rfl
  | delete path => rfl
  | find s directory => exact congrArg SearchAnswer.found (c.find_eq h s directory)
  | candidates file => exact congrArg SearchAnswer.listed (c.candidates_eq h file)

/-- A search that starts with what earlier states gave answers as if it read all files. -/
theorem answers_eq (times : TimesTell trees) (home : ∀ u ∈ trees, ∀ v ∈ trees, u.home = v.home)
    (h : cache.DrawnFrom trees) {steps : List SearchStep} (among : SearchStep.trees t steps ⊆ trees) :
    c.answers t cache steps = c.plainAnswers t steps := by
  induction steps generalizing t cache with
  | nil => rfl
  | cons step rest ih =>
    have now := among (SearchStep.mem_trees t (step :: rest))
    have later : SearchStep.trees (step.tree t) rest ⊆ trees := fun u member => among (List.mem_cons_of_mem t member)
    -- What is kept comes from one of the states, so it is true of this one, and what this step adds comes from this one.
    rw [answers, plainAnswers, ← c.answer_eq (h.trueOf times home now) step,
      ← ih (c.drawnFrom_answer h now step) later]

/-- Keeping candidates makes no difference to any answer, whatever happens to the files. -/
theorem cache_transparent (t : FileTree) (steps : List SearchStep) (times : TimesTell (SearchStep.trees t steps)) :
    answers { c with cacheCandidates := true } t [] steps = answers { c with cacheCandidates := false } t [] steps := by
  have home : ∀ u ∈ SearchStep.trees t steps, ∀ v ∈ SearchStep.trees t steps, u.home = v.home :=
    fun u hu v hv => (SearchStep.home_of_mem_trees hu).trans (SearchStep.home_of_mem_trees hv).symm
  have plain (d : SearchConfig) : d.answers t [] steps = d.plainAnswers t steps :=
    d.answers_eq times home (fun file seen kept => absurd kept List.not_mem_nil) (List.Subset.refl _)
  -- Which files are searched does not depend on what is kept of them.
  have same : plainAnswers { c with cacheCandidates := true } t steps =
      plainAnswers { c with cacheCandidates := false } t steps := by
    clear times home plain
    induction steps generalizing t with
    | nil => rfl
    | cons step rest ih =>
      rw [plainAnswers, plainAnswers, ih]
      cases step <;> rfl
  rw [plain, plain, same]

end SearchConfig

theorem timesTell_of_entries {trees : List FileTree}
    (h : ∀ t ∈ trees, ∀ u ∈ trees, ∀ entry ∈ t.files, ∀ other ∈ u.files,
      entry.1 = other.1 → entry.2.time = other.2.time → entry.2.bytes = other.2.bytes) : TimesTell trees := by
  intro t ht u hu p f g here there time
  obtain ⟨before, after, entry, -⟩ := List.lookup_eq_some_iff.mp here
  obtain ⟨before', after', entry', -⟩ := List.lookup_eq_some_iff.mp there
  exact h t ht u hu (p, f) (entry ▸ List.mem_append_right before List.mem_cons_self) (p, g)
    (entry' ▸ List.mem_append_right before' List.mem_cons_self) rfl time

/-- A page that is written, changed, taken away and put back, and looked for all the while. -/
def pageHistory : List SearchStep :=
  let page : Path := ⟨"/", ["w", "page.html"]⟩
  let root : Path := ⟨"/", ["w"]⟩
  let image : Signature := ⟨"img", none, [], [], [], none⟩
  let old : File := ⟨Text.encode "<p>a</p>".toList, 1⟩
  [.find image root, .write page old, .find image root, .write page ⟨Text.encode "<img>".toList, 2⟩, .candidates page,
    .find image root, .delete page, .find image root, .candidates page, .write page old, .find image root]

theorem page_history_transparent :
    let t := FileTree.empty ⟨"/", ["w"]⟩
    TimesTell (SearchStep.trees t pageHistory) ∧
      SearchConfig.answers { cacheCandidates := true } t [] pageHistory =
        SearchConfig.answers { cacheCandidates := false } t [] pageHistory := by
  intro t
  have times : TimesTell (SearchStep.trees t pageHistory) := timesTell_of_entries (by decide +kernel)
  exact ⟨times, SearchConfig.cache_transparent {} t pageHistory times⟩

end Remedy
