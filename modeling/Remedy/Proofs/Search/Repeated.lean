import Remedy.Proofs.Search.Cache

/-!
Searches one after the other. What a search keeps of files is what it found in them, so it makes no difference to any later
search of the same tree, even if what was kept before is no longer true of the files.
-/

namespace Remedy

/-- Two caches make no difference to what is found in any file of a tree. -/
def CandidateCache.SameFor (c : SearchConfig) (t : FileTree) (cache other : CandidateCache) : Prop :=
  ∀ file, (c.candidates t cache file).1 = (c.candidates t other file).1

theorem CandidateCache.lookup_forget (cache : CandidateCache) {file p : Path} (h : p ≠ file) :
    List.lookup p (cache.filter fun (q, _) => q != file) = cache.lookup p := by
  induction cache with
  | nil => rfl
  | cons entry rest ih =>
    obtain ⟨q, kept⟩ := entry
    by_cases same : q = file
    · rw [List.filter_cons, if_neg (by simpa using same), ih, List.lookup_cons, beq_false_of_ne (same ▸ h)]
    · rw [List.filter_cons, if_pos (by simpa using same), List.lookup_cons, List.lookup_cons, ih]

namespace SearchConfig

variable (c : SearchConfig) {t : FileTree} {cache : CandidateCache}

theorem remembered?_keep_ne {file p : Path} (seen : Seen) (time : Nat) (h : p ≠ file) :
    c.remembered? (c.keep cache file seen) p time = c.remembered? cache p time := by
  have elsewhere : (c.keep cache file seen).lookup p = cache.lookup p := by
    rw [keep]
    split
    · rw [List.lookup_cons, beq_false_of_ne h]
      exact cache.lookup_forget h
    · rfl
  rw [remembered?, remembered?, elsewhere]

/-- A file that is kept is remembered, if anything is. -/
theorem remembered?_keep_self (file : Path) (seen : Seen) (h : c.remembered? cache file seen.time = none) :
    c.remembered? (c.keep cache file seen) file seen.time =
      if c.cacheCandidates then some seen.candidates else none := by
  rw [keep]
  split
  next keeps => simp [remembered?, keeps]
  next => exact h

theorem candidates_congr {other : CandidateCache} {p : Path}
    (h : ∀ time, c.remembered? cache p time = c.remembered? other p time) :
    (c.candidates t cache p).1 = (c.candidates t other p).1 := by
  -- The cache is asked once only, for the time at which the file was written.
  rw [candidates, candidates]
  cases t.read p with
  | error e => rfl
  | ok f =>
    simp only [h]
    cases c.remembered? other p f.time with
    | some found => rfl
    | none =>
      simp only
      cases FileTree.textOf f with
      | error e => rfl
      | ok source =>
        simp only
        cases Candidate.extract source p.text with
        | ok found => rfl
        | error e => rfl

/-- Looking at a file makes no difference to what is found in any other, or in this one when it is looked at again. -/
theorem sameFor_candidates (file : Path) : CandidateCache.SameFor c t (c.candidates t cache file).2.1 cache := by
  intro p
  cases read : t.read file with
  | error e => simp only [candidates, read]
  | ok f =>
    cases held : c.remembered? cache file f.time with
    | some found => simp only [candidates, read, held]
    | none =>
      cases text : FileTree.textOf f with
      | error e => simp only [candidates, read, held, text]
      | ok source =>
        -- What is kept is what was found, be it nothing.
        have kept : (c.candidates t cache file).2.1 = c.keep cache file ⟨f.time, (c.candidates t cache file).1⟩ := by
          simp only [candidates, read, held, text]
          cases Candidate.extract source file.text <;> rfl
        rw [kept]
        -- Looked at again, the file is answered from the cache; all others are where they were.
        by_cases same : p = file
        · subst same
          have again := c.remembered?_keep_self p ⟨f.time, (c.candidates t cache p).1⟩ held
          simp only at again
          by_cases keeps : c.cacheCandidates = true
          · rw [if_pos keeps] at again
            generalize (c.candidates t cache p).1 = found at again
            simp only [candidates, read, again]
          · rw [keep, if_neg keeps]
        · exact c.candidates_congr fun time => c.remembered?_keep_ne _ time same

theorem sameFor_candidatesOfAll (files : List Path) :
    CandidateCache.SameFor c t (c.candidatesOfAll t cache files).2.1 cache := by
  induction files generalizing cache with
  | nil => exact fun _ => rfl
  | cons file rest ih =>
    intro p
    exact (ih p).trans (c.sameFor_candidates file p)

theorem candidatesOfAll_congr {other : CandidateCache} (h : CandidateCache.SameFor c t cache other) (files : List Path) :
    (c.candidatesOfAll t cache files).1 = (c.candidatesOfAll t other files).1 := by
  induction files generalizing cache other with
  | nil => rfl
  | cons file rest ih =>
    -- Both caches change with the first file, and still make no difference behind it.
    have onward : CandidateCache.SameFor c t (c.candidates t cache file).2.1 (c.candidates t other file).2.1 :=
      fun p => (c.sameFor_candidates file p).trans ((h p).trans (c.sameFor_candidates file p).symm)
    rw [candidatesOfAll, candidatesOfAll]
    simp only
    rw [h file, ih onward]

/-- A search that comes after another one finds what it would find first. -/
theorem find_after {other : CandidateCache} (h : CandidateCache.SameFor c t cache other) (s : Signature) (directory : Path) :
    (c.find t cache s directory).1 = (c.find t other s directory).1 := by
  rw [find, find]
  simp only
  rw [c.candidatesOfAll_congr h]

theorem sameFor_find (s : Signature) (directory : Path) :
    CandidateCache.SameFor c t (c.find t cache s directory).2.1 cache := c.sameFor_candidatesOfAll (c.files t directory)

end SearchConfig

end Remedy
