import Remedy.Proofs.Files.Lookup
import Remedy.Proofs.Path.Resolve
import Remedy.Run.Outcome

/-!
Where records are kept, and what making one changes: the log of attempts grows by a line, a difference may be written
beside it, and nothing else is touched. By their endings these places are told apart from each other and from every
source.
-/

namespace Remedy

/-! ### Names -/

namespace Artifact

theorem mem_safeFrom {c : Char} (gap : Bool) (cs : List Char) (h : c ∈ safeFrom gap cs) : isSafe c = true ∨ c = '_' := by
  induction cs generalizing gap with
  | nil => simp [safeFrom] at h
  | cons d rest ih =>
    rw [safeFrom] at h
    split at h
    next safe =>
      rcases List.mem_cons.mp h with rfl | h
      · exact Or.inl safe
      · exact ih _ h
    next =>
      split at h
      · exact ih _ h
      · rcases List.mem_cons.mp h with rfl | h
        · exact Or.inr rfl
        · exact ih _ h

theorem slug_plain (name : String) : '/' ∉ (slug name).toList := by
  intro slash
  rw [slug] at slash
  split at slash
  · exact absurd slash (by decide)
  · rw [String.toList_ofList, List.mem_reverse] at slash
    have kept := (List.dropWhile_suffix _).subset slash
    rw [List.mem_reverse] at kept
    rcases mem_safeFrom _ _ ((List.dropWhile_suffix _).subset kept) with safe | underscore
    · exact absurd safe (by decide)
    · exact absurd underscore (by decide)

theorem suffix_patchPath (root : Path) (stamp name : String) : (patchPath root stamp name).suffix = ".diff" := by
  have spelled : s!"{stamp}_{slug name}.diff" =
      String.ofList (stamp.toList ++ ('_' :: (slug name).toList ++ ['.', 'd', 'i', 'f', 'f'])) := by
    apply String.toList_inj.mp
    simp [toString]
  have plain : '/' ∉ '_' :: (slug name).toList ++ ['.', 'd', 'i', 'f', 'f'] := by
    simp [slug_plain]
  obtain ⟨front, last, names⟩ := Path.name_ofString (s := stamp.toList) plain (by simp)
  have ending : (Path.ofString s!"{stamp}_{slug name}.diff").suffix = ".diff" := by
    rw [Path.suffix, spelled, last, String.toList_ofList, ← List.append_assoc,
      Path.nameSuffix_append (by simp) (by simp) (by decide)]
  rw [patchPath, Path.suffix_join _ (by rw [ending]; decide), ending]

end Artifact

theorem AttemptLog.suffix_path (root : Path) : (path root).suffix = ".jsonl" := by
  rw [Path.suffix, path, Path.child, Path.name, List.getLastD_concat]
  decide

/-! ### Places -/

namespace Tools

/-- Where the log of attempts stands, seen from a working directory. -/
def logPlace (tools : Tools σ) (home : Path) : Path := home.resolve (AttemptLog.path tools.root)

/-- Where a difference may stand. -/
def diffPlace (tools : Tools σ) (home : Path) (number : Nat) (name : String) : Path :=
  home.resolve (Artifact.patchPath tools.root (tools.stamp number) name)

/-- The places of records: that of the log of attempts, and those of differences. -/
def IsRecord (tools : Tools σ) (home place : Path) : Prop :=
  place = tools.logPlace home ∨ ∃ number name, place = tools.diffPlace home number name

variable (tools : Tools σ) (home : Path)

theorem suffix_logPlace : (tools.logPlace home).suffix = ".jsonl" := by
  rw [logPlace, Path.suffix_resolve _ (by rw [AttemptLog.suffix_path]; decide), AttemptLog.suffix_path]

theorem suffix_diffPlace (number : Nat) (name : String) : (tools.diffPlace home number name).suffix = ".diff" := by
  rw [diffPlace, Path.suffix_resolve _ (by rw [Artifact.suffix_patchPath]; decide), Artifact.suffix_patchPath]

theorem logPlace_ne_diffPlace (number : Nat) (name : String) : tools.logPlace home ≠ tools.diffPlace home number name := by
  intro same
  have endings := congrArg Path.suffix same
  rw [suffix_logPlace, suffix_diffPlace] at endings
  exact absurd endings (by decide)

/-- No source that can be patched stands where a record does. -/
theorem not_isRecord_of_source {file : Path} (h : (Patch.Dialect.of? file).isSome) :
    ¬ tools.IsRecord home (home.resolve file) := by
  -- It is the endings that differ: those of records are none of a source.
  have known (ending : String) (unknown : Text.lower ending = ending)
      (other : ending ∉ [".html", ".jsx", ".tsx", ".vue"]) : file.suffix ≠ ending := by
    rintro rfl
    simp only [List.mem_cons, List.not_mem_nil, or_false, not_or] at other
    simp [Patch.Dialect.of?, Path.extension, unknown, other] at h
  have plain : file.suffix ≠ "" := known "" (by decide +kernel) (by decide)
  rintro (log | ⟨number, name, diff⟩)
  · have ending := congrArg Path.suffix log
    rw [suffix_logPlace, Path.suffix_resolve home plain] at ending
    exact known ".jsonl" (by decide +kernel) (by decide) ending
  · have ending := congrArg Path.suffix diff
    rw [suffix_diffPlace, Path.suffix_resolve home plain] at ending
    exact known ".diff" (by decide +kernel) (by decide) ending

/-! ### Making a record -/

/-- What is in the log of attempts. -/
def logged (tools : Tools σ) (w : Workspace σ) : Text.Bytes :=
  match w.tree.file? (tools.logPlace w.tree.home) with
  | some f => f.bytes
  | none => []

variable (w : Workspace σ)

theorem logged_congr {w w' : Workspace σ} (home : w'.tree.home = w.tree.home)
    (same : w'.tree.file? (tools.logPlace w.tree.home) = w.tree.file? (tools.logPlace w.tree.home)) :
    tools.logged w' = tools.logged w := by
  rw [logged, logged, home, same]

/-- A difference is written to a place of its own, or not at all. -/
theorem recordDiff_cases (o : Outcome) :
    (tools.recordDiff o w).1 = w ∨
      ∃ name f, (tools.recordDiff o w).1.tree = w.tree.put (tools.diffPlace w.tree.home (w.records + 1) name) f := by
  rw [recordDiff]
  split
  · exact Or.inl rfl
  · exact Or.inr ⟨_, _, rfl⟩

theorem home_recordDiff (o : Outcome) : (tools.recordDiff o w).1.tree.home = w.tree.home := by
  rcases tools.recordDiff_cases w o with same | ⟨name, f, put⟩
  · rw [same]
  · rw [put, FileTree.home_put]

theorem file?_recordDiff (o : Outcome) {q : Path} (h : ∀ number name, q ≠ tools.diffPlace w.tree.home number name) :
    (tools.recordDiff o w).1.tree.file? q = w.tree.file? q := by
  rcases tools.recordDiff_cases w o with same | ⟨name, f, put⟩
  · rw [same]
  · rw [put, FileTree.file?_put, if_neg (h _ _)]

theorem home_logAttempt (a : Attempt) : (w.logAttempt tools.root a).tree.home = w.tree.home := rfl

theorem file?_logAttempt (a : Attempt) (q : Path) :
    (w.logAttempt tools.root a).tree.file? q =
      if q = tools.logPlace w.tree.home then some ⟨tools.logged w ++ Text.encode (AttemptLog.line a).toList, w.clock⟩
      else w.tree.file? q :=
  FileTree.file?_put ..

/-- One attempt is recorded. It tells the file and the status of the outcome, its line goes to the end of the log, and no
place but those of records changes. -/
theorem record_spec (o : Outcome) (fixes : List Fix) :
    ∃ a, (tools.record o fixes w).2 = [.recorded a] ∧ a.file = o.file.text ∧ a.status = o.status.name ∧
      tools.logged (tools.record o fixes w).1 = tools.logged w ++ Text.encode (AttemptLog.line a).toList ∧
      (tools.record o fixes w).1.tree.home = w.tree.home ∧
      ∀ q, ¬ tools.IsRecord w.tree.home q → (tools.record o fixes w).1.tree.file? q = w.tree.file? q := by
  have home := tools.home_recordDiff w o
  -- The difference has a place of its own, so the log is found as it was left.
  have log : tools.logged (tools.recordDiff o w).1 = tools.logged w :=
    tools.logged_congr home (tools.file?_recordDiff w o (tools.logPlace_ne_diffPlace w.tree.home))
  refine ⟨tools.attempt o fixes (tools.recordDiff o w).2 (tools.recordDiff o w).1.healing, rfl, rfl, rfl, ?_, home,
    fun q other => ?_⟩
  · rw [record, logged, home_logAttempt, file?_logAttempt, if_pos rfl, log]
  · rw [IsRecord, not_or, not_exists] at other
    rw [record, file?_logAttempt, home, if_neg other.1]
    apply file?_recordDiff
    intro number name same
    exact other.2 number ⟨name, same⟩

end Tools

end Remedy
