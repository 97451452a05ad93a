import Mathlib.Data.List.Basic
import Remedy.Proofs.Path.Canonical
import Remedy.Search.Basic

/-!
What a search finds stands in one of the files of the tree, and is said to stand there by the path that the tree keeps the
file by. What is kept of earlier searches names its file as well, and goes on doing so.
-/

namespace Remedy

/-- A tree that is kept by canonical paths, seen from a directory that is known from the root. -/
structure FileTree.Canonical (t : FileTree) : Prop where
  home : t.home.isAbsolute = true
  files : ∀ p f, (p, f) ∈ t.files → p.Canonical ∧ ∀ n ∈ p.names, Path.IsName n

/-- Candidates that are kept name the file that they are kept of. -/
def CandidateCache.Faithful (cache : CandidateCache) : Prop :=
  ∀ file seen, (file, seen) ∈ cache → ∀ c ∈ seen.candidates, c.file = file.text

namespace Candidate

theorem file_of_ofHtml {view : HtmlView} {source : Text.Bytes} {root : Node} {file : String} {c : Candidate}
    (h : c ∈ ofHtml view source root file) : c.file = file := by
  obtain ⟨element, _, found⟩ := List.mem_filterMap.mp h
  simp only [ofHtmlElement?, Option.bind_eq_bind, Option.bind_eq_some_iff] at found
  obtain ⟨tag, _, name, _, found⟩ := found
  split at found
  · contradiction
  · rw [← Option.some.inj found]

theorem file_of_ofJsx {source : Text.Bytes} {root : Node} {file : String} {c : Candidate}
    (h : c ∈ ofJsx source root file) : c.file = file := by
  obtain ⟨element, _, found⟩ := List.mem_filterMap.mp h
  simp only [ofJsxElement?, Option.bind_eq_bind, Option.bind_eq_some_iff] at found
  obtain ⟨tag, _, name, _, found⟩ := found
  rw [← Option.some.inj found]

theorem file_of_inTemplate {template : Component.Block} {file : String} {c : Candidate}
    (h : c ∈ inTemplate template file) : c.file = file := by
  unfold inTemplate at h
  cases blank : Text.isBlankText template.content with
  | true => simp [blank] at h
  | false =>
    simp only [blank, Bool.false_eq_true, if_false] at h
    exact file_of_ofHtml h

theorem file_of_inComponent {source file : String} {c : Candidate} (h : c ∈ inComponent source file) : c.file = file := by
  unfold inComponent at h
  cases found : Component.template? (Component.blocks source) with
  | none => simp [found] at h
  | some template =>
    simp only [found] at h
    exact file_of_inTemplate h

/-- In whichever way candidates are found, they name the file that was looked at. -/
theorem file_of_finder {extension source file : String} {find : String → String → List Candidate}
    (way : finder? extension = some find) {c : Candidate} (h : c ∈ find source file) : c.file = file := by
  unfold finder? at way
  split at way
  · rw [← Option.some.inj way, inHtml] at h
    exact file_of_ofHtml h
  · rw [← Option.some.inj way, inJsx] at h
    exact file_of_ofJsx h
  · rw [← Option.some.inj way, inJsx] at h
    exact file_of_ofJsx h
  · rw [← Option.some.inj way] at h
    exact file_of_inComponent h
  · contradiction

theorem file_of_extract {source file : String} {cs : List Candidate} (h : extract source file = .ok cs) {c : Candidate}
    (member : c ∈ cs) : c.file = file := by
  unfold extract at h
  cases way : finder? (Path.ofString file).extension with
  | none => simp [way] at h
  | some find =>
    simp only [way, Except.ok.injEq] at h
    rw [← h] at member
    exact file_of_finder way member

end Candidate

namespace SearchConfig

variable (c : SearchConfig) {t : FileTree} {cache : CandidateCache}

/-- The files that are searched are files of the tree. -/
theorem mem_files_of_files {directory file : Path} (h : file ∈ c.files t directory) : ∃ f, (file, f) ∈ t.files := by
  rw [files] at h
  obtain ⟨names, below, rfl⟩ := List.mem_map.mp h
  rw [FileTree.below] at below
  have found := List.mem_mergeSort.mp (List.mem_filter.mp below).1
  obtain ⟨⟨p, f⟩, member, inside⟩ := List.mem_filterMap.mp found
  simp only [Option.ite_none_right_eq_some, Bool.and_eq_true, beq_iff_eq, decide_eq_true_eq, Option.some.injEq] at inside
  obtain ⟨⟨⟨root, front⟩, _⟩, rfl⟩ := inside
  obtain ⟨rest, names⟩ := List.isPrefixOf_iff_prefix.mp front
  -- The directory and the names below it put together are the path that was cut.
  refine ⟨f, ?_⟩
  rw [← root, ← names, List.drop_left, names]
  exact member

theorem faithful_keep (h : cache.Faithful) {file : Path} {seen : Seen} (told : ∀ d ∈ seen.candidates, d.file = file.text) :
    (c.keep cache file seen).Faithful := by
  rw [keep]
  split
  · intro p other member
    rcases List.mem_cons.mp member with new | old
    · obtain ⟨rfl, rfl⟩ := Prod.mk.inj new
      exact told
    · exact h p other (List.mem_filter.mp old).1
  · exact h

/-- The candidates of a file name it, whether they are found or remembered. -/
theorem candidates_faithful (h : cache.Faithful) (file : Path) :
    (∀ d ∈ (c.candidates t cache file).1, d.file = file.text) ∧ (c.candidates t cache file).2.1.Faithful := by
  rw [candidates]
  cases t.read file with
  | error e => exact ⟨by simp, h⟩
  | ok f =>
    simp only
    cases held : c.remembered? cache file f.time with
    | some found =>
      refine ⟨fun d member => ?_, h⟩
      rw [remembered?] at held
      split at held
      next seen kept =>
        -- What is remembered stood in the cache under the file.
        simp only [Option.ite_none_right_eq_some, Option.some.injEq] at held
        rw [← held.2] at member
        obtain ⟨before, after, entry, _⟩ := List.lookup_eq_some_iff.mp kept
        exact h file seen (by simp [entry]) d member
      next => contradiction
    | none =>
      simp only
      cases FileTree.textOf f with
      | error e => exact ⟨by simp, h⟩
      | ok source =>
        simp only
        cases found : Candidate.extract source file.text with
        | ok ds =>
          have named (d : Candidate) := @Candidate.file_of_extract _ _ _ found d
          exact ⟨named, c.faithful_keep h named⟩
        | error e => exact ⟨by simp, c.faithful_keep h (by simp)⟩

theorem candidatesOfAll_faithful (h : cache.Faithful) (files : List Path) :
    (∀ d ∈ (c.candidatesOfAll t cache files).1, ∃ file ∈ files, d.file = file.text) ∧
      (c.candidatesOfAll t cache files).2.1.Faithful := by
  induction files generalizing cache with
  | nil => exact ⟨by simp [candidatesOfAll], h⟩
  | cons file rest ih =>
    obtain ⟨here, kept⟩ := c.candidates_faithful (t := t) h file
    obtain ⟨later, last⟩ := ih kept
    rw [candidatesOfAll]
    refine ⟨fun d member => ?_, last⟩
    rcases List.mem_append.mp member with own | other
    · exact ⟨file, List.mem_cons_self, here d own⟩
    · obtain ⟨p, member, names⟩ := later d other
      exact ⟨p, List.mem_cons_of_mem file member, names⟩

theorem mem_of_rank {s : Signature} {cs : List Candidate} {found : Scored} (h : found ∈ s.rank cs) : found.2 ∈ cs := by
  have scored := (List.mem_filter.mp (List.mem_mergeSort.mp h)).1
  obtain ⟨d, member, rfl⟩ := List.mem_map.mp scored
  exact member

/-- A search that finds something names the file by its canonical path. -/
theorem find_canonical (tree : t.Canonical) (h : cache.Faithful) (s : Signature) (directory : Path) :
    (∀ m, (c.find t cache s directory).1 = some m → m.file.Canonical) ∧ (c.find t cache s directory).2.1.Faithful := by
  obtain ⟨named, kept⟩ := c.candidatesOfAll_faithful (t := t) h (c.files t directory)
  refine ⟨fun m found => ?_, kept⟩
  rw [find] at found
  obtain ⟨⟨score, d⟩, best, rfl⟩ := Option.map_eq_some_iff.mp found
  obtain ⟨file, searched, names⟩ := named d (mem_of_rank (List.mem_of_head? best))
  obtain ⟨f, member⟩ := c.mem_files_of_files searched
  obtain ⟨canonical, proper⟩ := tree.files file f member
  simp only [names, canonical.ofString_text proper]
  exact canonical

end SearchConfig

end Remedy
