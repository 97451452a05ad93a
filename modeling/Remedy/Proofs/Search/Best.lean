import Remedy.Proofs.Search.Cache
import Remedy.Proofs.Search.Walk
import Remedy.Proofs.Signature.Rank

/-!
A search finds the best of all candidates that count. What counts is said without a walk and without a ranking: the file is
below the directory, has one of the endings and is behind no excluded name, its text can be read, and the candidate is in
what is extracted from that.
-/

namespace Remedy

namespace SearchConfig

variable (c : SearchConfig) {t : FileTree}

/-- Whether a file is searched: there is a way down to it that leads through no excluded directory. -/
def Searches (t : FileTree) (directory file : Path) : Prop :=
  let start := t.home.resolve directory
  ∃ names, names ≠ [] ∧ file = ⟨start.root, start.names ++ names⟩ ∧ (t.file? file).isSome ∧
    (∀ n ∈ names.dropLast, n ∉ c.excludeDirs) ∧ ∃ e ∈ c.extensions, file.extension = Text.lower e

/-- Whether a candidate of a file counts. -/
def Eligible (t : FileTree) (directory file : Path) (d : Candidate) : Prop :=
  c.Searches t directory file ∧ ∃ f source found,
    t.file? file = some f ∧ FileTree.textOf f = .ok source ∧ Candidate.extract source file.text = .ok found ∧ d ∈ found

/-- What is best among the candidates that count: none has a higher score, and none with the same score comes before it. -/
structure IsBestMatch (t : FileTree) (s : Signature) (directory : Path) (m : Match) : Prop where
  eligible : c.Eligible t directory m.file m.candidate
  tag : Text.lower m.candidate.tag = Text.lower s.tag
  score : m.score = s.score m.candidate
  greatest : ∀ file d, c.Eligible t directory file d →
    s.score d < m.score ∨ s.score d = m.score ∧ m.candidate.rankKey ≤ d.rankKey

/-! ### Files -/

theorem nodup_files (sound : t.Sound) (directory : Path) : (c.files t directory).Nodup := by
  rw [files]
  refine ((sound.nodup_below _).filter _).map fun a b same => ?_
  exact List.append_cancel_left (Path.mk.inj same).2

theorem extension_append (root : String) (front : List String) {names : List String} (h : names ≠ []) :
    (⟨root, front ++ names⟩ : Path).extension = (⟨"", names⟩ : Path).extension := by
  have name : Path.name ⟨root, front ++ names⟩ = Path.name ⟨"", names⟩ := by
    simp [Path.name, List.getLastD_eq_getLast?, List.getLast?_append_of_ne_nil _ h]
  rw [Path.extension, Path.extension, Path.suffix, Path.suffix, name]

theorem covers_iff (root : String) (front : List String) {names : List String} (h : names ≠ []) :
    c.covers names = true ↔ (∀ n ∈ names.dropLast, n ∉ c.excludeDirs) ∧
      ∃ e ∈ c.extensions, (⟨root, front ++ names⟩ : Path).extension = Text.lower e := by
  rw [covers, Bool.and_eq_true, List.all_eq_true, List.contains_iff_mem, List.mem_map, extension_append root front h]
  refine and_congr (forall₂_congr fun n _ => by simp) (exists_congr fun e => and_congr_right fun _ => ?_)
  exact eq_comm

theorem mem_files_iff (sound : t.Sound) {directory file : Path} :
    file ∈ c.files t directory ↔ c.Searches t directory file := by
  rw [files, List.mem_map]
  constructor
  · rintro ⟨names, member, rfl⟩
    obtain ⟨below, covered⟩ := List.mem_filter.mp member
    obtain ⟨nonempty, f, stands⟩ := FileTree.mem_below.mp below
    refine ⟨names, nonempty, rfl, ?_, (c.covers_iff _ _ nonempty).mp covered⟩
    rw [sound.file?_of_mem stands]
    rfl
  · rintro ⟨names, nonempty, rfl, stands, covered⟩
    obtain ⟨f, stands⟩ := Option.isSome_iff_exists.mp stands
    have below := FileTree.mem_below.mpr ⟨nonempty, f, FileTree.mem_of_file? stands⟩
    exact ⟨names, List.mem_filter.mpr ⟨below, (c.covers_iff _ _ nonempty).mpr covered⟩, rfl⟩

/-! ### Candidates -/

theorem mem_candidatesAt_iff {file : Path} {d : Candidate} :
    d ∈ t.candidatesAt file ↔ ∃ f source found,
      t.read file = .ok f ∧ FileTree.textOf f = .ok source ∧ Candidate.extract source file.text = .ok found ∧ d ∈ found := by
  rw [FileTree.candidatesAt]
  cases t.read file with
  | error e => simp
  | ok f =>
    simp only [Candidate.ofFile]
    cases text : FileTree.textOf f with
    | error e => simp [text]
    | ok source =>
      cases extracted : Candidate.extract source file.text with
      | error e => simp [text, extracted]
      | ok found => simp [text, extracted]

/-- A candidate counts if and only if the search comes by it: in a sound tree every file can be read. -/
theorem eligible_iff (sound : t.Sound) {directory file : Path} {d : Candidate} :
    c.Eligible t directory file d ↔ file ∈ c.files t directory ∧ d ∈ t.candidatesAt file := by
  rw [Eligible, ← c.mem_files_iff sound]
  refine and_congr_right fun searched => ?_
  obtain ⟨f, member⟩ := c.mem_files_of_files searched
  rw [mem_candidatesAt_iff, sound.file?_of_mem member, sound.read_of_mem member]
  simp only [Option.some.injEq, Except.ok.injEq]

theorem isBestMatch_of_best (sound : t.Sound) {s : Signature} {directory : Path} {m : Match}
    (h : c.best t s directory = some m) : c.IsBestMatch t s directory m := by
  obtain ⟨⟨score, d⟩, first, rfl⟩ := Option.map_eq_some_iff.mp h
  have best := Signature.isBest_of_head? first
  obtain ⟨file, searched, found⟩ := List.mem_flatMap.mp best.member
  -- The candidate says where it was found, so that is where the match says it is.
  have place : Path.ofString d.file = file := by
    obtain ⟨f, source, ds, -, -, extracted, member⟩ := mem_candidatesAt_iff.mp found
    obtain ⟨g, stands⟩ := c.mem_files_of_files searched
    obtain ⟨canonical, proper⟩ := sound.files file g stands
    rw [Candidate.file_of_extract extracted member, canonical.ofString_text proper]
  refine ⟨?_, best.tag, best.score, fun other e eligible => ?_⟩
  · change c.Eligible t directory (Path.ofString d.file) d
    rw [place, c.eligible_iff sound]
    exact ⟨searched, found⟩
  · exact best.greatest e (List.mem_flatMap.mpr ⟨other, (c.eligible_iff sound).mp eligible⟩)

theorem best_eq_none_iff (sound : t.Sound) (s : Signature) (directory : Path) :
    c.best t s directory = none ↔ ∀ file d, c.Eligible t directory file d → Text.lower d.tag ≠ Text.lower s.tag := by
  rw [best, Signature.bestMatch, Option.map_eq_none_iff, List.head?_eq_none_iff, Signature.rank_eq_nil_iff]
  constructor
  · intro other file d eligible
    exact other d (List.mem_flatMap.mpr ⟨file, (c.eligible_iff sound).mp eligible⟩)
  · intro other d member
    obtain ⟨file, found⟩ := List.mem_flatMap.mp member
    exact other file d ((c.eligible_iff sound).mpr found)

/-- A search goes through every file that counts just once and finds the best of all candidates in them. Where keys tell the
candidates apart, it would find the same in whichever order it came by them. -/
theorem find_best {cache : CandidateCache} (sound : t.Sound) (kept : cache.TrueOf t) (s : Signature) (directory : Path) :
    ((c.files t directory).Nodup ∧ (∀ file, file ∈ c.files t directory ↔ c.Searches t directory file) ∧
      (c.find t cache s directory).1 = s.bestMatch ((c.files t directory).flatMap t.candidatesAt)) ∧
    ((c.find t cache s directory).1 = none ↔
      ∀ file d, c.Eligible t directory file d → Text.lower d.tag ≠ Text.lower s.tag) ∧
    (∀ m, (c.find t cache s directory).1 = some m → c.IsBestMatch t s directory m) ∧
    (∀ cs ds : List Candidate, cs.Perm ds → (cs.Pairwise fun d e => d.rankKey ≠ e.rankKey) → s.rank cs = s.rank ds) ∧
    (∀ order : List Path, order.Perm (c.files t directory) →
      ((order.flatMap t.candidatesAt).Pairwise fun d e => d.rankKey ≠ e.rankKey) →
      (c.find t cache s directory).1 = s.bestMatch (order.flatMap t.candidatesAt)) := by
  rw [c.find_eq kept]
  refine ⟨⟨c.nodup_files sound directory, fun file => c.mem_files_iff sound, rfl⟩, c.best_eq_none_iff sound s directory,
    fun m => c.isBestMatch_of_best sound, fun cs ds => s.rank_perm, fun order perm apart => ?_⟩
  rw [best, Signature.bestMatch, Signature.bestMatch, s.rank_perm (perm.flatMap_right _) apart]

end SearchConfig

/-- A page, and what was built from it. -/
def builtPages : FileTree :=
  ((FileTree.empty ⟨"/", ["w"]⟩).put ⟨"/", ["w", "a.html"]⟩ ⟨Text.encode "<img>".toList, 1⟩).put
    ⟨"/", ["w", "dist", "a.html"]⟩ ⟨Text.encode "<img id=x>".toList, 2⟩

theorem builtPages_sound : builtPages.Sound := by
  have page : ((FileTree.empty ⟨"/", ["w"]⟩).put ⟨"/", ["w", "a.html"]⟩ ⟨Text.encode "<img>".toList, 1⟩).Sound :=
    (FileTree.sound_empty (by decide)).put (by decide) (by decide) (by decide) (fun front before strict => rfl) _
  refine page.put (by decide) (by decide) (by decide) (fun front before strict => ?_) _
  have other : (⟨"/", front⟩ : Path) ≠ ⟨"/", ["w", "a.html"]⟩ := by
    intro same
    rw [(Path.mk.inj same).2] at before
    exact absurd before (by decide)
  rw [FileTree.file?_put, if_neg other]
  rfl

/-- What is built from a page is not searched for what is written in the page. -/
theorem page_searched_alone :
    builtPages.Sound ∧ CandidateCache.TrueOf [] builtPages ∧
      ⟨"/", ["w", "a.html"]⟩ ∈ SearchConfig.files {} builtPages ⟨"", []⟩ ∧
      ⟨"/", ["w", "dist", "a.html"]⟩ ∉ SearchConfig.files {} builtPages ⟨"", []⟩ := by
  have kept := CandidateCache.trueOf_nil builtPages
  obtain ⟨⟨-, searched, -⟩, -⟩ :=
    SearchConfig.find_best {} builtPages_sound kept ⟨"img", none, [], [], [], none⟩ ⟨"", []⟩
  refine ⟨builtPages_sound, kept, (searched _).mpr ?_, fun member => ?_⟩
  · exact ⟨["a.html"], by decide, rfl, by decide, by decide, ".html", by decide, by decide +kernel⟩
  · obtain ⟨names, -, place, -, way, -⟩ := (searched _).mp member
    have cut : ["w"] ++ ["dist", "a.html"] = ["w"] ++ names := (Path.mk.inj place).2
    obtain rfl := List.append_cancel_left cut
    exact way "dist" (by decide) (by decide)

end Remedy
