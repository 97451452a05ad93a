import Remedy.Proofs.Edit.StableOrder
import Remedy.Proofs.Run.Guarantee
import Remedy.Proofs.Search.Found

/-!
How often a run gets to one place.

Fixes are grouped by the paths of their targets. Paths that are looked for or resolved are canonical, but an absolute source
is taken as a fix gives it, and so is the fallback, so two groups can be of one place if one of their paths is not
canonical. If all that is given is canonical, every place is written at most once, and a group finds its file as it was
when the fixes were resolved.
-/

namespace Remedy

namespace Resolution

/-- A path that becomes a target as it was given: an absolute source of a fix, or the fallback. -/
def Given (fixes : List Fix) (fallback : Option Path) (file : Path) : Prop :=
  (∃ f ∈ fixes, ∃ l, f.location = some l ∧ file = Path.ofString l.source ∧ file.isAbsolute = true) ∨ fallback = some file

theorem Given.mono {fixes more : List Fix} {fallback : Option Path} {file : Path} (h : Given fixes fallback file)
    (within : fixes ⊆ more) : Given more fallback file :=
  h.imp_left fun ⟨f, member, told⟩ => ⟨f, within member, told⟩

section

variable (c : SearchConfig) {t : FileTree} (root : Path) (fallback : Option Path) {cache : CandidateCache}

theorem target_orElse {f : Fix} {file : Path} (h : (orElse t fallback f).target = some file) : fallback = some file :=
  (Option.filter_eq_some_iff.mp h).1

/-- A target is canonical, unless it was given. -/
theorem target_of (tree : t.Canonical) (kept : cache.Faithful) (f : Fix) :
    (∀ file, (of c t root fallback cache f).1.target = some file → file.Canonical ∨ Given [f] fallback file) ∧
      (of c t root fallback cache f).2.1.Faithful := by
  cases place : f.location with
  | some l =>
    simp only [of, place]
    refine ⟨fun file target => ?_, kept⟩
    rw [← Option.some.inj target]
    -- An absolute source is taken as it is, any other is resolved.
    cases absolute : (Path.ofString l.source).isAbsolute with
    | true => exact Or.inr (Or.inl ⟨f, List.mem_cons_self, l, place, by simp, by simpa using absolute⟩)
    | false => exact Or.inl (by simpa using Path.canonical_resolve tree.home (root.join (Path.ofString l.source)))
  | none =>
    cases signed : f.metadata.signature with
    | none =>
      simp only [of, place, signed]
      exact ⟨fun file target => Or.inr (Or.inr (target_orElse fallback target)), kept⟩
    | some s =>
      obtain ⟨canonical, kept'⟩ := c.find_canonical tree kept s root
      simp only [of, place, signed]
      refine ⟨fun file target => ?_, kept'⟩
      cases found : (c.find t cache s root).1 with
      | none =>
        simp only [found] at target
        exact Or.inr (Or.inr (target_orElse fallback target))
      | some m =>
        simp only [found, Option.some.injEq] at target
        exact Or.inl (target ▸ canonical m found)

theorem target_ofAll (tree : t.Canonical) (kept : cache.Faithful) (fixes : List Fix) :
    (∀ r ∈ (ofAll c t root fallback cache fixes).1, ∀ file, r.target = some file →
        file.Canonical ∨ Given fixes fallback file) ∧
      (ofAll c t root fallback cache fixes).2.1.Faithful := by
  induction fixes generalizing cache with
  | nil => exact ⟨by simp [ofAll], kept⟩
  | cons f rest ih =>
    obtain ⟨here, kept'⟩ := target_of c root fallback tree kept f
    obtain ⟨later, last⟩ := ih kept'
    rw [ofAll]
    refine ⟨fun r member file target => ?_, last⟩
    rcases List.mem_cons.mp member with rfl | other
    · exact (here file target).imp_right fun given => given.mono (List.cons_subset_cons f (List.nil_subset rest))
    · exact (later r other file target).imp_right fun given => given.mono (List.subset_cons_self f rest)

/-- Looking for targets writes nothing. -/
theorem unwritten_ofAll (t : FileTree) (cache : CandidateCache) (fixes : List Fix) :
    (ofAll c t root fallback cache fixes).2.2.filterMap Event.write? = [] := by
  have quiet (r : Resolution) : r.warnings.filterMap Event.write? = [] := by
    rw [warnings]
    split <;> rfl
  induction fixes generalizing cache with
  | nil => rfl
  | cons f rest ih =>
    have here : (of c t root fallback cache f).2.2.filterMap Event.write? = [] := by
      cases place : f.location with
      | some l => simp [of, place]
      | none =>
        cases signed : f.metadata.signature with
        | none => simp [of, place, signed, quiet]
        | some s => simp [of, place, signed, quiet, Event.write?]
    rw [ofAll, List.filterMap_append, here, ih, List.nil_append]

end

theorem nodup_files (rs : List Resolution) : ((groups rs).map (·.1)).Nodup := by
  have files : (groups rs).map (·.1) = (rs.filterMap (·.target)).eraseDups := by simp [groups, Function.comp_def]
  rw [files]
  exact StableOrder.nodup_eraseDups _

theorem exists_target {rs : List Resolution} {file : Path} (h : file ∈ (groups rs).map (·.1)) :
    ∃ r ∈ rs, r.target = some file := by
  simpa [groups] using h

end Resolution

namespace Tools

variable (tools : Tools σ)

/-! ### What a turn leaves alone -/

/-- Whether or not it comes to an outcome, a turn of a file writes to that file only, and that once at most. -/
structure Confined (file : Path) (w w' : Workspace σ) (events : List Event) : Prop where
  home : w'.tree.home = w.tree.home
  elsewhere : ∀ q, q ≠ w.tree.home.resolve file → ¬ tools.IsRecord w.tree.home q → w'.tree.file? q = w.tree.file? q
  writes : ((events.filterMap Event.write?).map (·.1)).Sublist [file]

theorem applyFile_confined (file : Path) (fixes : List Fix) (w : Workspace σ) :
    tools.Confined file w (tools.applyFile file fixes w).2.1 (tools.applyFile file fixes w).2.2 := by
  rcases @applyFile_cases _ tools file fixes w with ⟨o, w₀, led, way, turn⟩ | ⟨r, w₀, events, turn, tree, asked, _⟩
  · have guarded := way.guarded fixes
    have concluded : tools.applyFile file fixes w =
        (.ok o, (tools.record o fixes w₀).1, led ++ (tools.record o fixes w₀).2) := turn
    rw [concluded]
    refine ⟨guarded.home, guarded.elsewhere, ?_⟩
    by_cases overwrites : tools.Overwrites o
    · obtain ⟨content, writes, _⟩ := guarded.written overwrites
      rw [writes]
      exact List.Sublist.refl _
    · rw [(guarded.unwritten overwrites).1]
      exact List.nil_sublist _
  · rw [turn]
    refine ⟨congrArg FileTree.home tree, fun q _ _ => by rw [tree], ?_⟩
    rw [asked.unwritten]
    exact List.nil_sublist _

/-! ### What a run over files leaves alone -/

/-- A place that none of the files is at stays as it is, unless it is one of records. -/
theorem apply_elsewhere (jobs : List (Path × List Fix)) (w : Workspace σ) {q : Path}
    (free : ∀ job ∈ jobs, w.tree.home.resolve job.1 ≠ q) (other : ¬ tools.IsRecord w.tree.home q) :
    (tools.apply jobs w).2.1.tree.file? q = w.tree.file? q := by
  induction jobs generalizing w with
  | nil => rfl
  | cons job rest ih =>
    obtain ⟨file, fixes⟩ := job
    have confined := tools.applyFile_confined file fixes w
    have apart : w.tree.home.resolve file ≠ q := free (file, fixes) List.mem_cons_self
    have here := confined.elsewhere q apart.symm other
    unfold apply
    generalize tools.applyFile file fixes w = turn at confined here
    obtain ⟨result, w₁, events⟩ := turn
    cases result with
    | error r => exact here
    | ok o =>
      have home : w₁.tree.home = w.tree.home := confined.home
      have onward := ih w₁ (by rw [home]; exact fun job member => free job (List.mem_cons_of_mem _ member))
        (by rw [home]; exact other)
      exact onward.trans here

/-- The files are written in order, each once at most. -/
theorem apply_writes (jobs : List (Path × List Fix)) (w : Workspace σ) :
    (((tools.apply jobs w).2.2.filterMap Event.write?).map (·.1)).Sublist (jobs.map (·.1)) := by
  induction jobs generalizing w with
  | nil => exact .slnil
  | cons job rest ih =>
    obtain ⟨file, fixes⟩ := job
    have confined := tools.applyFile_confined file fixes w
    unfold apply
    generalize tools.applyFile file fixes w = turn at confined
    obtain ⟨result, w₁, events⟩ := turn
    have own : ((events.filterMap Event.write?).map (·.1)).Sublist [file] := confined.writes
    rw [List.map_cons]
    cases result with
    | error r => exact own.trans (List.singleton_sublist.mpr List.mem_cons_self)
    | ok o =>
      simp only [List.filterMap_append, List.map_append]
      exact own.append (ih w₁)

/-! ### A run -/

/-- The paths of the files that fixes are resolved to, each of them once. -/
def keys (fixes : List Fix) (root : Path) (fallback : Option Path) (w : Workspace σ) : List Path :=
  (Resolution.groups (tools.resolve fixes root fallback w).1).map (·.1)

/-- What is written by a run, in order. -/
def writes (fixes : List Fix) (root : Path) (fallback : Option Path) (w : Workspace σ) : List (Path × String) :=
  (tools.run fixes root fallback w).2.2.filterMap Event.write?

variable (fixes : List Fix) (root : Path) (fallback : Option Path) (w : Workspace σ)

theorem writes_sublist : ((tools.writes fixes root fallback w).map (·.1)).Sublist (tools.keys fixes root fallback w) := by
  have quiet : (tools.resolve fixes root fallback w).2.2.filterMap Event.write? = [] :=
    Resolution.unwritten_ofAll tools.config.search root _ w.tree w.cache fixes
  have made := tools.apply_writes (Resolution.groups (tools.resolve fixes root fallback w).1)
    (tools.resolve fixes root fallback w).2.1
  rw [writes, keys, run]
  generalize tools.resolve fixes root fallback w = resolved at quiet made
  obtain ⟨resolutions, w₁, found⟩ := resolved
  simp only at quiet made ⊢
  generalize tools.apply (Resolution.groups resolutions) w₁ = applied at made
  obtain ⟨result, w₂, events⟩ := applied
  cases result with
  | error r =>
    simp only [List.filterMap_append, quiet, List.nil_append]
    exact made
  | ok outcomes =>
    simp only [List.filterMap_append, quiet, List.nil_append]
    exact made

variable {fixes root fallback w}

/-- A key is canonical, unless it was given. -/
theorem key_cases (tree : w.tree.Canonical) (kept : w.cache.Faithful) {key : Path}
    (h : key ∈ tools.keys fixes root fallback w) :
    key.Canonical ∨ Resolution.Given fixes (fallback.map (Target.redirect w.tree)) key := by
  obtain ⟨r, member, target⟩ := Resolution.exists_target h
  exact (Resolution.target_ofAll tools.config.search root _ tree kept fixes).1 r member key target

/-- **Every place is patched once, if what is given is canonical.** Two groups of one run are of one place only if the path
of one of them was given, as an absolute source or as the fallback, and is not canonical. If all given paths are canonical,
no two groups are of one place, no place is written twice, and when the turn of a group comes its file is as it was when
the fixes were resolved. -/
theorem each_place_once (tree : w.tree.Canonical) (kept : w.cache.Faithful) :
    (∀ key ∈ tools.keys fixes root fallback w, ∀ other ∈ tools.keys fixes root fallback w, key ≠ other →
      w.tree.home.resolve key = w.tree.home.resolve other →
      ∃ path ∈ [key, other], ¬ path.Canonical ∧ Resolution.Given fixes (fallback.map (Target.redirect w.tree)) path) ∧
    ((∀ path, Resolution.Given fixes (fallback.map (Target.redirect w.tree)) path → path.Canonical) →
      ((tools.keys fixes root fallback w).map w.tree.home.resolve).Nodup ∧
      ((tools.writes fixes root fallback w).map fun write => w.tree.home.resolve write.1).Nodup ∧
      ∀ before file own after,
        Resolution.groups (tools.resolve fixes root fallback w).1 = before ++ (file, own) :: after →
        (Patch.Dialect.of? file).isSome →
        (tools.apply before (tools.resolve fixes root fallback w).2.1).2.1.tree.file? (w.tree.home.resolve file) =
          w.tree.file? (w.tree.home.resolve file)) := by
  constructor
  · intro key hk other ho differ same
    by_contra neither
    simp only [List.mem_cons, List.not_mem_nil, or_false, exists_eq_or_imp, exists_eq_left, not_or, not_and] at neither
    -- With both of them canonical, they would be the same.
    have canonical : key.Canonical := by
      by_contra crooked
      exact neither.1 crooked ((tools.key_cases tree kept hk).resolve_left crooked)
    have canonical' : other.Canonical := by
      by_contra crooked
      exact neither.2 crooked ((tools.key_cases tree kept ho).resolve_left crooked)
    rw [canonical.resolve_eq, canonical'.resolve_eq] at same
    exact differ same
  · intro given
    have canonical (key : Path) (h : key ∈ tools.keys fixes root fallback w) : key.Canonical :=
      (tools.key_cases tree kept h).elim id (given key)
    have places : (tools.keys fixes root fallback w).map w.tree.home.resolve = tools.keys fixes root fallback w :=
      (List.map_congr_left fun key h => (canonical key h).resolve_eq _).trans (List.map_id _)
    have nodup : ((tools.keys fixes root fallback w).map w.tree.home.resolve).Nodup := by
      rw [places]
      exact Resolution.nodup_files _
    -- Writes are some of the keys in their order, so they inherit that no two are of one place.
    refine ⟨nodup, ?_, fun before file own after split source => ?_⟩
    · have written := (tools.writes_sublist fixes root fallback w).map w.tree.home.resolve
      rw [List.map_map] at written
      exact written.nodup nodup
    · apply tools.apply_elsewhere before (tools.resolve fixes root fallback w).2.1 _ (tools.not_isRecord_of_source _ source)
      intro job member same
      have files : tools.keys fixes root fallback w = before.map (·.1) ++ file :: after.map (·.1) := by
        rw [keys, split, List.map_append, List.map_cons]
      rw [files, List.map_append, List.map_cons] at nodup
      exact (List.nodup_append.mp nodup).2.2 _ (List.mem_map_of_mem (List.mem_map_of_mem member)) _ List.mem_cons_self same

/-- A fix for the first element of a source. -/
def fixIn (source : String) : Fix :=
  ⟨.addAttribute, "", ⟨some "lang", some "en", none, none, []⟩, ⟨.null, none, none, some ⟨source, ⟨1, 0⟩, none⟩, []⟩⟩

theorem desk_canonical : desk.tree.Canonical where
  home := rfl
  files := by
    intro p f member
    obtain ⟨rfl, _⟩ := Prod.mk.inj (List.mem_singleton.mp member)
    decide

theorem desk_faithful : desk.cache.Faithful := fun _ _ member => by cases member

/-- The page of the desk named in three ways, two of them relative. -/
def straight : List Fix := [fixIn "page.html", fixIn "/desk/page.html", fixIn "drawer/../page.html"]

/-- The page of the desk named in two ways, the first of them with a step upwards. -/
def crooked : List Fix := [fixIn "/desk/../desk/page.html", fixIn "page.html"]

/-- What all three name is one key, and is written once. -/
theorem page_patched_once :
    desk.tree.Canonical ∧ desk.cache.Faithful ∧
      mending.keys straight (.ofString ".") none desk = [⟨"/", ["desk", "page.html"]⟩] ∧
      ((mending.writes straight (.ofString ".") none desk).map fun write => desk.tree.home.resolve write.1).Nodup := by
  have given (path : Path) (h : Resolution.Given straight none path) : path.Canonical := by
    rcases h with ⟨f, member, l, place, rfl, absolute⟩ | fallback
    · simp only [straight, List.mem_cons, List.not_mem_nil, or_false] at member
      rcases member with rfl | rfl | rfl
      · obtain rfl := Option.some.inj place
        exact absurd absolute (by decide +kernel)
      · obtain rfl := Option.some.inj place
        decide +kernel
      · obtain rfl := Option.some.inj place
        exact absurd absolute (by decide +kernel)
    · cases fallback
  have once : ((mending.writes straight (.ofString ".") none desk).map fun write =>
      desk.tree.home.resolve write.1).Nodup :=
    ((mending.each_place_once desk_canonical desk_faithful).2 given).2.1
  exact ⟨desk_canonical, desk_faithful, by decide +kernel, once⟩

/-- With a step upwards in an absolute source there are two keys for one page, which is then written twice. -/
theorem crooked_source_patched_twice :
    (¬ ∀ (tools : Tools Nat) (fixes : List Fix) (root : Path) (fallback : Option Path) (w : Workspace Nat),
      w.tree.Canonical → w.cache.Faithful → ((tools.keys fixes root fallback w).map w.tree.home.resolve).Nodup) ∧
    ¬ ∀ (tools : Tools Nat) (fixes : List Fix) (root : Path) (fallback : Option Path) (w : Workspace Nat),
      w.tree.Canonical → w.cache.Faithful →
        ((tools.writes fixes root fallback w).map fun write => w.tree.home.resolve write.1).Nodup := by
  constructor
  · intro once
    have places := once mending crooked (.ofString ".") none desk desk_canonical desk_faithful
    have twice : (mending.keys crooked (.ofString ".") none desk).map desk.tree.home.resolve =
        [⟨"/", ["desk", "page.html"]⟩, ⟨"/", ["desk", "page.html"]⟩] := by decide +kernel
    rw [twice] at places
    exact absurd places (by decide)
  · intro once
    have places := once mending crooked (.ofString ".") none desk desk_canonical desk_faithful
    have twice : ((mending.writes crooked (.ofString ".") none desk).map fun write => desk.tree.home.resolve write.1) =
        [⟨"/", ["desk", "page.html"]⟩, ⟨"/", ["desk", "page.html"]⟩] := by decide +kernel
    rw [twice] at places
    exact absurd places (by decide)

end Tools

end Remedy
