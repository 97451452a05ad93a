import Mathlib.Data.List.Forall2
import Mathlib.Data.List.Induction
import Mathlib.Data.List.Nodup
import Remedy.Proofs.Run.Once
import Remedy.Proofs.Search.Best
import Remedy.Proofs.Search.Repeated

/-!
What becomes of fixes when they are resolved: each of them comes to a target in one of three ways, or to none, and none of them
is lost or doubled when they are put into groups.

Groups are built up fix by fix. What a partition is, is said by the numbers of the fixes, so that fixes that are the same are
still told apart.
-/

namespace Remedy

namespace Resolution

/-! ### Groups, one fix after the other -/

/-- Adds a fix to the group of its target, which is a new one at the end if there is none yet. -/
def enter (groups : List (Path × List Fix)) (r : Resolution) : List (Path × List Fix) :=
  match r.target with
  | none => groups
  | some file =>
    if file ∈ groups.map (·.1) then
      groups.map fun (p, own) => (p, if p = file then own ++ [r.fix] else own)
    else groups ++ [(file, [r.fix])]

theorem map_fst_groups (rs : List Resolution) : (groups rs).map (·.1) = (rs.filterMap (·.target)).eraseDups := by
  simp [groups, Function.comp_def]

theorem groups_concat (rs : List Resolution) (r : Resolution) : groups (rs ++ [r]) = enter (groups rs) r := by
  cases target : r.target with
  | none => simp [groups, enter, target]
  | some file =>
    have keys : (rs ++ [r]).filterMap (·.target) = rs.filterMap (·.target) ++ [file] := by simp [target]
    have own (p : Path) : ((rs ++ [r]).filter fun s => s.target == some p).map (·.fix) =
        ((rs.filter fun s => s.target == some p).map (·.fix)) ++ if file = p then [r.fix] else [] := by
      rw [List.filter_append, List.map_append]
      by_cases same : file = p <;> simp [target, same]
    have alone : [file].eraseDups = [file] := by rw [List.eraseDups_cons]; rfl
    simp only [enter, target]
    -- The file has a group already, or this fix is the first one of its group.
    by_cases old : file ∈ rs.filterMap (·.target)
    · have known : file ∈ (groups rs).map (·.1) := by rwa [map_fst_groups, List.mem_eraseDups]
      have none_left : [file].removeAll (rs.filterMap (·.target)) = [] := by simpa [List.removeAll] using old
      rw [if_pos known]
      simp only [groups, keys, own]
      rw [List.eraseDups_append, none_left, List.eraseDups_nil, List.append_nil, List.map_map]
      refine List.map_congr_left fun p _ => ?_
      by_cases same : file = p <;> simp [same, eq_comm]
    · have unknown : file ∉ (groups rs).map (·.1) := by rwa [map_fst_groups, List.mem_eraseDups]
      have one_left : [file].removeAll (rs.filterMap (·.target)) = [file] := by simpa [List.removeAll] using old
      have nobody : rs.filter (fun s => s.target == some file) = [] := by
        rw [List.filter_eq_nil_iff]
        intro s member same
        exact old (List.mem_filterMap.mpr ⟨s, member, by simpa using same⟩)
      rw [if_neg unknown]
      simp only [groups, keys, own]
      rw [List.eraseDups_append, one_left, alone, List.map_append, List.map_cons, List.map_nil, nobody]
      congr 1
      · refine List.map_congr_left fun p member => ?_
        have other : file ≠ p := fun same => old (same ▸ List.mem_eraseDups.mp member)
        simp [other]
      · simp

/-- The groups come about by putting one fix after the other where it belongs. -/
theorem groups_eq_foldl (rs : List Resolution) : groups rs = rs.foldl enter [] := by
  induction rs using List.reverseRecOn with
  | nil => rfl
  | append_singleton rs r ih => rw [groups_concat, ih, List.foldl_append, List.foldl_cons, List.foldl_nil]

/-! ### A partition -/

/-- The numbers of the fixes that go to a file, counted from zero. -/
def numbersOf (rs : List Resolution) (file : Path) : List Nat :=
  (List.range rs.length).filter fun i => rs[i]?.any fun r => r.target == some file

theorem mem_numbersOf {rs : List Resolution} {file : Path} {i : Nat} :
    i ∈ numbersOf rs file ↔ ∃ r, rs[i]? = some r ∧ r.target = some file := by
  simp only [numbersOf, List.mem_filter, List.mem_range, Option.any_eq_true, beq_iff_eq]
  constructor
  · rintro ⟨_, found⟩
    exact found
  · rintro ⟨r, here, target⟩
    exact ⟨(List.getElem?_eq_some_iff.mp here).1, r, here, target⟩

theorem numbersOf_concat (rs : List Resolution) (r : Resolution) (file : Path) :
    numbersOf (rs ++ [r]) file = numbersOf rs file ++ if r.target = some file then [rs.length] else [] := by
  rw [numbersOf, List.length_append, List.length_singleton, List.range_succ, List.filter_append]
  congr 1
  · refine List.filter_congr fun i member => ?_
    rw [List.getElem?_append_left (List.mem_range.mp member)]
  · by_cases here : r.target = some file <;> simp [here]

/-- Groups of fixes as they should be: each fix that has a target is in the group of it and in no other, in its turn, and
groups come in the order of their first fixes. -/
structure Partition (rs : List Resolution) (groups : List (Path × List Fix)) : Prop where
  nodup : (groups.map (·.1)).Nodup
  files : ∀ file, file ∈ groups.map (·.1) ↔ numbersOf rs file ≠ []
  own : ∀ g ∈ groups, List.Forall₂ (fun i f => ∃ r, rs[i]? = some r ∧ r.fix = f) (numbersOf rs g.1) g.2
  order : groups.Pairwise fun g h => ∃ i ∈ numbersOf rs g.1, ∀ j ∈ numbersOf rs h.1, i < j

theorem partition_nil : Partition [] [] :=
  ⟨.nil, by simp [numbersOf], by simp, .nil⟩

namespace Partition

variable {rs : List Resolution} {groups : List (Path × List Fix)}

/-- A fix that has a target is in one group only. -/
theorem existsUnique (h : Partition rs groups) {i : Nat} {r : Resolution} {file : Path} (here : rs[i]? = some r)
    (target : r.target = some file) : ∃! g, g ∈ groups ∧ i ∈ numbersOf rs g.1 := by
  have number : i ∈ numbersOf rs file := mem_numbersOf.mpr ⟨r, here, target⟩
  obtain ⟨g, member, rfl⟩ := List.mem_map.mp ((h.files file).mpr (List.ne_nil_of_mem number))
  refine ⟨g, ⟨member, number⟩, fun g' ⟨member', number'⟩ => ?_⟩
  obtain ⟨r', here', target'⟩ := mem_numbersOf.mp number'
  obtain rfl := Option.some.inj (here.symm.trans here')
  exact List.inj_on_of_nodup_map h.nodup member' member (Option.some.inj (target'.symm.trans target))

theorem numbers_ne_nil (h : Partition rs groups) {g : Path × List Fix} (member : g ∈ groups) : numbersOf rs g.1 ≠ [] :=
  (h.files g.1).mp (List.mem_map_of_mem member)

/-- A fix that is put where it belongs leaves a partition. -/
theorem enter (h : Partition rs groups) (r : Resolution) : Partition (rs ++ [r]) (enter groups r) := by
  have last : (rs ++ [r])[rs.length]? = some r := by simp
  -- The fixes before this one keep their numbers.
  have kept {is : List Nat} {own : List Fix} (before : List.Forall₂ (fun i f => ∃ s, rs[i]? = some s ∧ s.fix = f) is own) :
      List.Forall₂ (fun i f => ∃ s, (rs ++ [r])[i]? = some s ∧ s.fix = f) is own := by
    refine before.imp fun i f ⟨s, here, same⟩ => ⟨s, ?_, same⟩
    rw [List.getElem?_append_left (List.getElem?_eq_some_iff.mp here).1, here]
  have inside {file : Path} {i : Nat} (member : i ∈ numbersOf rs file) : i < rs.length := by
    obtain ⟨_, here, _⟩ := mem_numbersOf.mp member
    exact (List.getElem?_eq_some_iff.mp here).1
  cases target : r.target with
  | none =>
    have same (file : Path) : numbersOf (rs ++ [r]) file = numbersOf rs file := by
      rw [numbersOf_concat, if_neg (by simp [target]), List.append_nil]
    simp only [Resolution.enter, target]
    refine ⟨h.nodup, fun file => by rw [same, h.files], fun g member => by rw [same]; exact kept (h.own g member), ?_⟩
    simpa only [same] using h.order
  | some file =>
    have numbers (p : Path) : numbersOf (rs ++ [r]) p = numbersOf rs p ++ if file = p then [rs.length] else [] := by
      rw [numbersOf_concat, target]
      simp only [Option.some.injEq]
    -- Groups grow at their ends, so their first fixes come in the order of before.
    have grown {p q : Path} (before : ∃ i ∈ numbersOf rs p, ∀ j ∈ numbersOf rs q, i < j) :
        ∃ i ∈ numbersOf (rs ++ [r]) p, ∀ j ∈ numbersOf (rs ++ [r]) q, i < j := by
      obtain ⟨i, member, first⟩ := before
      refine ⟨i, numbers p ▸ List.mem_append_left _ member, fun j there => ?_⟩
      rw [numbers] at there
      rcases List.mem_append.mp there with old | new
      · exact first j old
      · split at new
        · rw [List.mem_singleton.mp new]
          exact inside member
        · cases new
    simp only [Resolution.enter, target]
    split
    next known =>
      have keys : (groups.map fun (p, own) => (p, if p = file then own ++ [r.fix] else own)).map (·.1) =
          groups.map (·.1) := by simp [Function.comp_def]
      refine ⟨keys ▸ h.nodup, fun p => ?_, ?_, List.pairwise_map.mpr (h.order.imp grown)⟩
      · rw [keys, numbers]
        by_cases same : file = p
        · subst same
          simp [known]
        · rw [if_neg same, List.append_nil, h.files]
      · intro g member
        obtain ⟨⟨p, own⟩, old, rfl⟩ := List.mem_map.mp member
        rw [numbers]
        by_cases same : file = p
        · rw [if_pos same, if_pos same.symm]
          exact List.rel_append (kept (h.own _ old)) (.cons ⟨r, last, rfl⟩ .nil)
        · rw [if_neg same, if_neg (Ne.symm same), List.append_nil]
          exact kept (h.own _ old)
    next unknown =>
      have nobody : numbersOf rs file = [] := by
        by_contra taken
        exact unknown ((h.files file).mpr taken)
      refine ⟨?_, fun p => ?_, ?_, ?_⟩
      · rw [List.map_append]
        exact List.nodup_append.mpr ⟨h.nodup, List.nodup_singleton _, by
          rintro p member q new rfl
          obtain rfl : p = file := List.mem_singleton.mp new
          exact unknown member⟩
      · rw [List.map_append, List.mem_append, numbers, h.files]
        by_cases same : file = p
        · simp [same]
        · simp [same, Ne.symm same]
      · intro g member
        rw [numbers]
        rcases List.mem_append.mp member with old | new
        · have other : file ≠ g.1 := fun same => unknown (same ▸ List.mem_map_of_mem old)
          rw [if_neg other, List.append_nil]
          exact kept (h.own g old)
        · obtain rfl := List.mem_singleton.mp new
          rw [nobody, if_pos rfl]
          exact .cons ⟨r, last, rfl⟩ .nil
      · -- Every group there is has a fix that came before this one.
        refine List.pairwise_append.mpr ⟨h.order.imp grown, List.pairwise_singleton _ _, ?_⟩
        intro g member g' new
        obtain rfl := List.mem_singleton.mp new
        obtain ⟨i, number⟩ := List.exists_mem_of_ne_nil _ (h.numbers_ne_nil member)
        refine ⟨i, numbers g.1 ▸ List.mem_append_left _ number, fun j there => ?_⟩
        rw [numbers, nobody, if_pos rfl] at there
        rw [List.mem_singleton.mp there]
        exact inside number

end Partition

/-- Fixes put where they belong, one after the other, are a partition. -/
theorem partition_foldl (rs : List Resolution) : Partition rs (rs.foldl enter []) := by
  -- From the end: the last fix is the one that was put in last.
  induction rs using List.reverseRecOn with
  | nil => exact partition_nil
  | append_singleton rs r ih =>
    rw [List.foldl_append]
    exact ih.enter r

/-! ### What becomes of each fix -/

/-- How a fix comes to its target: it says where its element stands, or that is found, or there is nothing but a spare
file, if that. -/
inductive Route (search : Signature → Option Match) (place : Location → Path) (spare : Option Path) (f : Fix) :
    Resolution → Prop where
  | told (l : Location) (here : f.location = some l) : Route search place spare f ⟨f, some (place l)⟩
  | found (s : Signature) (m : Match) (unplaced : f.location = none) (signed : f.metadata.signature = some s)
      (best : search s = some m) : Route search place spare f ⟨f.locate m.location, some m.file⟩
  | left (unplaced : f.location = none) (lost : ∀ s, f.metadata.signature = some s → search s = none) :
      Route search place spare f ⟨f, spare⟩

/-- The path that a location names, seen from a directory. -/
def placeOf (t : FileTree) (root : Path) (l : Location) : Path :=
  let source := Path.ofString l.source
  if source.isAbsolute then source else t.home.resolve (root.join source)

section

variable (c : SearchConfig) (t : FileTree) (root : Path) (fallback : Option Path)

/-- Whatever is kept of earlier searches, a fix goes where it would have gone at first, and what is kept then changes
nothing for the fixes behind it. -/
theorem route_of {cache first : CandidateCache} (same : CandidateCache.SameFor c t cache first) (f : Fix) :
    Route (fun s => (c.find t first s root).1) (placeOf t root) (fallback.filter t.exists) f (of c t root fallback cache f).1 ∧
      CandidateCache.SameFor c t (of c t root fallback cache f).2.1 first := by
  cases placed : f.location with
  | some l =>
    simp only [of, placed]
    exact ⟨.told l placed, same⟩
  | none =>
    cases signed : f.metadata.signature with
    | none =>
      simp only [of, placed, signed]
      exact ⟨.left placed (by simp [signed]), same⟩
    | some s =>
      -- The search has seen other caches than the first one, and answers alike.
      have answer := c.find_after same s root
      simp only [of, placed, signed]
      refine ⟨?_, fun p => (c.sameFor_find s root p).trans (same p)⟩
      cases best : (c.find t cache s root).1 with
      | none =>
        refine .left placed fun s' signed' => ?_
        obtain rfl := Option.some.inj (signed.symm.trans signed')
        exact answer.symm.trans best
      | some m => exact .found s m placed signed (answer.symm.trans best)

theorem route_ofAll {cache first : CandidateCache} (same : CandidateCache.SameFor c t cache first) (fixes : List Fix) :
    List.Forall₂ (Route (fun s => (c.find t first s root).1) (placeOf t root) (fallback.filter t.exists)) fixes
      (ofAll c t root fallback cache fixes).1 := by
  induction fixes generalizing cache with
  | nil => exact .nil
  | cons f rest ih =>
    obtain ⟨here, onward⟩ := route_of c t root fallback same f
    exact .cons here (ih onward)

end

end Resolution

/-- The fix that there is no file for. -/
def Event.dropped? : Event → Option Fix
  | warned (.dropped f) => some f
  | _ => none

namespace Resolution

section

variable (c : SearchConfig) (t : FileTree) (root : Path) (fallback : Option Path)

theorem dropped_warnings (r : Resolution) :
    r.warnings.filterMap Event.dropped? = if r.target.isNone then [r.fix] else [] := by
  rw [warnings]
  split <;> rfl

/-- There is one warning for each fix without a target, in order, and none for any other. -/
theorem dropped_ofAll (cache : CandidateCache) (fixes : List Fix) :
    (ofAll c t root fallback cache fixes).2.2.filterMap Event.dropped? =
      ((ofAll c t root fallback cache fixes).1.filter (·.target.isNone)).map (·.fix) := by
  -- A search never warns that a fix is dropped.
  have quiet (notices : List SearchNotice) :
      (notices.map fun n => Event.warned (.search n)).filterMap Event.dropped? = [] := by
    simp [List.filterMap_map, Function.comp_def, Event.dropped?]
  induction fixes generalizing cache with
  | nil => rfl
  | cons f rest ih =>
    have here : (of c t root fallback cache f).2.2.filterMap Event.dropped? =
        if (of c t root fallback cache f).1.target.isNone then [(of c t root fallback cache f).1.fix] else [] := by
      cases placed : f.location with
      | some l => simp [of, placed]
      | none =>
        cases signed : f.metadata.signature with
        | none => simp only [of, placed, signed, dropped_warnings]
        | some s => simp only [of, placed, signed, List.filterMap_append, quiet, dropped_warnings, List.nil_append]
    rw [ofAll, List.filterMap_append, here, ih, List.filter_cons]
    split <;> rfl

end

end Resolution

/-- The file that a search names can be read back from what it is written as. -/
theorem SearchConfig.ofString_text_of_find {c : SearchConfig} {t : FileTree} {cache : CandidateCache} {s : Signature}
    {directory : Path} {m : Match} (h : (c.find t cache s directory).1 = some m) : Path.ofString m.file.text = m.file := by
  rw [find] at h
  obtain ⟨⟨score, d⟩, _, rfl⟩ := Option.map_eq_some_iff.mp h
  exact Path.ofString_text_ofString d.file

namespace Resolution

/-- What resolving is to make of a fix, with a way to search, a place for each location and a spare file. -/
structure Settles (search : Signature → Option Match) (place : Location → Path) (spare : Option Path) (f : Fix)
    (r : Resolution) : Prop where
  /-- A fix that says where its element stands stays as it is, and goes there. -/
  told : ∀ l, f.location = some l → r.fix = f ∧ r.target = some (place l)
  /-- One that is found is told all about the match and stays as it is otherwise, and goes to the file that it is told. -/
  found : ∀ s m, f.location = none → f.metadata.signature = some s → search s = some m →
    let l : Location := ⟨m.file.text, m.candidate.location, m.candidate.closing⟩
    r.fix = { f with metadata := { f.metadata with location := some l } } ∧
      r.target = some (Path.ofString m.file.text) ∧ r.target = some m.file
  /-- Any other one stays as it is, and goes to the spare file if there is one. -/
  left : f.location = none → (∀ s, f.metadata.signature = some s → search s = none) → r.fix = f ∧ r.target = spare
  /-- There is no target just where there is nothing to get one from. -/
  dropped_iff : r.target = none ↔
    f.location = none ∧ (∀ s, f.metadata.signature = some s → search s = none) ∧ spare = none

theorem Route.settles {search : Signature → Option Match} {place : Location → Path} {spare : Option Path} {f : Fix}
    {r : Resolution} (h : Route search place spare f r)
    (named : ∀ s m, search s = some m → Path.ofString m.file.text = m.file) : Settles search place spare f r := by
  -- Each of the routes excludes the others, so of what is to be told of them two parts are void.
  cases h with
  | told l here =>
    refine ⟨fun l' here' => ?_, fun s m unplaced => ?_, fun unplaced => ?_, ?_⟩
    · obtain rfl := Option.some.inj (here.symm.trans here')
      exact ⟨rfl, rfl⟩
    · cases here.symm.trans unplaced
    · cases here.symm.trans unplaced
    · simp [here]
  | found s m unplaced signed best =>
    refine ⟨fun l placed => ?_, fun s' m' _ signed' best' => ?_, fun _ lost => ?_, ?_⟩
    · cases unplaced.symm.trans placed
    · obtain rfl := Option.some.inj (signed.symm.trans signed')
      obtain rfl := Option.some.inj (best.symm.trans best')
      exact ⟨rfl, by rw [named s m best], rfl⟩
    · cases best.symm.trans (lost s signed)
    · simp [signed, best]
  | left unplaced lost =>
    refine ⟨fun l placed => ?_, fun s m _ signed best => ?_, fun _ _ => ⟨rfl, rfl⟩, ?_⟩
    · cases unplaced.symm.trans placed
    · cases best.symm.trans (lost s signed)
    · exact ⟨fun empty => ⟨unplaced, lost, empty⟩, fun ⟨_, _, empty⟩ => empty⟩

end Resolution

namespace Tools

/-- **No fix is lost or doubled when fixes are resolved.** One after the other, each is settled by where it says its element
stands, by the best match, or by the fallback if that is there, and stays as it was but for what it is told of a match. The
groups are a partition of the fixes that have a target, each of which is in one group only, and there is one warning for each of
the others. The match that a search gives is the best one there is, unless something is kept that is not true of the files any
more. -/
theorem resolve_partitions (tools : Tools σ) (fixes : List Fix) (root : Path) (fallback : Option Path) (w : Workspace σ) :
    let rs := (tools.resolve fixes root fallback w).1
    let search (s : Signature) := (tools.config.search.find w.tree w.cache s root).1
    let spare := (fallback.map (Target.redirect w.tree)).filter w.tree.exists
    List.Forall₂ (Resolution.Settles search (Resolution.placeOf w.tree root) spare) fixes rs ∧
    Resolution.Partition rs (Resolution.groups rs) ∧
    (∀ i r file, rs[i]? = some r → r.target = some file →
      ∃! g, g ∈ Resolution.groups rs ∧ i ∈ Resolution.numbersOf rs g.1) ∧
    (tools.resolve fixes root fallback w).2.2.filterMap Event.dropped? = (rs.filter (·.target.isNone)).map (·.fix) ∧
    (w.tree.Sound → w.cache.TrueOf w.tree → ∀ s m, search s = some m →
      tools.config.search.IsBestMatch w.tree s root m) := by
  intro rs search spare
  have partition : Resolution.Partition rs (Resolution.groups rs) := by
    rw [Resolution.groups_eq_foldl]
    exact Resolution.partition_foldl rs
  -- The cache of the workspace is the one that every later search of the run is compared with.
  have routes : List.Forall₂ (Resolution.Route search (Resolution.placeOf w.tree root) spare) fixes rs :=
    Resolution.route_ofAll tools.config.search w.tree root _ (fun _ => rfl) fixes
  have settled : List.Forall₂ (Resolution.Settles search (Resolution.placeOf w.tree root) spare) fixes rs :=
    routes.imp fun f r route => route.settles fun s m => SearchConfig.ofString_text_of_find
  refine ⟨settled, partition, fun i r file => partition.existsUnique, Resolution.dropped_ofAll _ _ _ _ _ fixes, ?_⟩
  intro sound kept s m found
  have best : tools.config.search.best w.tree s root = some m := by rw [← SearchConfig.find_eq _ kept]; exact found
  exact SearchConfig.isBestMatch_of_best _ sound best

end Tools

end Remedy
