import Mathlib.Data.List.Basic
import Mathlib.Data.List.Lex
import Mathlib.Data.List.Sort
import Mathlib.Data.Prod.Lex
import Mathlib.Data.String.Basic
import Remedy.Proofs.Search.Sound

/-!
The files to search are those that a walk meets: one that goes down from a directory, looks at the files of each directory
by name and then at its directories by name, and never enters one whose name is excluded.

The list of files is made in another way: all files below the directory are sorted and those with an excluded name on their
way are dropped. Both lists are sorted strictly by the same order and have the same members, so they are the same.
-/

namespace Remedy

namespace FileTree

variable {t : FileTree}

/-! ### The order of a walk -/

/-- Names with a mark on those of directories, which come after all files. -/
def walkKey : List String → List (Bool ×ₗ String)
  | [] => []
  | [file] => [toLex (false, file)]
  | directory :: rest => toLex (true, directory) :: walkKey rest

theorem walkKey_cons (directory : String) {rest : List String} (h : rest ≠ []) :
    walkKey (directory :: rest) = toLex (true, directory) :: walkKey rest := by
  cases rest with
  | nil => exact absurd rfl h
  | cons n rest => rfl

theorem walkKey_injective : Function.Injective walkKey := by
  intro a
  induction a with
  | nil =>
    intro b same
    match b with
    | [] => rfl
    | [_] => cases same
    | _ :: _ :: _ => cases same
  | cons x as ih =>
    intro b same
    match as, b with
    | [], [] => cases same
    | [], [y] => simpa [walkKey] using same
    | [], _ :: _ :: _ => simp [walkKey] at same
    | _ :: _, [] => cases same
    | _ :: _, [y] => simp [walkKey] at same
    | x' :: as, y :: y' :: bs =>
      simp only [walkKey, List.cons.injEq, EmbeddingLike.apply_eq_iff_eq, Prod.mk.injEq, true_and] at same
      rw [same.1, ih same.2]

/-- The order of a walk is that of the marked names. -/
theorem walkPrecedes_iff (a b : List String) : walkPrecedes a b = true ↔ walkKey a ≤ walkKey b := by
  -- The order of names is decided by what is less, so both sides are read as saying that nothing is less the other way round.
  rw [← not_lt]
  fun_induction walkPrecedes a b with
  | case1 b => simp [walkKey]
  | case2 a nonempty =>
    cases a with
    | nil => exact absurd rfl nonempty
    | cons x as => cases as <;> simp [walkKey]
  | case3 x y =>
    have files : walkKey [y] < walkKey [x] ↔ y < x := by
      simp [walkKey, List.cons_lt_cons_iff, Prod.Lex.toLex_lt_toLex, -String.lt_iff_ltb]
    rw [decide_eq_true_eq, files, not_lt]
  | case4 x b nonempty many =>
    match b with
    | [] => exact absurd rfl nonempty
    | [y] => exact absurd rfl (many y)
    | _ :: _ :: _ => simp [walkKey, List.cons_lt_cons_iff, Prod.Lex.toLex_lt_toLex]
  | case5 a y nonempty many =>
    match a with
    | [] => exact absurd rfl nonempty
    | [x] => exact absurd rfl (many x)
    | _ :: _ :: _ => simp [walkKey, List.cons_lt_cons_iff, Prod.Lex.toLex_lt_toLex]
  | case6 x as y bs _ long long' same ih =>
    rw [walkKey_cons x long, walkKey_cons y long', eq_of_beq same, List.cons_lt_cons_iff]
    simpa using ih
  | case7 x as y bs _ long long' other =>
    have apart : x ≠ y := by simpa using other
    have directories : walkKey (y :: bs) < walkKey (x :: as) ↔ y < x := by
      rw [walkKey_cons x long, walkKey_cons y long', List.cons_lt_cons_iff]
      simp [Prod.Lex.toLex_lt_toLex, apart.symm, -String.lt_iff_ltb]
    rw [decide_eq_true_eq, directories, not_lt]
    exact ⟨le_of_lt, fun before => lt_of_le_of_ne before apart⟩

theorem walkPrecedes_trans (a b c : List String) (ab : walkPrecedes a b = true) (bc : walkPrecedes b c = true) :
    walkPrecedes a c = true := by
  rw [walkPrecedes_iff] at ab bc ⊢
  exact le_trans ab bc

theorem walkPrecedes_total (a b : List String) : (walkPrecedes a b || walkPrecedes b a) = true := by
  rw [Bool.or_eq_true, walkPrecedes_iff, walkPrecedes_iff]
  exact le_total _ _

/-! ### What is below a directory -/

/-- A path is cut at a directory if it goes on below that. -/
theorem cut_eq_some_iff {directory p : Path} {names : List String} :
    (if p.root == directory.root && directory.names.isPrefixOf p.names && directory.names.length < p.names.length then
      some (p.names.drop directory.names.length) else none) = some names ↔
      names ≠ [] ∧ p = ⟨directory.root, directory.names ++ names⟩ := by
  simp only [Option.ite_none_right_eq_some, Bool.and_eq_true, beq_iff_eq, decide_eq_true_eq, Option.some.injEq]
  constructor
  · rintro ⟨⟨⟨root, front⟩, longer⟩, rfl⟩
    obtain ⟨rest, whole⟩ := List.isPrefixOf_iff_prefix.mp front
    constructor
    · rw [ne_eq, List.drop_eq_nil_iff]
      exact Nat.not_le_of_lt longer
    · rw [← root, ← whole, List.drop_left, whole]
  · rintro ⟨nonempty, rfl⟩
    have longer := List.length_pos_of_ne_nil nonempty
    simp [longer]

theorem mem_below {directory : Path} {names : List String} :
    names ∈ t.below directory ↔ names ≠ [] ∧ ∃ f, (⟨directory.root, directory.names ++ names⟩, f) ∈ t.files := by
  rw [below, List.mem_mergeSort, List.mem_filterMap]
  constructor
  · rintro ⟨⟨p, f⟩, member, inside⟩
    obtain ⟨nonempty, rfl⟩ := cut_eq_some_iff.mp inside
    exact ⟨nonempty, f, member⟩
  · rintro ⟨nonempty, f, member⟩
    exact ⟨_, member, cut_eq_some_iff.mpr ⟨nonempty, rfl⟩⟩

theorem Sound.nodup_below (h : t.Sound) (directory : Path) : (t.below directory).Nodup := by
  rw [below, List.nodup_mergeSort, List.Nodup, List.pairwise_filterMap]
  refine (List.pairwise_map.mp h.single).imp ?_
  intro entry other apart names here names' there same
  -- Two files below one directory that are reached by the same names stand at the same place.
  rw [(cut_eq_some_iff.mp here).2, (cut_eq_some_iff.mp there).2, same] at apart
  exact apart rfl

/-- Everything below a directory is listed in the order of a walk. -/
theorem Sound.pairwise_below (h : t.Sound) (directory : Path) :
    (t.below directory).Pairwise fun a b => walkKey a < walkKey b := by
  have sorted : (t.below directory).Pairwise fun a b => walkPrecedes a b = true :=
    List.pairwise_mergeSort walkPrecedes_trans walkPrecedes_total _
  refine (sorted.and (h.nodup_below directory)).imp ?_
  rintro a b ⟨before, other⟩
  exact lt_of_le_of_ne ((walkPrecedes_iff a b).mp before) (walkKey_injective.ne other)

/-! ### One directory -/

/-- The names in a directory of some places, in their order. -/
def namesIn (directory : Path) (places : List Path) : List String :=
  (places.filterMap fun p => if p == directory.child p.name then some p.name else none).mergeSort

theorem mem_namesIn {directory : Path} {places : List Path} {n : String} :
    n ∈ namesIn directory places ↔ directory.child n ∈ places := by
  rw [namesIn, List.mem_mergeSort, List.mem_filterMap]
  constructor
  · rintro ⟨p, member, inside⟩
    simp only [Option.ite_none_right_eq_some, beq_iff_eq, Option.some.injEq] at inside
    obtain ⟨place, rfl⟩ := inside
    rw [← place]
    exact member
  · intro member
    exact ⟨_, member, by simp [Path.child, Path.name]⟩

theorem pairwise_namesIn {directory : Path} {places : List Path} (once : places.Nodup) :
    (namesIn directory places).Pairwise (· < ·) := by
  have distinct : (namesIn directory places).Nodup := by
    rw [namesIn, List.nodup_mergeSort, List.Nodup, List.pairwise_filterMap]
    refine once.imp ?_
    intro p q apart n here m there same
    simp only [Option.ite_none_right_eq_some, beq_iff_eq, Option.some.injEq] at here there
    rw [here.1, there.1, here.2, there.2, same] at apart
    exact apart rfl
  refine (List.sortedLE_mergeSort.pairwise.and distinct).imp ?_
  rintro m n ⟨before, other⟩
  exact lt_of_le_of_ne before other

end FileTree

namespace SearchConfig

variable (c : SearchConfig) {t : FileTree}

/-- Whether a file of this name is searched. -/
def reads (name : String) : Bool := (c.extensions.map Text.lower).contains (⟨"", [name]⟩ : Path).extension

/-- Whether a directory of this name is entered. -/
def enters (name : String) : Bool := !c.excludeDirs.contains name

/-- The names that lead from a directory to the files that a walk meets. It goes no deeper than is said. -/
def walk (t : FileTree) : Nat → Path → List (List String)
  | 0, _ => []
  | depth + 1, directory =>
    ((FileTree.namesIn directory (t.files.map Prod.fst)).filter c.reads).map (fun n => [n]) ++
      ((FileTree.namesIn directory t.directories).filter c.enters).flatMap fun n =>
        (walk t depth (directory.child n)).map (n :: ·)

theorem covers_singleton (n : String) : c.covers [n] = c.reads n := by
  simp [covers, reads]

theorem covers_cons (n : String) {rest : List String} (h : rest ≠ []) :
    c.covers (n :: rest) = (c.enters n && c.covers rest) := by
  have name : Path.name ⟨"", n :: rest⟩ = Path.name ⟨"", rest⟩ := by
    cases rest with
    | nil => exact absurd rfl h
    | cons m rest => simp [Path.name]
  rw [covers, covers, enters, List.dropLast_cons_of_ne_nil h, List.all_cons, Path.extension, Path.suffix, name, Path.extension,
    Path.suffix, Bool.and_assoc]

theorem mem_walk (sound : t.Sound) {depth : Nat} {directory : Path} {names : List String} :
    names ∈ c.walk t depth directory ↔
      (names ≠ [] ∧ ∃ f, (⟨directory.root, directory.names ++ names⟩, f) ∈ t.files) ∧ c.covers names = true ∧
        names.length ≤ depth := by
  -- A walk goes down name by name, so the depth that is left goes with the names that are left.
  induction depth generalizing directory names with
  | zero =>
    rw [walk]
    constructor
    · intro member
      cases member
    · rintro ⟨⟨nonempty, -⟩, -, short⟩
      exact absurd (List.length_eq_zero_iff.mp (Nat.le_zero.mp short)) nonempty
  | succ depth ih =>
    rw [walk, List.mem_append, List.mem_map, List.mem_flatMap]
    constructor
    · rintro (⟨n, member, rfl⟩ | ⟨n, member, inside⟩)
      · obtain ⟨here, read⟩ := List.mem_filter.mp member
        obtain ⟨⟨p, f⟩, stands, place⟩ := List.mem_map.mp (FileTree.mem_namesIn.mp here)
        obtain rfl : p = directory.child n := place
        refine ⟨⟨List.cons_ne_nil n [], f, stands⟩, ?_, Nat.le_add_left 1 depth⟩
        rw [c.covers_singleton, read]
      · obtain ⟨-, entered⟩ := List.mem_filter.mp member
        obtain ⟨rest, met, rfl⟩ := List.mem_map.mp inside
        obtain ⟨⟨nonempty, f, stands⟩, covered, short⟩ := ih.mp met
        rw [Path.child, List.append_assoc, List.singleton_append] at stands
        refine ⟨⟨List.cons_ne_nil n rest, f, stands⟩, ?_, Nat.succ_le_succ short⟩
        rw [c.covers_cons n nonempty, entered, covered, Bool.and_self]
    · rintro ⟨⟨nonempty, f, stands⟩, covered, short⟩
      cases names with
      | nil => exact absurd rfl nonempty
      | cons n rest =>
        by_cases last : rest = []
        · subst last
          refine Or.inl ⟨n, List.mem_filter.mpr ⟨?_, ?_⟩, rfl⟩
          · exact FileTree.mem_namesIn.mpr (List.mem_map_of_mem stands)
          · rw [← c.covers_singleton, covered]
        · rw [c.covers_cons n last, Bool.and_eq_true] at covered
          refine Or.inr ⟨n, List.mem_filter.mpr ⟨?_, covered.1⟩, ?_⟩
          · -- The file is further below, so the next name on the way to it is that of a directory.
            have there := sound.above _ f stands (directory.names ++ [n]) ?_ ?_
            · rw [FileTree.isDirectory, Bool.and_eq_true, Bool.or_eq_true, List.isEmpty_iff] at there
              rcases there.2 with nothing | listed
              · exact absurd nothing (List.append_ne_nil_of_right_ne_nil _ (List.cons_ne_nil n []))
              · exact FileTree.mem_namesIn.mpr (List.contains_iff_mem.mp listed)
            · exact (List.prefix_append_right_inj _).mpr ((List.prefix_cons_inj n).mpr List.nil_prefix)
            · intro same
              exact last (List.cons.inj (List.append_cancel_left same)).2.symm
          · refine List.mem_map.mpr ⟨rest, ih.mpr ⟨⟨last, f, ?_⟩, covered.2, Nat.le_of_succ_le_succ short⟩, rfl⟩
            rw [Path.child, List.append_assoc, List.singleton_append]
            exact stands

theorem pairwise_walk (sound : t.Sound) (depth : Nat) (directory : Path) :
    (c.walk t depth directory).Pairwise fun a b => FileTree.walkKey a < FileTree.walkKey b := by
  induction depth generalizing directory with
  | zero => exact List.Pairwise.nil
  | succ depth ih =>
    have below {n : String} {rest : List String} (met : rest ∈ c.walk t depth (directory.child n)) :
        FileTree.walkKey (n :: rest) = toLex (true, n) :: FileTree.walkKey rest :=
      FileTree.walkKey_cons n ((c.mem_walk sound).mp met).1.1
    rw [walk, List.pairwise_append, List.pairwise_map, List.pairwise_flatMap]
    refine ⟨?_, ⟨?_, ?_⟩, ?_⟩
    · -- Files, one by one.
      refine ((FileTree.pairwise_namesIn sound.single).filter c.reads).imp ?_
      intro m n less
      simpa [FileTree.walkKey, List.cons_lt_cons_iff, Prod.Lex.toLex_lt_toLex, -String.lt_iff_ltb] using less
    · -- What is in one directory.
      intro n _
      rw [List.pairwise_map]
      refine (ih (directory.child n)).imp_of_mem ?_
      intro a b ha hb less
      rw [below ha, below hb, List.cons_lt_cons_iff]
      exact Or.inr ⟨rfl, less⟩
    · -- What is in two directories.
      refine ((FileTree.pairwise_namesIn sound.distinct).filter c.enters).imp ?_
      intro m n less a ha b hb
      obtain ⟨as, met, rfl⟩ := List.mem_map.mp ha
      obtain ⟨bs, met', rfl⟩ := List.mem_map.mp hb
      rw [below met, below met', List.cons_lt_cons_iff]
      exact Or.inl (Prod.Lex.toLex_lt_toLex.mpr (Or.inr ⟨rfl, less⟩))
    · -- Files come before what is in directories.
      intro a ha b hb
      obtain ⟨m, -, rfl⟩ := List.mem_map.mp ha
      obtain ⟨n, -, inside⟩ := List.mem_flatMap.mp hb
      obtain ⟨bs, met, rfl⟩ := List.mem_map.mp inside
      rw [below met, FileTree.walkKey, List.cons_lt_cons_iff]
      exact Or.inl (Prod.Lex.toLex_lt_toLex.mpr (Or.inl Bool.false_lt_true))

/-- A walk that goes down far enough meets the files to search, in the same order. -/
theorem files_eq_walk (sound : t.Sound) (directory : Path) {depth : Nat}
    (deep : ∀ p f, (p, f) ∈ t.files → p.names.length ≤ depth) :
    let start := t.home.resolve directory
    c.files t directory = (c.walk t depth start).map fun names => ⟨start.root, start.names ++ names⟩ := by
  intro start
  have : Std.Irrefl fun a b => FileTree.walkKey a < FileTree.walkKey b := ⟨fun a => lt_irrefl _⟩
  have : Std.Antisymm fun a b => FileTree.walkKey a < FileTree.walkKey b :=
    ⟨fun a b less more => absurd less (lt_asymm more)⟩
  have same : (t.below start).filter c.covers = c.walk t depth start := by
    refine ((sound.pairwise_below start).filter c.covers).eq_of_mem_iff (c.pairwise_walk sound depth start) ?_
    intro names
    rw [List.mem_filter, FileTree.mem_below, c.mem_walk sound]
    constructor
    · rintro ⟨⟨nonempty, f, stands⟩, covered⟩
      have short := deep _ f stands
      rw [List.length_append] at short
      exact ⟨⟨nonempty, f, stands⟩, covered, Nat.le_trans (Nat.le_add_left _ _) short⟩
    · rintro ⟨below, covered, -⟩
      exact ⟨below, covered⟩
  rw [files, same]

end SearchConfig

end Remedy
