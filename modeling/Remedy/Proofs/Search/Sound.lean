import Mathlib.Data.List.Nodup
import Remedy.Proofs.Files.Lookup
import Remedy.Proofs.Search.Found

/-!
Trees as they can be on a disk. Every file that such a tree holds can be read, and the tree stays one of this kind when files
are written and deleted.
-/

namespace Remedy

/-- A tree as it can be on a disk: a place has one file at most, every file is in a directory that is there and is itself in
one, and no directory is listed twice. -/
structure FileTree.Sound (t : FileTree) : Prop extends FileTree.Canonical t where
  single : (t.files.map Prod.fst).Nodup
  above : ∀ p f, (p, f) ∈ t.files → ∀ names, names <+: p.names → names ≠ p.names → t.isDirectory ⟨p.root, names⟩ = true
  distinct : t.directories.Nodup

namespace FileTree

variable {t : FileTree}

/-! ### Files of a sound tree can be read -/

theorem follow_ok {whole here : Path} {names : List String} (plain : ".." ∉ names)
    (above : ∀ front, front <+: names → front ≠ names → t.isDirectory ⟨here.root, here.names ++ front⟩ = true) :
    t.follow whole here names = .ok ⟨here.root, here.names ++ names⟩ := by
  induction names generalizing here with
  | nil => rw [follow, List.append_nil]
  | cons n rest ih =>
    -- Each name on the way leads into a directory, since all in front of it is one.
    rw [List.mem_cons, not_or] at plain
    have now := above [] List.nil_prefix (List.cons_ne_nil n rest).symm
    rw [List.append_nil] at now
    rw [follow, if_pos now, if_neg (by simpa using Ne.symm plain.1), ih plain.2, Path.child, List.append_assoc,
      List.singleton_append]
    intro front before strict
    rw [Path.child, List.append_assoc, List.singleton_append]
    exact above (n :: front) ((List.prefix_cons_inj n).mpr before) fun same => strict (List.cons.inj same).2

theorem Sound.file?_of_mem (h : t.Sound) {p : Path} {f : File} (member : (p, f) ∈ t.files) : t.file? p = some f := by
  obtain ⟨before, after, split⟩ := List.append_of_mem member
  have single := h.single
  rw [split, List.map_append, List.map_cons] at single
  have first := (List.nodup_append.mp single).2.2
  rw [file?, split]
  refine List.lookup_eq_some_iff.mpr ⟨before, after, rfl, fun entry earlier => ?_⟩
  rw [bne_iff_ne]
  exact (first entry.1 (List.mem_map_of_mem earlier) p List.mem_cons_self).symm

theorem Sound.read_of_mem (h : t.Sound) {p : Path} {f : File} (member : (p, f) ∈ t.files) : t.read p = .ok f := by
  obtain ⟨canonical, -⟩ := h.files p f member
  have absolute := canonical.isAbsolute
  have place : t.place p = .ok p := by
    rw [place, Path.join, if_pos absolute]
    refine (t.follow_ok canonical.plain fun front before strict => ?_).trans ?_
    · rw [Path.origin, if_pos absolute, ← canonical.root]
      exact h.above p f member front before strict
    · rw [Path.origin, if_pos absolute, ← canonical.root]
      rfl
  rw [read, place]
  simp only [bind, Except.bind, h.file?_of_mem member]

theorem mem_of_file? {p : Path} {f : File} (h : t.file? p = some f) : (p, f) ∈ t.files := by
  obtain ⟨before, after, entry, -⟩ := List.lookup_eq_some_iff.mp h
  rw [entry]
  exact List.mem_append_right before List.mem_cons_self

/-! ### Writing and deleting -/

theorem mem_ancestors {p q : Path} : q ∈ p.ancestors ↔ q.root = p.root ∧ q.names <+: p.names := by
  rw [Path.ancestors, List.mem_map]
  constructor
  · rintro ⟨n, -, rfl⟩
    exact ⟨rfl, List.take_prefix n p.names⟩
  · rintro ⟨root, front⟩
    refine ⟨q.names.length, List.mem_range.mpr (Nat.lt_succ_of_le front.length_le), ?_⟩
    rw [← List.prefix_iff_eq_take.mp front, ← root]

theorem nodup_ancestors (p : Path) : p.ancestors.Nodup := by
  rw [Path.ancestors, List.Nodup, List.pairwise_map]
  refine (List.nodup_range (n := p.names.length + 1)).imp_of_mem fun {m n} hm hn other same => other ?_
  have lengths := congrArg List.length (Path.mk.inj same).2
  rw [List.mem_range] at hm hn
  rw [List.length_take, List.length_take] at lengths
  omega

theorem keys_store (entries : List (Path × File)) (p : Path) (f : File) :
    (store entries p f).map Prod.fst =
      if p ∈ entries.map Prod.fst then entries.map Prod.fst else entries.map Prod.fst ++ [p] := by
  have held : (entries.any fun entry => entry.1 == p) = true ↔ p ∈ entries.map Prod.fst := by
    simp [List.any_eq_true, List.mem_map]
  rw [store]
  by_cases member : p ∈ entries.map Prod.fst
  · rw [if_pos (held.mpr member), if_pos member, List.map_map]
    rfl
  · rw [if_neg (fun h => member (held.mp h)), if_neg member, List.map_append]
    rfl

theorem mem_store {entries : List (Path × File)} {p q : Path} {f g : File} (h : (q, g) ∈ store entries p f) :
    q = p ∨ (q, g) ∈ entries := by
  rw [store] at h
  split at h
  · obtain ⟨⟨r, e⟩, member, same⟩ := List.mem_map.mp h
    obtain ⟨rfl, rfl⟩ := Prod.mk.inj same
    by_cases here : r = p
    · exact Or.inl here
    · right
      simpa [here] using member
  · rcases List.mem_append.mp h with old | new
    · exact Or.inr old
    · exact Or.inl (Prod.mk.inj (List.mem_singleton.mp new)).1

theorem prefix_dropLast {front names : List String} (h : front <+: names) (strict : front ≠ names) :
    front <+: names.dropLast := by
  obtain ⟨rest, rfl⟩ := h
  have nonempty : rest ≠ [] := by
    rintro rfl
    exact strict (List.append_nil front).symm
  rw [List.dropLast_append_of_ne_nil nonempty]
  exact List.prefix_append front rest.dropLast

theorem sound_empty {home : Path} (absolute : home.isAbsolute = true) : (empty home).Sound where
  home := absolute
  files _ _ member := absurd member List.not_mem_nil
  single := List.nodup_nil
  above _ _ member := absurd member List.not_mem_nil
  distinct := nodup_ancestors home

/-- A file can be put anywhere but over a directory or below a file. -/
theorem Sound.put (h : t.Sound) {p : Path} (canonical : p.Canonical) (proper : ∀ n ∈ p.names, Path.IsName n)
    (free : t.isDirectory p = false)
    (way : ∀ front, front <+: p.names → front ≠ p.names → t.file? ⟨p.root, front⟩ = none) (f : File) :
    (t.put p f).Sound := by
  have listed (d : Path) : d ∈ (t.put p f).directories ↔ d ∈ t.directories ∨ d ∈ p.parent.ancestors := by
    change d ∈ t.directories ++ p.parent.ancestors.filter (fun d => !t.directories.contains d) ↔ _
    rw [List.mem_append, List.mem_filter, Bool.not_eq_true', ← Bool.not_eq_true, List.contains_iff_mem]
    by_cases old : d ∈ t.directories <;> simp [old]
  refine ⟨⟨h.home, fun q g member => ?_⟩, ?_, fun q g member front before strict => ?_, ?_⟩
  · rcases mem_store member with rfl | old
    · exact ⟨canonical, proper⟩
    · exact h.files q g old
  · change ((store t.files p f).map Prod.fst).Nodup
    rw [keys_store]
    split
    next => exact h.single
    next new => exact List.nodup_append.mpr ⟨h.single, List.nodup_singleton p, by grind⟩
  · rw [isDirectory, file?_put, Bool.and_eq_true, Bool.or_eq_true, List.contains_iff_mem, listed]
    rcases mem_store member with rfl | old
    · -- The directories above the new file are there or are made.
      have other : (⟨q.root, front⟩ : Path) ≠ q := fun same => strict (congrArg Path.names same)
      rw [if_neg other, way front before strict]
      exact ⟨rfl, Or.inr (Or.inr (mem_ancestors.mpr ⟨rfl, prefix_dropLast before strict⟩))⟩
    -- What is above an older file is a directory, and the new file does not stand there.
    · have there := h.above q g old front before strict
      have other : (⟨q.root, front⟩ : Path) ≠ p := by
        rintro rfl
        rw [free] at there
        cases there
      rw [isDirectory, Bool.and_eq_true, Bool.or_eq_true, List.contains_iff_mem] at there
      rw [if_neg other]
      exact ⟨there.1, there.2.imp id Or.inl⟩
  · refine List.nodup_append.mpr ⟨h.distinct, (nodup_ancestors _).filter _, fun d old e new same => ?_⟩
    have fresh := (List.mem_filter.mp new).2
    rw [← same, Bool.not_eq_true', ← Bool.not_eq_true, List.contains_iff_mem] at fresh
    exact fresh old

theorem Sound.delete (h : t.Sound) {p : Path} {u : FileTree} (deleted : t.delete p = .ok u) : u.Sound := by
  obtain rfl := delete_eq deleted
  refine ⟨⟨h.home, fun q g member => ?_⟩, ?_, fun q g member front before strict => ?_, h.distinct⟩
  · exact h.files q g (List.mem_filter.mp member).1
  · exact h.single.sublist (List.filter_sublist.map Prod.fst)
  · have there := h.above q g (List.mem_filter.mp member).1 front before strict
    rw [isDirectory, Bool.and_eq_true, Option.isNone_iff_eq_none, file?, List.lookup_eq_none_iff] at there ⊢
    exact ⟨fun entry left => there.1 entry (List.mem_filter.mp left).1, there.2⟩

end FileTree

end Remedy
