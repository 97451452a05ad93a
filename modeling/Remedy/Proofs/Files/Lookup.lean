import Remedy.Files.Tree
import Mathlib.Data.List.Basic

/-!
What stands where in a tree of files. A file that is put at a place is found there, and nothing changes anywhere else; a
path that can be followed at all leads to the place it resolves to.
-/

namespace Remedy.FileTree

/-! ### Putting a file at a place -/

theorem lookup_store (entries : List (Path × File)) (p q : Path) (f : File) :
    (store entries p f).lookup q = if q = p then some f else entries.lookup q := by
  have mapped (entries : List (Path × File)) :
      (entries.map fun entry => (entry.1, if entry.1 == p then f else entry.2)).lookup q =
        (entries.lookup q).map fun g => if q == p then f else g := by
    induction entries with
    | nil => rfl
    | cons entry rest ih =>
      rw [List.map_cons, List.lookup_cons, List.lookup_cons]
      cases same : q == entry.1 with
      | true => rw [eq_of_beq same]; rfl
      | false => exact ih
  rw [store]
  split
  next held =>
    -- All entries of the key are replaced at once, so the first one is.
    change (entries.map fun entry => (entry.1, if entry.1 == p then f else entry.2)).lookup q = _
    rw [mapped]
    by_cases same : q = p
    · subst same
      obtain ⟨⟨r, g⟩, member, equal⟩ := List.any_eq_true.mp held
      have found : (entries.lookup q).isSome := by
        rw [List.lookup_isSome_iff]
        exact ⟨_, member, by simpa using (eq_of_beq equal).symm⟩
      obtain ⟨old, found⟩ := Option.isSome_iff_exists.mp found
      simp [found]
    · simp [same]
  next free =>
    rw [List.lookup_append]
    by_cases same : q = p
    · subst same
      have absent : entries.lookup q = none := by
        rw [List.lookup_eq_none_iff]
        intro entry member
        have other : ¬(entry.1 == q) = true := List.any_eq_false.mp (Bool.eq_false_iff.mpr free) entry member
        rw [bne_iff_ne]
        rintro rfl
        exact other (beq_self_eq_true _)
      simp [absent]
    · have other : (q == p) = false := by simpa using same
      simp [List.lookup_cons, other, same]

@[simp] theorem home_put (t : FileTree) (p : Path) (f : File) : (t.put p f).home = t.home := rfl

theorem file?_put (t : FileTree) (p q : Path) (f : File) :
    (t.put p f).file? q = if q = p then some f else t.file? q :=
  lookup_store t.files p q f

/-! ### Following a path -/

theorem follow_eq {t : FileTree} {whole here q : Path} {names : List String}
    (h : t.follow whole here names = .ok q) : q = ⟨here.root, Path.climb here.names.reverse names⟩ := by
  induction names generalizing here with
  | nil =>
    rw [follow, Except.ok.injEq] at h
    simp [Path.climb, ← h]
  | cons n rest ih =>
    rw [follow] at h
    split at h
    · rw [ih h]
      by_cases up : n = ".."
      · subst up
        simp [Path.climb, Path.parent]
      · simp [Path.climb, Path.child, up]
    · split at h <;> contradiction

/-- A path that can be followed leads to the place it resolves to. -/
theorem place_eq {t : FileTree} {p q : Path} (h : t.place p = .ok q) : q = t.home.resolve p :=
  follow_eq h

/-- A file that can be read stands at the place its path resolves to. -/
theorem place_of_read {t : FileTree} {p : Path} {f : File} (h : t.read p = .ok f) :
    t.place p = .ok (t.home.resolve p) ∧ t.file? (t.home.resolve p) = some f := by
  rw [read] at h
  cases placed : t.place p with
  | error e => simp [placed, bind, Except.bind] at h
  | ok q =>
    obtain rfl := place_eq placed
    cases found : t.file? (t.home.resolve p) with
    | none =>
      cases directory : t.isDirectory (t.home.resolve p) <;> simp [placed, found, directory, bind, Except.bind] at h
    | some g => exact ⟨rfl, by simpa [placed, found, bind, Except.bind] using h⟩

theorem place_of_readText {t : FileTree} {p : Path} {text : String} (h : t.readText p = .ok text) :
    t.place p = .ok (t.home.resolve p) ∧ ∃ f, t.file? (t.home.resolve p) = some f ∧ textOf f = .ok text := by
  rw [readText] at h
  cases found : t.read p with
  | error e => simp [found, bind, Except.bind] at h
  | ok f =>
    obtain ⟨placed, stands⟩ := place_of_read found
    exact ⟨placed, f, stands, by simpa [found, bind, Except.bind] using h⟩

/-- A text that is written over a file that can be read is put where that file stands. -/
theorem writeText_of_readText {t : FileTree} {p : Path} {text : String} (h : t.readText p = .ok text)
    (content : String) (time : Nat) :
    t.writeText p content time = t.put (t.home.resolve p) ⟨Text.encode content.toList, time⟩ := by
  obtain ⟨placed, f, found, _⟩ := place_of_readText h
  have file : t.isDirectory (t.home.resolve p) = false := by simp [isDirectory, found]
  simp [writeText, placed, file, putText]

theorem delete_eq {t u : FileTree} {p : Path} (h : t.delete p = .ok u) :
    u = { t with files := t.files.filter fun (r, _) => r != t.home.resolve p } := by
  rw [delete] at h
  cases found : t.read p with
  | error e => simp [found, bind, Except.bind] at h
  | ok f =>
    simp only [found, (place_of_read found).1, bind, Except.bind, Except.ok.injEq] at h
    exact h.symm

end Remedy.FileTree
