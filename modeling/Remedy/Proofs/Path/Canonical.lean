import Mathlib.Data.List.Basic
import Remedy.Proofs.Path.Resolve

/-!
Canonical paths: absolute ones, with one slash in front and no steps upwards. Resolving a path makes it canonical, and a
canonical path is its own resolution, so two of them lead to one place only if they are the same.

Files are kept by such paths. Where their names are ones that can stand between slashes, what a path is written as can be
read back.
-/

namespace Remedy.Path

/-- A path from the root, without steps upwards. -/
structure Canonical (p : Path) : Prop where
  root : p.root = "/"
  plain : ".." ∉ p.names

/-- What can stand between two slashes and is not dropped there. -/
def IsName (n : String) : Prop := n ≠ "" ∧ n ≠ "." ∧ '/' ∉ n.toList

instance (p : Path) : Decidable p.Canonical :=
  decidable_of_iff (p.root = "/" ∧ ".." ∉ p.names) ⟨fun h => ⟨h.1, h.2⟩, fun h => ⟨h.root, h.plain⟩⟩

instance (n : String) : Decidable (IsName n) := by
  unfold IsName
  infer_instance

/-! ### Resolving -/

theorem climb_plain (above : List String) {names : List String} (h : ".." ∉ names) :
    climb above names = above.reverse ++ names := by
  induction names generalizing above with
  | nil => simp [climb]
  | cons n rest ih =>
    rw [List.mem_cons, not_or] at h
    simp [climb, Ne.symm h.1, ih _ h.2]

theorem not_mem_climb {above : List String} (h : ".." ∉ above) (names : List String) : ".." ∉ climb above names := by
  induction names generalizing above with
  | nil => simpa [climb] using h
  | cons n rest ih =>
    by_cases up : n = ".."
    · subst up
      rw [climb]
      exact ih fun member => h (List.mem_of_mem_tail member)
    · simp only [climb]
      exact ih (by simpa [Ne.symm up] using h)

theorem isAbsolute_join {directory : Path} (h : directory.isAbsolute = true) (p : Path) :
    (directory.join p).isAbsolute = true := by
  rw [join]
  split
  next absolute => exact absolute
  next => exact h

theorem canonical_resolve {directory : Path} (h : directory.isAbsolute = true) (p : Path) :
    (directory.resolve p).Canonical where
  root := by simp [resolve, origin, isAbsolute_join h p]
  plain := not_mem_climb List.not_mem_nil _

theorem Canonical.isAbsolute {p : Path} (h : p.Canonical) : p.isAbsolute = true := by
  rw [Path.isAbsolute, h.root]
  rfl

theorem Canonical.resolve_eq {p : Path} (h : p.Canonical) (directory : Path) : directory.resolve p = p := by
  have absolute := h.isAbsolute
  have join : directory.join p = p := by rw [Path.join, if_pos absolute]
  rw [resolve, join, climb_plain [] h.plain, origin, if_pos absolute, ← h.root]
  rfl

/-! ### Writing and reading back -/

theorem namesFrom_append_slash (word : List Char) {cs : List Char} (h : '/' ∉ cs) (rest : List Char) :
    namesFrom word (cs ++ '/' :: rest) = (word.reverse ++ cs) :: namesFrom [] rest := by
  induction cs generalizing word with
  | nil => simp [namesFrom]
  | cons c cs ih =>
    rw [List.mem_cons, not_or] at h
    rw [List.cons_append, namesFrom, if_neg (by simpa using Ne.symm h.1), ih _ h.2, List.reverse_cons, List.append_assoc,
      List.singleton_append]

theorem namesFrom_intercalate {words : List (List Char)} (nonempty : words ≠ []) (h : ∀ w ∈ words, '/' ∉ w) :
    namesFrom [] (['/'].intercalate words) = words := by
  induction words with
  | nil => exact absurd rfl nonempty
  | cons w rest ih =>
    have plain := h w List.mem_cons_self
    cases rest with
    | nil => rw [List.intercalate_singleton, namesFrom_plain [] plain, List.reverse_nil, List.nil_append]
    | cons v rest =>
      rw [List.intercalate_cons_cons, List.append_assoc, List.singleton_append, namesFrom_append_slash [] plain,
        ih (List.cons_ne_nil _ _) fun x member => h x (List.mem_cons_of_mem w member)]
      rfl

/-- Names with slashes between them do not begin with a slash. -/
theorem intercalate_ne_slash {names : List String} (h : ∀ n ∈ names, IsName n) (rest : List Char) :
    ['/'].intercalate (names.map String.toList) ≠ '/' :: rest := by
  intro slash
  cases names with
  | nil => simp at slash
  | cons n others =>
    obtain ⟨nonempty, _, plain⟩ := h n List.mem_cons_self
    cases chars : n.toList with
    | nil => exact nonempty (String.toList_eq_nil_iff.mp chars)
    | cons c cs =>
      have head : c = '/' := by
        cases others with
        | nil =>
          simp only [List.map_cons, List.map_nil, List.intercalate_singleton, chars] at slash
          exact (List.cons.inj slash).1
        | cons m others =>
          simp only [List.map_cons, List.intercalate_cons_cons, chars, List.cons_append] at slash
          exact (List.cons.inj slash).1
      exact plain (by rw [chars, head]; exact List.mem_cons_self)

/-- A root that can stand in front of names: there are three ways to write one. -/
def IsRoot (root : String) : Prop := root ∈ ["", "/", "//"]

theorem IsRoot.ways {root : String} (h : IsRoot root) : root = "" ∨ root = "/" ∨ root = "//" := by
  simpa [IsRoot] using h

theorem rootOf_append {root : String} (h : IsRoot root) {cs : List Char} (plain : ∀ rest, cs ≠ '/' :: rest) :
    rootOf (root.toList ++ cs) = root := by
  cases cs with
  | nil => rcases h.ways with rfl | rfl | rfl <;> rfl
  | cons c rest =>
    have other : c ≠ '/' := fun slash => plain rest (by rw [slash])
    rcases h.ways with rfl | rfl | rfl <;> simp [rootOf, other]

/-- The names that are read from a text: those between slashes that are not dropped. -/
def namesOf (cs : List Char) : List String := ((namesFrom [] cs).map String.ofList).filter fun n => n != "" && n != "."

theorem namesOf_slash (cs : List Char) : namesOf ('/' :: cs) = namesOf cs := by
  simp [namesOf, namesFrom]

theorem namesOf_intercalate {names : List String} (h : ∀ n ∈ names, IsName n) :
    namesOf (['/'].intercalate (names.map String.toList)) = names := by
  have kept : names.filter (fun n => n != "" && n != ".") = names := by
    rw [List.filter_eq_self]
    intro n member
    obtain ⟨nonempty, point, _⟩ := h n member
    simp [nonempty, point]
  have plain : ∀ w ∈ names.map String.toList, '/' ∉ w := by
    intro w member
    obtain ⟨n, inside, rfl⟩ := List.mem_map.mp member
    exact (h n inside).2.2
  cases names with
  | nil => rfl
  | cons n rest =>
    have back : ((n :: rest).map String.toList).map String.ofList = n :: rest := by simp
    rw [namesOf, namesFrom_intercalate (by simp) plain, back, kept]

theorem toList_written (root : String) (names : List String) :
    (root ++ "/".intercalate names).toList = root.toList ++ ['/'].intercalate (names.map String.toList) := by
  rw [String.toList_append, String.toList_intercalate]
  rfl

/-- What a path is written as is read back as the path, if its names are ones that can stand between slashes. -/
theorem ofString_text {p : Path} (root : IsRoot p.root) (names : ∀ n ∈ p.names, IsName n) : ofString p.text = p := by
  obtain ⟨front, ns⟩ := p
  simp only at root names
  have chars := toList_written front ns
  rw [text]
  split
  next empty =>
    -- Only the path without root and names is written as a point.
    rw [String.isEmpty_iff, ← String.toList_eq_nil_iff, chars, List.append_eq_nil_iff] at empty
    obtain ⟨bare, nameless⟩ := empty
    obtain rfl := String.toList_eq_nil_iff.mp bare
    have slashes := namesOf_intercalate names
    rw [nameless] at slashes
    rw [← slashes]
    rfl
  next =>
    have slashes : namesOf (front.toList ++ ['/'].intercalate (ns.map String.toList)) = ns := by
      rcases root.ways with rfl | rfl | rfl
      · exact namesOf_intercalate names
      · exact (namesOf_slash _).trans (namesOf_intercalate names)
      · exact (namesOf_slash _).trans ((namesOf_slash _).trans (namesOf_intercalate names))
    rw [ofString, chars]
    simp only [Path.mk.injEq]
    exact ⟨rootOf_append root (intercalate_ne_slash names), slashes⟩

theorem isRoot_rootOf (cs : List Char) : IsRoot (rootOf cs) := by
  unfold rootOf
  split <;> simp [IsRoot]

theorem not_slash_of_mem_namesFrom {word cs w : List Char} (h : '/' ∉ word) (member : w ∈ namesFrom word cs) : '/' ∉ w := by
  induction cs generalizing word with
  | nil =>
    obtain rfl := List.mem_singleton.mp member
    rwa [List.mem_reverse]
  | cons c rest ih =>
    rw [namesFrom] at member
    split at member
    · rcases List.mem_cons.mp member with rfl | later
      · rwa [List.mem_reverse]
      · exact ih List.not_mem_nil later
    next other =>
      refine ih (fun slash => ?_) member
      rcases List.mem_cons.mp slash with rfl | old
      · exact other (beq_self_eq_true '/')
      · exact h old

/-- Every name that is read from a text can stand between slashes. -/
theorem isName_of_mem_ofString {s n : String} (member : n ∈ (ofString s).names) : IsName n := by
  obtain ⟨word, kept⟩ := List.mem_filter.mp member
  obtain ⟨w, cut, rfl⟩ := List.mem_map.mp word
  rw [Bool.and_eq_true, bne_iff_ne, bne_iff_ne] at kept
  refine ⟨kept.1, kept.2, ?_⟩
  rw [String.toList_ofList]
  exact not_slash_of_mem_namesFrom List.not_mem_nil cut

/-- Whatever text a path is read from, it is read back from what it is written as. -/
theorem ofString_text_ofString (s : String) : ofString (ofString s).text = ofString s :=
  ofString_text (isRoot_rootOf s.toList) fun _ member => isName_of_mem_ofString member

/-- What a canonical path is written as is read back as the path. -/
theorem Canonical.ofString_text {p : Path} (h : p.Canonical) (names : ∀ n ∈ p.names, IsName n) : ofString p.text = p :=
  Path.ofString_text (by simp [IsRoot, h.root]) names

end Remedy.Path
