import Remedy.Path.Basic
import Mathlib.Data.List.Basic

/-!
The last name of a path, and the ending of that name, through everything that is done to paths: they stay as they are
when a path is read from text, seen from another path, or resolved. Only a step upwards would take a last name away, and
such a step has no ending.
-/

namespace Remedy.Path

/-! ### The last name -/

theorem names_eq_of_name {p : Path} (h : p.names ≠ []) : ∃ init, p.names = init ++ [p.name] := by
  refine ⟨p.names.dropLast, ?_⟩
  rw [name, List.getLastD_eq_getLast?, List.getLast?_eq_some_getLast h, Option.getD_some, List.dropLast_append_getLast]

theorem name_of_names {p : Path} {init : List String} {n : String} (h : p.names = init ++ [n]) : p.name = n := by
  rw [name, h, List.getLastD_concat]

theorem climb_concat {n : String} (h : n ≠ "..") (above init : List String) :
    climb above (init ++ [n]) = climb above init ++ [n] := by
  induction init generalizing above with
  | nil => simp [climb]
  | cons m rest ih =>
    by_cases up : m = ".."
    · subst up
      simp only [List.cons_append, climb, ih]
    · simp only [List.cons_append, climb, ih]

theorem name_join (directory : Path) {p : Path} (h : p.names ≠ []) : (directory.join p).name = p.name := by
  obtain ⟨init, names⟩ := names_eq_of_name h
  rw [join]
  split
  · rfl
  · exact name_of_names (by rw [names, ← List.append_assoc])

theorem names_join (directory : Path) {p : Path} (h : p.names ≠ []) : (directory.join p).names ≠ [] := by
  rw [join]
  split
  · exact h
  · simp [h]

theorem name_resolve (directory : Path) {p : Path} (h : p.names ≠ []) (plain : p.name ≠ "..") :
    (resolve directory p).name = p.name := by
  obtain ⟨init, names⟩ := names_eq_of_name (names_join directory h)
  rw [name_join directory h] at names
  apply name_of_names
  rw [resolve, names, climb_concat plain]

/-! ### Its ending -/

theorem names_of_suffix {p : Path} (h : p.suffix ≠ "") : p.names ≠ [] := by
  intro nothing
  rw [suffix, name, nothing] at h
  exact h (by decide)

theorem plain_of_suffix {p : Path} (h : p.suffix ≠ "") : p.name ≠ ".." := by
  intro up
  rw [suffix, up] at h
  exact h (by decide)

theorem suffix_join (directory : Path) {p : Path} (h : p.suffix ≠ "") : (directory.join p).suffix = p.suffix := by
  rw [suffix, suffix, name_join directory (names_of_suffix h)]

/-- A place that a path with an ending leads to has that ending. -/
theorem suffix_resolve (directory : Path) {p : Path} (h : p.suffix ≠ "") : (resolve directory p).suffix = p.suffix := by
  rw [suffix, suffix, name_resolve directory (names_of_suffix h) (plain_of_suffix h)]

/-- An ending comes last, is not all of the name, and has no other point in it. -/
theorem nameSuffix_append {stem ending : List Char} (h : stem ≠ []) (nonempty : ending ≠ []) (plain : '.' ∉ ending) :
    nameSuffix (stem ++ '.' :: ending) = '.' :: ending := by
  have after : ((stem ++ '.' :: ending).reverse.takeWhile (· != '.')) = ending.reverse := by
    rw [List.reverse_append, List.reverse_cons, List.append_assoc, List.takeWhile_append_of_pos]
    · simp
    · intro c member
      rw [bne_iff_ne]
      rintro rfl
      exact plain (List.mem_reverse.mp member)
  -- Without a stem the point would stand at the front, and not count.
  have long := List.length_pos_of_ne_nil h
  rw [nameSuffix, after, List.reverse_reverse, if_neg]
  simp [nonempty]
  omega

/-! ### Paths read from text -/

theorem namesFrom_plain (word : List Char) {cs : List Char} (plain : '/' ∉ cs) :
    namesFrom word cs = [word.reverse ++ cs] := by
  induction cs generalizing word with
  | nil => simp [namesFrom]
  | cons c rest ih =>
    rw [List.mem_cons, not_or] at plain
    rw [namesFrom, if_neg (by simpa using Ne.symm plain.1), ih _ plain.2, List.reverse_cons, List.append_assoc,
      List.singleton_append]

/-- What stands behind the last slash ends the last name. -/
theorem namesFrom_append (word cs : List Char) {tail : List Char} (plain : '/' ∉ tail) :
    ∃ init front, namesFrom word (cs ++ tail) = init ++ [front ++ tail] := by
  induction cs generalizing word with
  | nil => exact ⟨[], word.reverse, by rw [List.nil_append, namesFrom_plain word plain, List.nil_append]⟩
  | cons c rest ih =>
    rw [List.cons_append, namesFrom]
    split
    · obtain ⟨init, front, names⟩ := ih []
      exact ⟨word.reverse :: init, front, by rw [names, List.cons_append]⟩
    · exact ih (c :: word)

/-- A path read from a text that ends in a name ends in that name, perhaps with more before it. -/
theorem name_ofString {s tail : List Char} (plain : '/' ∉ tail) (long : 2 ≤ tail.length) :
    ∃ front, (ofString (String.ofList (s ++ tail))).name = String.ofList (front ++ tail) ∧
      (ofString (String.ofList (s ++ tail))).names ≠ [] := by
  obtain ⟨init, front, names⟩ := namesFrom_append [] s plain
  have differs (short : String) (h : short.toList.length < 2) : String.ofList (front ++ tail) ≠ short := by
    rintro rfl
    rw [String.toList_ofList, List.length_append] at h
    omega
  -- The last name is too long to be dropped with the empty ones and the single points.
  have kept : (fun n => n != "" && n != ".") (String.ofList (front ++ tail)) = true := by
    rw [Bool.and_eq_true, bne_iff_ne, bne_iff_ne]
    exact ⟨differs "" (by decide), differs "." (by decide)⟩
  have last : ∃ more, (ofString (String.ofList (s ++ tail))).names = more ++ [String.ofList (front ++ tail)] := by
    refine ⟨(init.map String.ofList).filter fun n => n != "" && n != ".", ?_⟩
    simp only [ofString, String.toList_ofList, names, List.map_append, List.map_cons, List.map_nil, List.filter_append]
    rw [List.filter_cons, List.filter_nil, if_pos kept]
  obtain ⟨more, names⟩ := last
  exact ⟨front, name_of_names names, by rw [names]; exact List.concat_ne_nil _ _⟩

end Remedy.Path
