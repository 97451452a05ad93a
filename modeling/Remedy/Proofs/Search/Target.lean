import Mathlib.Data.List.Nodup
import Remedy.Candidate.Html
import Remedy.Candidate.Jsx
import Remedy.Patch.Html
import Remedy.Patch.Jsx
import Remedy.Proofs.Text.Places

/-!
A candidate leads back to its element. Candidates are made of just those elements that a patch can apply to, and the place
that a candidate is given names the byte at which its element begins. So looking for an element at that place finds the one
that the candidate was made of.
-/

namespace Remedy

open Text (Bytes encode IsBoundary)

/-- Elements that begin at characters of a text, no two of them at the same one. -/
structure Node.ApartIn (text : String) (elements : List Node) : Prop where
  boundary : ∀ e ∈ elements, IsBoundary text.toList e.start
  starts : (elements.map Node.start).Nodup

instance (text : String) (elements : List Node) : Decidable (Node.ApartIn text elements) :=
  decidable_of_iff ((∀ e ∈ elements, IsBoundary text.toList e.start) ∧ (elements.map Node.start).Nodup)
    ⟨fun ⟨boundary, starts⟩ => ⟨boundary, starts⟩, fun ⟨boundary, starts⟩ => ⟨boundary, starts⟩⟩

section

variable {text : String} {elements : List Node} {d e : Node}

/-- Of such elements each has a place of its own. -/
theorem Node.ApartIn.position_inj (h : ApartIn text elements) (hd : d ∈ elements) (he : e ∈ elements)
    (same : d.position (encode text.toList) = e.position (encode text.toList)) : d = e :=
  List.inj_on_of_nodup_map h.starts hd he ((Position.ofOffset_inj (h.boundary d hd) (h.boundary e he)).mp same)

theorem Node.ApartIn.filter (h : ApartIn text elements) (p : Node → Bool) : ApartIn text (elements.filter p) where
  boundary e he := h.boundary e (List.mem_filter.mp he).1
  starts := h.starts.sublist (List.filter_sublist.map _)

/-- An element is found at its own place. -/
theorem Patch.elementAt?_position (h : Node.ApartIn text elements) (he : e ∈ elements) :
    elementAt? (encode text.toList) elements (e.position (encode text.toList)) = some e := by
  have onLine : e ∈ elements.filter fun d =>
      (d.position (encode text.toList)).line == (e.position (encode text.toList)).line :=
    List.mem_filter.mpr ⟨he, beq_self_eq_true _⟩
  rw [elementAt?]
  -- The search on the line cannot fail, so the first element of the line is never taken instead.
  cases found : List.find? (fun d => (d.position (encode text.toList)).column == (e.position (encode text.toList)).column)
      (elements.filter fun d => (d.position (encode text.toList)).line == (e.position (encode text.toList)).line) with
  | none => exact absurd (beq_self_eq_true _) (List.find?_eq_none.mp found e onLine)
  | some d =>
    obtain ⟨member, line⟩ := List.mem_filter.mp (List.mem_of_find?_eq_some found)
    have column := List.find?_some found
    rw [beq_iff_eq] at line column
    have same : d.position (encode text.toList) = e.position (encode text.toList) :=
      (Position.mk.injEq ..).mpr ⟨line, column⟩
    rw [h.position_inj member he same]
    rfl

end

/-! ### What candidates are made of -/

@[simp] theorem Position.shift_zero (p : Position) : p.shift 0 0 = p := by
  simp [shift]

namespace Candidate

variable {source : Bytes} {file : String} {e : Node}

/-- With nothing left out, an element is a candidate if and only if a patch can apply to it. -/
theorem isSome_ofHtmlElement? : (ofHtmlElement? {} source file e).isSome = (Patch.Html.opening? e).isSome := by
  rw [ofHtmlElement?, Patch.Html.opening?]
  cases Html.openTag? e with
  | none => rfl
  | some tag =>
    cases named : Html.tagName? tag with
    | none => simp [named]
    | some name => simp [named]

/-- A candidate is placed where its element and the closing tag of that are, moved as the view says. -/
theorem places_ofHtmlElement? {view : HtmlView} {c : Candidate} (h : ofHtmlElement? view source file e = some c) :
    c.location = (e.position source).shift view.lines view.columns ∧
      c.closing = (Html.closeTag? e).map fun t => (t.position source).shift view.lines view.columns := by
  obtain ⟨tag, _, h⟩ := Option.bind_eq_some_iff.mp h
  obtain ⟨name, _, h⟩ := Option.bind_eq_some_iff.mp h
  simp only at h
  split at h
  · cases h
  · obtain rfl := Option.some.inj h
    exact ⟨rfl, rfl⟩

theorem isSome_ofJsxElement? :
    (ofJsxElement? source file e).isSome = ((Jsx.opening? e).bind Jsx.name?).isSome := by
  rw [ofJsxElement?]
  cases Jsx.opening? e with
  | none => rfl
  | some tag =>
    cases named : Jsx.name? tag with
    | none => simp [named]
    | some name => simp [named]

theorem location_ofJsxElement? {c : Candidate} (h : ofJsxElement? source file e = some c) :
    c.location = e.position source := by
  obtain ⟨tag, _, h⟩ := Option.bind_eq_some_iff.mp h
  obtain ⟨name, _, h⟩ := Option.bind_eq_some_iff.mp h
  obtain rfl := Option.some.inj h
  rfl

/-- Candidates of elements that are apart, each placed where its element is, lead back to these. -/
theorem found_of_apart {text : String} {elements : List Node} (apart : Node.ApartIn text elements)
    {build : Node → Option Candidate} {applies : Node → Bool} (built : ∀ e, (build e).isSome = applies e)
    (placed : ∀ e c, build e = some c → c.location = e.position (encode text.toList)) :
    ∀ c ∈ elements.filterMap build, ∃ e ∈ elements, (∀ d ∈ elements, build d = some c ↔ d = e) ∧
      Patch.elementAt? (encode text.toList) (elements.filter applies) c.location = some e := by
  intro c hc
  obtain ⟨e, he, made⟩ := List.mem_filterMap.mp hc
  have place := placed e c made
  refine ⟨e, he, fun d hd => ⟨fun alike => ?_, ?_⟩, ?_⟩
  · exact apart.position_inj hd he ((placed d c alike).symm.trans place)
  · rintro rfl
    exact made
  · rw [place]
    apply Patch.elementAt?_position (apart.filter applies)
    rw [List.mem_filter, ← built, made]
    exact ⟨he, rfl⟩

end Candidate

/-- **A candidate leads back to its element.** In any tree over a text whose elements begin at characters, no two at the same
one, every candidate is made of exactly one element, and what a patch finds at the place of the candidate is that element:
on a page, and in a script with markup. -/
theorem candidates_lead_back (text file : String) (root : Node) :
    (Node.ApartIn text (Html.elements root) →
      ∀ c ∈ Candidate.ofHtml {} (encode text.toList) root file, ∃ e ∈ Html.elements root,
        (∀ d ∈ Html.elements root, Candidate.ofHtmlElement? {} (encode text.toList) file d = some c ↔ d = e) ∧
        Patch.elementAt? (encode text.toList) (Patch.Html.targets root) c.location = some e) ∧
    (Node.ApartIn text (Jsx.elements root) →
      ∀ c ∈ Candidate.ofJsx (encode text.toList) root file, ∃ e ∈ Jsx.elements root,
        (∀ d ∈ Jsx.elements root, Candidate.ofJsxElement? (encode text.toList) file d = some c ↔ d = e) ∧
        Patch.elementAt? (encode text.toList) (Patch.Jsx.targets root) c.location = some e) :=
  ⟨fun apart => Candidate.found_of_apart apart (fun _ => Candidate.isSome_ofHtmlElement?)
      fun _ _ built => (Candidate.places_ofHtmlElement? built).1.trans (Position.shift_zero _),
    fun apart => Candidate.found_of_apart apart (fun _ => Candidate.isSome_ofJsxElement?)
      fun _ _ => Candidate.location_ofJsxElement?⟩

namespace Nesting

/-- An element in another one, all on one line, behind a character of two bytes. -/
def text : String := "é<p><i>x</i></p>"

def part (kind : String) (role : Option String) (start stop : Nat) (children : List Node) : Node :=
  .mk kind true false false start stop role children

def page : Node :=
  part "document" none 0 17 [
    part "text" none 0 2 [],
    part "element" none 2 17 [
      part "start_tag" none 2 5 [part "tag_name" none 3 4 []],
      part "element" none 5 13 [
        part "start_tag" none 5 8 [part "tag_name" none 6 7 []],
        part "text" none 8 9 [],
        part "end_tag" none 9 13 [part "tag_name" none 11 12 []]],
      part "end_tag" none 13 17 [part "tag_name" none 15 16 []]]]

def script : Node :=
  part "program" none 0 17 [
    part "ERROR" none 0 2 [],
    part "jsx_element" none 2 17 [
      part "jsx_opening_element" (some "open_tag") 2 5 [part "identifier" (some "name") 3 4 []],
      part "jsx_element" none 5 13 [
        part "jsx_opening_element" (some "open_tag") 5 8 [part "identifier" (some "name") 6 7 []],
        part "jsx_text" none 8 9 [],
        part "jsx_closing_element" (some "close_tag") 9 13 [part "identifier" (some "name") 11 12 []]],
      part "jsx_closing_element" (some "close_tag") 13 17 [part "identifier" (some "name") 15 16 []]]]

end Nesting

/-- The inner element is found at the fourth column, and not the outer one that its line begins with. -/
theorem nested_candidates_lead_back :
    Node.ApartIn Nesting.text (Html.elements Nesting.page) ∧ Node.ApartIn Nesting.text (Jsx.elements Nesting.script) ∧
      (∃ c ∈ Candidate.ofHtml {} (encode Nesting.text.toList) Nesting.page "a.html", c.tag = "i" ∧ c.location = ⟨1, 4⟩ ∧
        ∃ e ∈ Html.elements Nesting.page, e.start = 5 ∧
          Patch.elementAt? (encode Nesting.text.toList) (Patch.Html.targets Nesting.page) ⟨1, 4⟩ = some e) ∧
      (∃ c ∈ Candidate.ofJsx (encode Nesting.text.toList) Nesting.script "a.jsx", c.tag = "i" ∧ c.location = ⟨1, 4⟩ ∧
        ∃ e ∈ Jsx.elements Nesting.script, e.start = 5 ∧
          Patch.elementAt? (encode Nesting.text.toList) (Patch.Jsx.targets Nesting.script) ⟨1, 4⟩ = some e) := by
  have onPage : Node.ApartIn Nesting.text (Html.elements Nesting.page) := by decide +kernel
  have inScript : Node.ApartIn Nesting.text (Jsx.elements Nesting.script) := by decide +kernel
  -- Both ways there are the same two candidates, and the second one is meant.
  have inner (candidates : List Candidate) (all : candidates.map (fun c => (c.tag, c.location)) = [("p", ⟨1, 1⟩), ("i", ⟨1, 4⟩)]) :
      ∃ c ∈ candidates, c.tag = "i" ∧ c.location = ⟨1, 4⟩ := by
    have listed : ("i", (⟨1, 4⟩ : Position)) ∈ candidates.map fun c => (c.tag, c.location) := by simp [all]
    obtain ⟨c, hc, same⟩ := List.mem_map.mp listed
    obtain ⟨tag, location⟩ := Prod.mk.inj same
    exact ⟨c, hc, tag, location⟩
  refine ⟨onPage, inScript, ?_, ?_⟩
  · obtain ⟨c, hc, tag, location⟩ := inner
      (Candidate.ofHtml {} (encode Nesting.text.toList) Nesting.page "a.html") (by decide +kernel)
    obtain ⟨e, he, _, found⟩ := (candidates_lead_back Nesting.text "a.html" Nesting.page).1 onPage c hc
    have start : (Patch.elementAt? (encode Nesting.text.toList) (Patch.Html.targets Nesting.page) ⟨1, 4⟩).map Node.start =
        some 5 := by decide +kernel
    rw [location] at found
    rw [found] at start
    exact ⟨c, hc, tag, location, e, he, Option.some.inj start, found⟩
  · obtain ⟨c, hc, tag, location⟩ := inner
      (Candidate.ofJsx (encode Nesting.text.toList) Nesting.script "a.jsx") (by decide +kernel)
    obtain ⟨e, he, _, found⟩ := (candidates_lead_back Nesting.text "a.jsx" Nesting.script).2 inScript c hc
    have start : (Patch.elementAt? (encode Nesting.text.toList) (Patch.Jsx.targets Nesting.script) ⟨1, 4⟩).map Node.start =
        some 5 := by decide +kernel
    rw [location] at found
    rw [found] at start
    exact ⟨c, hc, tag, location, e, he, Option.some.inj start, found⟩

end Remedy
