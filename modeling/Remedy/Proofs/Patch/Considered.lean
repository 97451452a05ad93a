import Remedy.Candidate.Html
import Remedy.Candidate.Jsx
import Remedy.Patch.Html
import Remedy.Patch.Jsx
import Remedy.Proofs.Node.DocumentOrder

/-!
Which elements are considered for candidates and for fixes, in which order, and which of them is taken for a place of the text.
-/

namespace Remedy

open Node (Lists IsFirst passes visits lists_filter lists_filterMap visits_eq)

/-- An element that fixes can apply to. -/
def Patch.Html.isTarget (n : Node) : Bool := Remedy.Html.elementKinds.contains n.kind && (opening? n).isSome

def Patch.Jsx.isTarget (n : Node) : Bool :=
  Remedy.Jsx.elementKinds.contains n.kind && ((Remedy.Jsx.opening? n).bind Remedy.Jsx.name?).isSome

/-- The candidate that a node of HTML is, unless it is no element or none that counts. -/
def Candidate.ofHtmlNode? (view : HtmlView) (source : Text.Bytes) (file : String) (n : Node) : Option Candidate :=
  if Html.elementKinds.contains n.kind then ofHtmlElement? view source file n else none

def Candidate.ofJsxNode? (source : Text.Bytes) (file : String) (n : Node) : Option Candidate :=
  if Jsx.elementKinds.contains n.kind then ofJsxElement? source file n else none

section

variable (root : Node)

theorem Patch.Html.targets_eq_filter : targets root = root.preorder.filter isTarget := by
  rw [targets, Remedy.Html.elements, Node.select, List.filter_filter]
  exact List.filter_congr fun n _ => Bool.and_comm _ _

theorem Patch.Jsx.targets_eq_filter : targets root = root.preorder.filter isTarget := by
  rw [targets, Remedy.Jsx.elements, Node.select, List.filter_filter]
  exact List.filter_congr fun n _ => Bool.and_comm _ _

theorem Candidate.lists_ofHtml (view : HtmlView) (source : Text.Bytes) (file : String) :
    Lists root (ofHtmlNode? view source file) (ofHtml view source root file) := by
  rw [ofHtml, Html.elements, Node.select, List.filterMap_filter]
  exact lists_filterMap root _

theorem Candidate.lists_ofJsx (source : Text.Bytes) (file : String) :
    Lists root (ofJsxNode? source file) (ofJsx source root file) := by
  rw [ofJsx, Jsx.elements, Node.select, List.filterMap_filter]
  exact lists_filterMap root _

end

/-! ### Elements at places of the text -/

section

variable (source : Text.Bytes) (root : Node) (test : Node → Bool) (p : Position) (e : Node)

def startsAt (n : Node) : Bool := n.position source == p

def startsOnLine (line : Int) (n : Node) : Bool := (n.position source).line == line

/-- The node that a place of the text stands for: the first one that begins there or, if none does, the first one of the line. -/
def IsMeant : Prop :=
  (∃ q, IsFirst root (fun n => test n && startsAt source p n) q e) ∨
    (∀ q n, root.at? q = some n → test n = true → n.position source ≠ p) ∧
      ∃ q, IsFirst root (fun n => test n && startsOnLine source p.line n) q e

/-- The first element of a line is the outermost one that begins there. -/
theorem first_onLine_iff (line : Int) :
    ((root.preorder.filter test).filter (startsOnLine source line)).head? = some e ↔
      ∃ q, IsFirst root (fun n => test n && startsOnLine source line n) q e := by
  rw [← (lists_filter root _).head?_eq_some_iff, List.filter_filter]
  simp only [Bool.and_comm]

theorem startsAt_iff (n : Node) :
    startsAt source p n = true ↔ (n.position source).column = p.column ∧ startsOnLine source p.line n = true := by
  rw [startsAt, startsOnLine, beq_iff_eq, beq_iff_eq]
  constructor
  · rintro rfl
    exact ⟨rfl, rfl⟩
  · rintro ⟨column, line⟩
    calc n.position source = ⟨(n.position source).line, (n.position source).column⟩ := rfl
      _ = p := by rw [line, column]

theorem elementAt?_eq_some_iff :
    Patch.elementAt? source (root.preorder.filter test) p = some e ↔ IsMeant source root test p e := by
  -- The line is known already when columns are compared, so the whole place is.
  have atPlace : ((root.preorder.filter test).filter (startsOnLine source p.line)).filter
      (fun n => (n.position source).column == p.column) = root.preorder.filter fun n => test n && startsAt source p n := by
    rw [List.filter_filter, List.filter_filter]
    refine List.filter_congr fun n _ => ?_
    rw [Bool.eq_iff_iff]
    simp only [Bool.and_eq_true, startsAt_iff, beq_iff_eq]
    exact and_comm
  have absent : (root.preorder.filter fun n => test n && startsAt source p n).head? = none ↔
      ∀ q n, root.at? q = some n → test n = true → n.position source ≠ p := by
    rw [List.head?_eq_none_iff, List.filter_eq_nil_iff]
    simp only [Node.mem_preorder_iff_at?, startsAt, Bool.and_eq_true, beq_iff_eq, not_and]
    constructor
    · intro nothing q n here
      exact nothing n ⟨q, here⟩
    · rintro nothing n ⟨q, here⟩
      exact nothing q n here
  calc Patch.elementAt? source (root.preorder.filter test) p = some e
      ↔ ((root.preorder.filter fun n => test n && startsAt source p n).head?.or
          ((root.preorder.filter test).filter (startsOnLine source p.line)).head?) = some e := by
        rw [← atPlace, List.head?_filter]
        rfl
    _ ↔ IsMeant source root test p e := by
        rw [Option.or_eq_some_iff, absent, (lists_filter root _).head?_eq_some_iff, first_onLine_iff, IsMeant]

end

/-- The nodes of a tree that pass a test, as they are considered for fixes: in document order, so that the first one of a line is
the outermost one that begins there, and one that is looked for by its place is found. -/
structure Considered (root : Node) (test : Node → Bool) (es : List Node) : Prop where
  order : Lists root (Option.guard test) es
  onLine : ∀ source line e, (es.filter (startsOnLine source line)).head? = some e ↔
    ∃ q, IsFirst root (fun n => test n && startsOnLine source line n) q e
  meant : ∀ source p e, Patch.elementAt? source es p = some e ↔ IsMeant source root test p e

theorem considered_filter (root : Node) (test : Node → Bool) : Considered root test (root.preorder.filter test) :=
  ⟨lists_filter root test, fun source line e => first_onLine_iff source root test e line,
    fun source p e => elementAt?_eq_some_iff source root test p e⟩

/-- **A walk with a stack reports the nodes in document order**, whatever the tree and the kinds of nodes that are asked for: each
that is of one of them, once for each place where it stands. So the candidates of a file and the elements that fixes can apply to
are listed in document order. The first of these on a line is the outermost one that begins there, and it is taken if none begins
at the column that is asked for. -/
theorem considered_in_document_order (root : Node) :
    (∀ kinds, visits (passes kinds) [root] = root.preorder.filter (passes kinds) ∧
      Lists root (Option.guard (passes kinds)) (visits (passes kinds) [root])) ∧
    (∀ kinds, root.select kinds = visits (passes (some kinds)) [root]) ∧
    (∀ view source file, Lists root (Candidate.ofHtmlNode? view source file) (Candidate.ofHtml view source root file)) ∧
    (∀ source file, Lists root (Candidate.ofJsxNode? source file) (Candidate.ofJsx source root file)) ∧
    Considered root Patch.Html.isTarget (Patch.Html.targets root) ∧
    Considered root Patch.Jsx.isTarget (Patch.Jsx.targets root) := by
  have walked (kinds : Option (List String)) :
      visits (passes kinds) [root] = root.preorder.filter (passes kinds) := by
    rw [visits_eq, List.reverse_singleton, List.flatMap_singleton]
  refine ⟨fun kinds => ⟨walked kinds, ?_⟩, fun kinds => (walked (some kinds)).symm, Candidate.lists_ofHtml root,
    Candidate.lists_ofJsx root, ?_, ?_⟩
  · rw [walked]
    exact lists_filter root _
  · rw [Patch.Html.targets_eq_filter]
    exact considered_filter root _
  · rw [Patch.Jsx.targets_eq_filter]
    exact considered_filter root _

namespace Nested

/-- Two elements that begin on one line, one inside of the other. -/
def source : Text.Bytes := Text.encode "<p><b></b></p>".toList

def tag (kind : String) (start stop : Nat) : Node :=
  .mk kind true false false start stop none [.mk "tag_name" true false false (stop - 2) (stop - 1) none []]

def element (start stop : Nat) (content : List Node) : Node :=
  .mk "element" true false false start stop none (tag "start_tag" start (start + 3) :: content ++ [tag "end_tag" (stop - 4) stop])

def inner : Node := element 3 10 []

def outer : Node := element 0 14 [inner]

def root : Node := .mk "document" true false false 0 14 none [outer]

end Nested

/-- At a column where none of them begins the outer one is taken. -/
theorem nested_outer_meant :
    Patch.Html.targets Nested.root = [Nested.outer, Nested.inner] ∧
      Patch.elementAt? Nested.source (Patch.Html.targets Nested.root) ⟨1, 7⟩ = some Nested.outer ∧
      IsMeant Nested.source Nested.root Patch.Html.isTarget ⟨1, 7⟩ Nested.outer ∧
      IsMeant Nested.source Nested.root Patch.Html.isTarget ⟨1, 3⟩ Nested.inner := by
  have found : Patch.elementAt? Nested.source (Patch.Html.targets Nested.root) ⟨1, 7⟩ = some Nested.outer := rfl
  have atPlace : Patch.elementAt? Nested.source (Patch.Html.targets Nested.root) ⟨1, 3⟩ = some Nested.inner := rfl
  have considered := (considered_in_document_order Nested.root).2.2.2.2.1
  exact ⟨rfl, found, (considered.meant _ _ _).mp found, (considered.meant _ _ _).mp atPlace⟩

end Remedy
