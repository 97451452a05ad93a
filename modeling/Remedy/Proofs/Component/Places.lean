import Mathlib.Tactic.SplitIfs
import Remedy.Candidate.Extract
import Remedy.Check.Validate
import Remedy.Proofs.Markup.Places
import Remedy.Proofs.Node.Layout
import Remedy.Proofs.Search.Target
import Remedy.Proofs.Text.Decoding

/-!
Places in the blocks of a component. A block is cut out of its file and read on its own, so what is found in it has a place
in the block. Moved to where the block begins, this is the place in the file of the same byte.

The trees of markup and scripts may come from anywhere; their nodes need only begin and end at characters.
-/

namespace Remedy

open Text (Bytes encode decodeLossy sliceBytes IsBoundary)

/-- No node of a tree begins or ends inside of a character. -/
def Node.CutsAtCharacters (text : String) (root : Node) : Prop :=
  ∀ n ∈ root.preorder, IsBoundary text.toList n.start ∧ IsBoundary text.toList n.stop

instance (text : String) (root : Node) : Decidable (root.CutsAtCharacters text) :=
  inferInstanceAs (Decidable (∀ n ∈ root.preorder, _ ∧ _))

/-- What is cut out of a text at characters is read as it stands there. -/
theorem Text.cut_prefix {cs : List Char} {m n : Nat} (first : IsBoundary cs m) (last : IsBoundary cs n) :
    encode (decodeLossy (sliceBytes (encode cs) m n)) <+: (encode cs).drop m := by
  -- A block may end before it begins, where an open tag is not closed; then there is nothing in it.
  rcases Nat.le_total m n with h | h
  · obtain ⟨middle, slice⟩ := first.slice_eq_encode last h
    rw [slice, decodeLossy_encode, ← slice, sliceBytes, List.drop_take]
    exact List.take_prefix _ _
  · have nothing : sliceBytes (encode cs) m n = encode [] :=
      List.drop_eq_nil_of_le (Nat.le_trans (List.length_take_le _ _) h)
    rw [nothing, decodeLossy_encode]
    exact List.nil_prefix

/-- A place in a text that was cut out of another one, moved to where it was cut, is the place there of the same byte. -/
theorem Position.shift_ofOffset_of_prefix {whole : Bytes} {offset k : Nat} {cs : List Char}
    (cut : encode cs <+: whole.drop offset) (inside : IsBoundary cs k) :
    (ofOffset (encode cs) k).shift ((ofOffset whole offset).line - 1) (ofOffset whole offset).column =
      ofOffset whole (offset + k) := by
  obtain ⟨rest, split⟩ := cut
  apply shift_ofOffset
  rw [← split, List.take_append_of_le_length inside.le_length]

namespace Component

/-- What components are read by: the trees of markup and of scripts. -/
structure Parsers where
  html : String → Node
  script : Script.Kind → String → Node

namespace Parsers

/-- The parsers of this library. -/
def library : Parsers := ⟨Html.parse, Script.parse⟩

variable (p : Parsers)

def blocks (source : String) : List Block := blocksOf (encode source.toList) (p.html source)

/-- How the candidates of a template are told. -/
def templateView (b : Block) : Candidate.HtmlView := ⟨false, Candidate.pageTags, b.start.line - 1, b.start.column⟩

/-- The candidates of a component. -/
def candidates (source file : String) : List Candidate :=
  match template? (p.blocks source) with
  | some b =>
    if Text.isBlankText b.content then []
    else Candidate.ofHtml (templateView b) (encode b.content.toList) (p.html b.content) file
  | none => []

/-- The tree of a script block, by the grammar that it asks for. -/
def scriptTree (b : Block) : Node := p.script (Check.grammarOfLanguage b.language?) b.content

def scriptDiagnostics (b : Block) : List Check.Diagnostic :=
  (Check.treeDiagnostics (encode b.content.toList) (p.scriptTree b)).map (Check.Diagnostic.shift b.start)

/-- What is wrong with a component. -/
def diagnostics (source : String) : Except Markup.Rejection (List Check.Diagnostic) := do
  let inTemplate ← match template? (p.blocks source) with
    | some b => Check.templateDiagnostics b
    | none => .ok []
  return inTemplate ++ (scripts (p.blocks source)).flatMap p.scriptDiagnostics

theorem blocks_library : library.blocks = Component.blocks := by
  funext source
  rw [blocks, Component.blocks, library]

/-! Only what is named may be unfolded in these equations: the parsers themselves must not run. -/

theorem candidates_library : library.candidates = Candidate.inComponent := by
  funext source file
  unfold candidates Candidate.inComponent
  rewrite [blocks_library]
  cases template? (Component.blocks source) with
  | none => dsimp only
  | some b =>
    unfold Candidate.inTemplate templateView library
    dsimp only

theorem diagnostics_library : library.diagnostics = Check.componentDiagnostics := by
  funext source
  unfold diagnostics Check.componentDiagnostics
  rewrite [blocks_library]
  unfold scriptDiagnostics Check.scriptBlockDiagnostics Check.scriptDiagnostics scriptTree library
  cases found : template? (Component.blocks source) with
  | none => simp only [found]
  | some b => simp only [found]

/-- No node begins or ends inside of a character, in any tree. -/
structure Sound : Prop where
  html : ∀ text, (p.html text).CutsAtCharacters text
  script : ∀ kind text, (p.script kind text).CutsAtCharacters text

end Parsers

namespace Block

/-- Where in the file a byte of a block stands. -/
def position (source : String) (b : Block) (k : Nat) : Position := Position.ofOffset (encode source.toList) (b.offset + k)

/-- The content of a block stands in the file from the byte at which the block begins. -/
structure IsCutFrom (source : String) (b : Block) : Prop where
  start : b.start = Position.ofOffset (encode source.toList) b.offset
  content : encode b.content.toList <+: (encode source.toList).drop b.offset

variable {source : String} {root : Node} {b : Block}

/-- A place in a block, moved to where the block begins, is the place in the file. -/
theorem IsCutFrom.shift (cut : b.IsCutFrom source) {k : Nat} (inside : IsBoundary b.content.toList k) :
    (Position.ofOffset (encode b.content.toList) k).shift (b.start.line - 1) b.start.column = b.position source k := by
  rw [cut.start, Position.shift_ofOffset_of_prefix cut.content inside, position]

/-- Blocks are cut out between tags, so at characters. -/
theorem isCutFrom_of_mem_blocksOf (cuts : root.CutsAtCharacters source) (h : b ∈ blocksOf (encode source.toList) root) :
    b.IsCutFrom source := by
  obtain ⟨node, child, h⟩ := List.mem_filterMap.mp h
  have below := Node.mem_preorder_of_child (Node.mem_preorder_self root) child
  rw [blockOf?.eq_def] at h
  split at h
  · cases h
  · obtain ⟨tag, opens, h⟩ := Option.bind_eq_some_iff.mp h
    split at h
    · cases h
    · obtain ⟨name, _, h⟩ := Option.bind_eq_some_iff.mp h
      obtain rfl := Option.some.inj h
      refine ⟨rfl, ?_⟩
      have first := (cuts tag (Node.mem_preorder_of_child below (Node.mem_of_child? opens).1)).2
      rw [String.toList_ofList]
      -- The content ends at the closing tag, or with the node.
      split
      next t closes =>
        exact Text.cut_prefix first (cuts t (Node.mem_preorder_of_child below (Node.mem_of_child? closes).1)).1
      next => exact Text.cut_prefix first (cuts node below).2

end Block

/-! ### What is told of blocks -/

mutual

theorem mem_preorder_of_failures {n : Node} : (root : Node) → n ∈ Check.failures root → n ∈ root.preorder
  | .mk kind named missing hasError start stop field cs, h => by
    rw [Check.failures] at h
    split at h
    · rw [List.mem_singleton.mp h]
      exact Node.mem_preorder_self _
    · split at h
      · exact List.mem_cons_of_mem _ (mem_preorderAll_of_failures cs h)
      · cases h

theorem mem_preorderAll_of_failures {n : Node} : (ns : List Node) → n ∈ Check.failuresAll ns → n ∈ Node.preorderAll ns
  | [], h => by cases h
  | root :: rest, h => by
    rw [Check.failuresAll, List.mem_append] at h
    rw [Node.preorderAll, List.mem_append]
    exact h.imp (mem_preorder_of_failures root) (mem_preorderAll_of_failures rest)

end

namespace Parsers

variable {p : Parsers} {source : String} {b : Block} {d : Check.Diagnostic}

/-- A fault of a template, told at the `<` of a tag that has no other one. -/
def IsTemplateFault (source : String) (b : Block) (d : Check.Diagnostic) : Prop :=
  ∃ is, Check.markupImbalances b.content = .ok is ∧ ∃ i ∈ is, ∃ before rest, b.content.toList = before ++ '<' :: rest ∧
    i.position = Position.after before ∧
    d = ⟨b.position source (encode before).length, s!"Template error: {i.message}"⟩

/-- A fault of a script, told where the node begins at which parsing failed. -/
def IsScriptFault (p : Parsers) (source : String) (b : Block) (d : Check.Diagnostic) : Prop :=
  ∃ n ∈ Check.failures (p.scriptTree b),
    d = ⟨b.position source n.start, (Check.diagnosticOf (encode b.content.toList) n).message⟩

/-- What is told of the blocks of a component is told where it stands in the file. -/
structure TellsPlaces (p : Parsers) (source : String) : Prop where
  cut : ∀ b ∈ p.blocks source, b.IsCutFrom source
  candidates : ∀ file, ∀ c ∈ p.candidates source file, ∃ b, template? (p.blocks source) = some b ∧
    ∃ e ∈ Html.elements (p.html b.content),
      Candidate.ofHtmlElement? (templateView b) (encode b.content.toList) file e = some c ∧
      c.location = b.position source e.start ∧ c.closing = (Html.closeTag? e).map fun t => b.position source t.start
  diagnostics : ∀ ds, p.diagnostics source = .ok ds → ∀ d ∈ ds,
    (∃ b, template? (p.blocks source) = some b ∧ IsTemplateFault source b d) ∨
      ∃ b ∈ scripts (p.blocks source), p.IsScriptFault source b d

theorem mem_of_template? {bs : List Block} (h : template? bs = some b) : b ∈ bs := List.mem_of_find?_eq_some h

theorem isTemplateFault_of_mem (cut : b.IsCutFrom source) {ds : List Check.Diagnostic}
    (h : Check.templateDiagnostics b = .ok ds) (hd : d ∈ ds) : IsTemplateFault source b d := by
  obtain ⟨is, told, rfl⟩ := Check.ok_of_map h
  obtain ⟨i, hi, rfl⟩ := List.mem_map.mp hd
  obtain ⟨before, rest, split, place⟩ := Check.markupImbalances_stand told i hi
  refine ⟨is, told, i, hi, before, rest, split, place, ?_⟩
  rw [Check.Diagnostic.shift, place, ← Position.ofOffset_encode split, cut.shift ⟨before, '<' :: rest, split, rfl⟩]

theorem isScriptFault_of_mem (sound : p.Sound) (cut : b.IsCutFrom source) (hd : d ∈ p.scriptDiagnostics b) :
    p.IsScriptFault source b d := by
  rw [scriptDiagnostics, Check.treeDiagnostics] at hd
  obtain ⟨told, member, rfl⟩ := List.mem_map.mp hd
  split at member
  · obtain ⟨n, failed, rfl⟩ := List.mem_map.mp member
    refine ⟨n, failed, ?_⟩
    have inside := (sound.script _ _ n (mem_preorder_of_failures _ failed)).1
    rw [Check.Diagnostic.shift, Check.diagnosticOf, Node.position, cut.shift inside]
  · cases member

theorem places_of_mem_candidates (sound : p.Sound) (cut : b.IsCutFrom source) {file : String} {c : Candidate}
    (hc : c ∈ Candidate.ofHtml (templateView b) (encode b.content.toList) (p.html b.content) file) :
    ∃ e ∈ Html.elements (p.html b.content),
      Candidate.ofHtmlElement? (templateView b) (encode b.content.toList) file e = some c ∧
      c.location = b.position source e.start ∧ c.closing = (Html.closeTag? e).map fun t => b.position source t.start := by
  obtain ⟨e, he, made⟩ := List.mem_filterMap.mp hc
  obtain ⟨location, closing⟩ := Candidate.places_ofHtmlElement? made
  have below := Node.mem_preorder_of_select he
  have cuts := sound.html b.content
  refine ⟨e, he, made, location.trans (cut.shift (cuts e below).1), ?_⟩
  rw [closing]
  cases closes : Html.closeTag? e with
  | none => rfl
  | some t =>
    have inside := (cuts t (Node.mem_preorder_of_child below (Node.mem_of_child? closes).1)).1
    exact congrArg some (cut.shift inside)

theorem Sound.tellsPlaces (sound : p.Sound) (source : String) : p.TellsPlaces source := by
  -- Of the template and the scripts it only matters that they are blocks of the file.
  have cut : ∀ b ∈ p.blocks source, b.IsCutFrom source :=
    fun b hb => Block.isCutFrom_of_mem_blocksOf (sound.html source) hb
  refine ⟨cut, fun file c hc => ?_, fun ds told d hd => ?_⟩
  · rw [Parsers.candidates] at hc
    split at hc
    next b first =>
      split at hc
      · cases hc
      · exact ⟨b, first, places_of_mem_candidates sound (cut b (mem_of_template? first)) hc⟩
    next => cases hc
  · have inScripts (hd : d ∈ (scripts (p.blocks source)).flatMap p.scriptDiagnostics) :
        ∃ b ∈ scripts (p.blocks source), p.IsScriptFault source b d := by
      obtain ⟨b, hb, member⟩ := List.mem_flatMap.mp hd
      exact ⟨b, hb, isScriptFault_of_mem sound (cut b (List.mem_filter.mp hb).1) member⟩
    rw [Parsers.diagnostics] at told
    -- What a template comes to stands first; there need not be one.
    split at told
    next b first =>
      obtain ⟨inTemplate, template, told⟩ := Markup.ok_of_bind told
      obtain rfl := Except.ok.inj told
      rcases List.mem_append.mp hd with member | member
      · exact .inl ⟨b, first, isTemplateFault_of_mem (cut b (mem_of_template? first)) template member⟩
      · exact .inr (inScripts member)
    next =>
      obtain rfl := Except.ok.inj told
      exact .inr (inScripts hd)

end Parsers

end Component

/-- **Cutting a block out of a file keeps its places.** Between any two characters of any text, a place in what was cut out,
moved to where it was cut, is the place in the text of the same byte. So all that is told of the blocks of a component is
told where it stands in the file. -/
theorem cut_keeps_places :
    (∀ (text : String) (m n k : Nat) (block : String), IsBoundary text.toList m → IsBoundary text.toList n → m ≤ n →
      block = String.ofList (decodeLossy (sliceBytes (encode text.toList) m n)) → IsBoundary block.toList k →
      (Position.ofOffset (encode block.toList) k).shift ((Position.ofOffset (encode text.toList) m).line - 1)
          (Position.ofOffset (encode text.toList) m).column = Position.ofOffset (encode text.toList) (m + k)) ∧
    ∀ parsers : Component.Parsers, parsers.Sound → ∀ source : String, parsers.TellsPlaces source := by
  refine ⟨fun text m n k block first last _ cut inside => ?_, fun parsers sound source => sound.tellsPlaces source⟩
  apply Position.shift_ofOffset_of_prefix _ inside
  rw [cut, String.toList_ofList]
  exact Text.cut_prefix first last

namespace Accented

/-- A component with characters of two bytes before its template and in it. -/
def source : String := "é<template>é<i>\n<b>x</b></template>"

def template : String := "é<i>\n<b>x</b>"

/-- A component with a tag too many in its template, and an error in its script. -/
def faulty : String := "é<template>é</i></template>\n<script>é ?</script>"

def part (kind : String) (start stop : Nat) (children : List Node) : Node :=
  .mk kind true false false start stop none children

def file : Node :=
  part "document" 0 37 [
    part "text" 0 2 [],
    part "element" 2 37 [
      part "start_tag" 2 12 [part "tag_name" 3 11 []],
      part "end_tag" 26 37 [part "tag_name" 28 36 []]]]

def markup : Node :=
  part "document" 0 14 [
    part "text" 0 2 [],
    part "element" 2 14 [
      part "start_tag" 2 5 [part "tag_name" 3 4 []],
      part "element" 6 14 [
        part "start_tag" 6 9 [part "tag_name" 7 8 []],
        part "text" 9 10 [],
        part "end_tag" 10 14 [part "tag_name" 12 13 []]]]]

def faultyFile : Node :=
  part "document" 0 51 [
    part "text" 0 2 [],
    part "element" 2 29 [
      part "start_tag" 2 12 [part "tag_name" 3 11 []],
      part "erroneous_end_tag" 14 18 [],
      part "end_tag" 18 29 [part "tag_name" 20 28 []]],
    part "script_element" 30 51 [
      part "start_tag" 30 38 [part "tag_name" 31 37 []],
      part "raw_text" 38 42 [],
      part "end_tag" 42 51 [part "tag_name" 44 50 []]]]

def script : Node :=
  .mk "program" true false true 0 4 none [part "identifier" 0 2 [], .mk "ERROR" true false true 3 4 none []]

/-- Parsers that know these texts only. -/
def parsers : Component.Parsers where
  html text :=
    if text = source then file
    else if text = template then markup
    else if text = faulty then faultyFile
    else part "document" 0 0 []
  script _ text := if text = "é ?" then script else part "program" 0 0 []

theorem cuts_nothing (kind text : String) : (part kind 0 0 []).CutsAtCharacters text := by
  intro n below
  obtain rfl := List.mem_singleton.mp below
  exact ⟨.start _, .start _⟩

theorem sound : parsers.Sound where
  html text := by
    simp only [parsers]
    split_ifs with same same same
    · subst same
      decide +kernel
    · subst same
      decide +kernel
    · subst same
      decide +kernel
    · exact cuts_nothing _ _
  script _ text := by
    simp only [parsers]
    split_ifs with same
    · subst same
      decide +kernel
    · exact cuts_nothing _ _

end Accented

/-- Places on the first line of a template have all before them that stands there in the file. -/
theorem accented_cut_keeps_places :
    Accented.parsers.TellsPlaces Accented.source ∧
      (Accented.parsers.candidates Accented.source "a.vue").map (fun c => (c.tag, c.location, c.closing)) =
        [("i", ⟨1, 12⟩, none), ("b", ⟨2, 0⟩, some ⟨2, 4⟩)] ∧
      Accented.parsers.TellsPlaces Accented.faulty ∧
      (Accented.parsers.diagnostics Accented.faulty).map (List.map (Check.Diagnostic.text "a.vue")) =
        .ok ["a.vue(1,13): Template error: stray closing tag </i>", "a.vue(2,11): unexpected '?'"] ∧
      (⟨1, 1⟩ : Position).shift 0 11 = Position.ofOffset (encode Accented.source.toList) 14 := by
  have inPlace := cut_keeps_places.2 Accented.parsers Accented.sound
  refine ⟨inPlace _, by decide +kernel, inPlace _, by decide +kernel, ?_⟩
  exact cut_keeps_places.1 Accented.source 12 26 2 Accented.template (by decide +kernel) (by decide +kernel) (by decide)
    (by decide +kernel) (by decide +kernel)

end Remedy
