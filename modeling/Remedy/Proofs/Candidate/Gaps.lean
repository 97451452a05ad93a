import Mathlib.Data.List.Basic
import Remedy.Candidate.Html
import Remedy.Proofs.Markup.Quotes
import Remedy.Proofs.Text.Places

/-!
The text of an element, and what stands between its parts.

Parts of a text that have only tags between them are glued together, and those that have blanks between them get a space. The
join looks for blanks in all that stands between two parts, tags and all. So a tag with attributes counts as a blank, and only
where there is a blank outside of tags as well, nothing is wrong with that.
-/

namespace Remedy

open Text (Bytes encode sliceBytes joinedFrom isBlankByte normalize unescape)

/-! ### Gaps -/

/-- Blanks of ASCII. Other blanks are parts of texts. -/
def Text.isAsciiBlank (c : Char) : Bool := (9 ≤ c.toNat && c.toNat ≤ 13) || c.toNat == 32

/-- A blank byte of a character is the whole of it. -/
theorem Text.any_isBlankByte_char (c : Char) : (String.utf8EncodeChar c).any isBlankByte = Text.isAsciiBlank c := by
  have range (b : UInt8) : isBlankByte b = true ↔ 9 ≤ b.toNat ∧ b.toNat ≤ 13 ∨ b.toNat = 32 := by
    simp only [isBlankByte, Bool.or_eq_true, Bool.and_eq_true, decide_eq_true_eq, beq_iff_eq, UInt8.le_iff_toNat_le,
      ← UInt8.toNat_inj, UInt8.reduceToNat]
  rw [Bool.eq_iff_iff, List.any_eq_true]
  constructor
  · rintro ⟨b, member, blank⟩
    rw [range] at blank
    have same := Text.eq_of_mem_utf8EncodeChar member (by omega)
    simp only [Text.isAsciiBlank, Bool.or_eq_true, Bool.and_eq_true, decide_eq_true_eq, beq_iff_eq]
    omega
  · intro blank
    simp only [Text.isAsciiBlank, Bool.or_eq_true, Bool.and_eq_true, decide_eq_true_eq, beq_iff_eq] at blank
    have small : c.val.toNat ≤ 127 := by
      change c.toNat ≤ 127
      omega
    have alone : c.utf8Size = 1 := Char.utf8Size_eq_one_iff.mpr (UInt32.le_iff_toNat_le.mpr small)
    have byte : c.val.toUInt8.toNat = c.toNat := by
      change c.val.toNat % 256 = c.val.toNat
      omega
    rw [String.utf8EncodeChar_eq_singleton alone]
    refine ⟨_, List.mem_singleton_self _, ?_⟩
    rw [range, byte]
    exact blank

theorem Text.any_isBlankByte_encode (cs : List Char) : (encode cs).any isBlankByte = cs.any Text.isAsciiBlank := by
  induction cs with
  | nil => rfl
  | cons c cs ih => rw [encode, List.flatMap_cons, List.any_append, ← encode, ih, Text.any_isBlankByte_char, List.any_cons]

/-- A piece of a gap: a blank, or a tag. -/
inductive Piece where
  | blank (c : Char) (isBlank : Text.isAsciiBlank c = true)
  | tag (inside : List Char) (closed : Markup.IsInside inside)

namespace Piece

def text : Piece → List Char
  | blank c _ => [c]
  | tag inside _ => '<' :: (inside ++ ['>'])

/-- What a piece is to a reader who does not look into tags. -/
def outside : Piece → Option Char
  | blank c _ => some c
  | tag _ _ => none

/-- Whether a piece is a tag with a blank in it. -/
def hides : Piece → Bool
  | blank _ _ => false
  | tag inside _ => inside.any Text.isAsciiBlank

theorem any_text (p : Piece) : p.text.any Text.isAsciiBlank = (p.outside.isSome || p.hides) := by
  cases p with
  | blank c isBlank => simp [text, outside, hides, isBlank]
  | tag inside closed =>
    have open_ : Text.isAsciiBlank '<' = false := by decide
    have close : Text.isAsciiBlank '>' = false := by decide
    simp [text, outside, hides, open_, close]

end Piece

/-- What stands between two parts of a text. -/
structure Gap where
  pieces : List Piece

namespace Gap

def text (g : Gap) : List Char := g.pieces.flatMap Piece.text

/-- A gap without the insides of its tags. -/
def outside (g : Gap) : List (Option Char) := g.pieces.map Piece.outside

/-- Whether a gap has a blank outside of its tags. -/
def spaces (g : Gap) : Bool := g.outside.any Option.isSome

/-- Whether a gap has a tag with a blank in it. -/
def hides (g : Gap) : Bool := g.pieces.any Piece.hides

/-- A gap has a blank if it has one outside of its tags, or in one of them. -/
theorem any_text (g : Gap) : g.text.any Text.isAsciiBlank = (g.spaces || g.hides) := by
  obtain ⟨pieces⟩ := g
  simp only [text, spaces, hides, outside]
  induction pieces with
  | nil => rfl
  | cons p pieces ih =>
    rw [List.flatMap_cons, List.any_append, ih, p.any_text, List.map_cons, List.any_cons, List.any_cons]
    ac_rfl

end Gap

/-! ### Parts with gaps between them -/

/-- Nodes with their texts and the gaps before them, behind a byte where another one ends; before the first node there is no
gap. -/
inductive Parts (source : Bytes) : Option Nat → List Node → List (Gap × String) → Prop
  | nil {previous : Option Nat} : Parts source previous [] []
  | first {n : Node} {nodes : List Node} {rest : List (Gap × String)} (behind : Parts source (some n.stop) nodes rest) :
    Parts source none (n :: nodes) ((⟨[]⟩, n.textIn source) :: rest)
  | next {stop : Nat} {n : Node} {g : Gap} {nodes : List Node} {rest : List (Gap × String)}
    (gap : sliceBytes source stop n.start = encode g.text) (behind : Parts source (some n.stop) nodes rest) :
    Parts source (some stop) (n :: nodes) ((g, n.textIn source) :: rest)

/-- Texts one behind the other, with a space between two that a test of the gap asks for. -/
def spaced (test : Gap → Bool) (parts : List (Gap × String)) : List Char :=
  parts.flatMap fun (g, t) => (if test g then [' '] else []) ++ t.toList

theorem spaced_cons (test : Gap → Bool) (e : Gap × String) (parts : List (Gap × String)) :
    spaced test (e :: parts) = (if test e.1 then [' '] else []) ++ (e.2.toList ++ spaced test parts) := by
  rw [spaced, List.flatMap_cons, List.append_assoc]
  rfl

/-- The content of an element, by its parts: spaces are where there are blanks outside of tags. -/
def content (parts : List (Gap × String)) : List Char := spaced Gap.spaces parts

section

variable {source : Bytes} {previous : Option Nat} {nodes : List Node} {parts : List (Gap × String)}

/-- The join puts a space wherever there is any blank in a gap. -/
theorem joinedFrom_parts (h : Parts source previous nodes parts) :
    joinedFrom source previous nodes = spaced (fun g => g.spaces || g.hides) parts := by
  -- The join goes from node to node as the parts do; behind the first one it asks for a blank byte in the gap.
  induction h with
  | nil => rfl
  | @first n nodes rest behind ih =>
    simp only [joinedFrom, ih, spaced_cons]
    rfl
  | @next stop n g nodes rest gap behind ih =>
    simp only [joinedFrom, gap, Text.any_isBlankByte_encode, g.any_text, ih, spaced_cons]
    split <;> rfl

theorem length_spaced_le {test test' : Gap → Bool} (weaker : ∀ g, test g = true → test' g = true)
    (parts : List (Gap × String)) : (spaced test parts).length ≤ (spaced test' parts).length := by
  induction parts with
  | nil => exact Nat.le_refl _
  | cons e parts ih =>
    have here : (if test e.1 then [' '] else []).length ≤ (if test' e.1 then [' '] else []).length := by
      cases asked : test e.1 with
      | false => exact Nat.zero_le _
      | true => simp [weaker e.1 asked]
    rw [spaced_cons, spaced_cons, List.length_append, List.length_append, List.length_append, List.length_append]
    omega

/-- Nothing is wrong with that exactly if no blank in a tag goes without one outside. -/
theorem spaced_eq_iff (parts : List (Gap × String)) :
    spaced (fun g => g.spaces || g.hides) parts = content parts ↔ ∀ e ∈ parts, e.1.hides = true → e.1.spaces = true := by
  rw [content]
  induction parts with
  | nil => simp [spaced]
  | cons e parts ih =>
    rw [List.forall_mem_cons, ← ih]
    rw [spaced_cons, spaced_cons]
    cases spaces : e.1.spaces with
    | true => simp
    | false =>
      cases hides : e.1.hides with
      | false => simp
      | true =>
        -- There is a space too many, and nothing further on makes up for it.
        have longer : (spaced Gap.spaces parts).length ≤ (spaced (fun g => g.spaces || g.hides) parts).length :=
          length_spaced_le (by simp +contextual) parts
        constructor
        · intro same
          have length := congrArg List.length same
          simp at length
          omega
        · rintro ⟨asks, _⟩
          exact absurd (asks rfl) (by simp)

/-- The content depends on the texts, and on what stands in the gaps outside of tags. -/
theorem content_congr {parts' : List (Gap × String)}
    (same : parts.map (fun e => (e.1.outside, e.2)) = parts'.map fun e => (e.1.outside, e.2)) : content parts = content parts' := by
  have byOutside (parts : List (Gap × String)) : content parts =
      (parts.map fun e => (e.1.outside, e.2)).flatMap fun (o, t) => (if o.any Option.isSome then [' '] else []) ++ t.toList := by
    simp only [content, spaced, List.flatMap_map, Gap.spaces]
    rfl
  rw [byOutside, byOutside, same]

end

namespace Candidate

section

variable {view : HtmlView} {source : Bytes} {file : String} {element : Node} {c : Candidate}

theorem text_ofHtmlElement? (made : ofHtmlElement? view source file element = some c) :
    c.text = Text.joined source (element.select ["text", "entity"]) := by
  obtain ⟨tag, _, made⟩ := Option.bind_eq_some_iff.mp made
  obtain ⟨name, _, made⟩ := Option.bind_eq_some_iff.mp made
  simp only at made
  split at made
  · cases made
  · rw [← Option.some.inj made]

/-- **The text of an element is its content, as long as no tag hides a blank.** Take any element whose texts have only tags and
blanks between them. They are joined with spaces exactly where there are blanks outside of the tags, if and only if each gap with
a blank in one of its tags has one outside of them as well. Then the text of the candidate is that content, and that of any other
candidate is the same whose texts are the same, with gaps that differ in nothing but the insides of tags. -/
theorem text_eq_content (made : ofHtmlElement? view source file element = some c) {parts : List (Gap × String)}
    (gaps : Parts source none (element.select ["text", "entity"]) parts) :
    (joinedFrom source none (element.select ["text", "entity"]) = content parts ↔
        ∀ e ∈ parts, e.1.hides = true → e.1.spaces = true) ∧
      ((∀ e ∈ parts, e.1.hides = true → e.1.spaces = true) →
        c.text = normalize (unescape (String.ofList (content parts))) ∧
          ∀ (view' : HtmlView) (source' : Bytes) (file' : String) (element' : Node) (c' : Candidate) (parts' : List (Gap × String)),
            ofHtmlElement? view' source' file' element' = some c' →
              Parts source' none (element'.select ["text", "entity"]) parts' →
                (∀ e ∈ parts', e.1.hides = true → e.1.spaces = true) →
                  parts'.map (fun e => (e.1.outside, e.2)) = parts.map (fun e => (e.1.outside, e.2)) → c'.text = c.text) := by
  have read {view : HtmlView} {source : Bytes} {file : String} {element : Node} {c : Candidate} {parts : List (Gap × String)}
      (made : ofHtmlElement? view source file element = some c)
      (gaps : Parts source none (element.select ["text", "entity"]) parts)
      (plain : ∀ e ∈ parts, e.1.hides = true → e.1.spaces = true) :
      c.text = normalize (unescape (String.ofList (content parts))) := by
    rw [text_ofHtmlElement? made, Text.joined, joinedFrom_parts gaps, (spaced_eq_iff parts).mpr plain]
  constructor
  · rw [joinedFrom_parts gaps, spaced_eq_iff]
  · intro plain
    refine ⟨read made gaps plain, fun view' source' file' element' c' parts' made' gaps' plain' same => ?_⟩
    rw [read made gaps plain, read made' gaps' plain', content_congr same]

end

namespace Paragraph

/-- A paragraph with a bold letter behind some text, and another letter right behind it. -/
def page (text bold : String) : Bytes := encode ("<p>" ++ text ++ bold ++ "b</b><i>c</i></p>").toList

def part (kind : String) (start stop : Nat) (children : List Node) : Node :=
  .mk kind true false false start stop none children

/-- Its tree, by where the open tag of the bold letter begins and ends, and what it has behind its name. -/
def element (start stop : Nat) (attributes : List Node) : Node :=
  part "element" 0 (stop + 17) [
    part "start_tag" 0 3 [part "tag_name" 1 2 []],
    part "text" 3 4 [],
    part "element" start (stop + 5) [
      part "start_tag" start stop (part "tag_name" (start + 1) (start + 2) [] :: attributes),
      part "text" stop (stop + 1) [],
      part "end_tag" (stop + 1) (stop + 5) [part "tag_name" (stop + 3) (stop + 4) []]],
    part "element" (stop + 5) (stop + 13) [
      part "start_tag" (stop + 5) (stop + 8) [part "tag_name" (stop + 6) (stop + 7) []],
      part "text" (stop + 8) (stop + 9) [],
      part "end_tag" (stop + 9) (stop + 13) [part "tag_name" (stop + 11) (stop + 12) []]],
    part "end_tag" (stop + 13) (stop + 17) [part "tag_name" (stop + 15) (stop + 16) []]]

/-- The class of the bold letter. -/
def classAt (start : Nat) : List Node :=
  [part "attribute" start (start + 7) [
    part "attribute_name" start (start + 5) [], part "attribute_value" (start + 6) (start + 7) []]]

/-- What is told of the paragraph. -/
def candidate? (text bold : String) (element : Node) : Option Candidate :=
  ofHtmlElement? {} (page text bold) "a.html" element

def blank : Piece := .blank ' ' (by decide)

def bold : Piece := .tag ['b'] (by decide)

def classed : Piece := .tag "b class=x".toList (by decide)

/-- The gap behind the bold letter. -/
def glue : Gap := ⟨[.tag ['/', 'b'] (by decide), .tag ['i'] (by decide)]⟩

def parts (gap : Gap) : List (Gap × String) := [(⟨[]⟩, "a"), (gap, "b"), (glue, "c")]

theorem parts_spaced : Parts (page "a " "<b>") none ((element 5 8 []).select ["text", "entity"]) (parts ⟨[blank, bold]⟩) :=
  .first (.next (by decide) (.next (by decide) .nil))

theorem parts_spaced_classed :
    Parts (page "a " "<b class=x>") none ((element 5 16 (classAt 8)).select ["text", "entity"]) (parts ⟨[blank, classed]⟩) :=
  .first (.next (by decide) (.next (by decide) .nil))

theorem parts_classed :
    Parts (page "a" "<b class=x>") none ((element 4 15 (classAt 7)).select ["text", "entity"]) (parts ⟨[classed]⟩) :=
  .first (.next (by decide) (.next (by decide) .nil))

end Paragraph

/-- With a blank before it, the bold letter may have a class or none. -/
theorem bold_letter_classed :
    ∃ c c', Paragraph.candidate? "a " "<b>" (Paragraph.element 5 8 []) = some c ∧
      Paragraph.candidate? "a " "<b class=x>" (Paragraph.element 5 16 (Paragraph.classAt 8)) = some c' ∧
        c.text = "a bc" ∧ c'.text = c.text := by
  have told : (Paragraph.candidate? "a " "<b>" (Paragraph.element 5 8 [])).isSome = true ∧
      (Paragraph.candidate? "a " "<b class=x>" (Paragraph.element 5 16 (Paragraph.classAt 8))).isSome = true := by decide +kernel
  obtain ⟨c, made⟩ := Option.isSome_iff_exists.mp told.1
  obtain ⟨c', made'⟩ := Option.isSome_iff_exists.mp told.2
  have plain (open_ : Piece) : ∀ e ∈ Paragraph.parts ⟨[Paragraph.blank, open_]⟩, e.1.hides = true → e.1.spaces = true := by
    simp [Paragraph.parts, Paragraph.glue, Paragraph.blank, Gap.hides, Gap.spaces, Gap.outside, Piece.hides, Piece.outside,
      Text.isAsciiBlank]
  obtain ⟨text, alike⟩ := (text_eq_content made Paragraph.parts_spaced).2 (plain _)
  refine ⟨c, c', made, made', ?_, alike _ _ _ _ _ _ made' Paragraph.parts_spaced_classed (plain _) rfl⟩
  rw [text]
  cbv

/-- Without one, its class comes between the letters. -/
theorem class_between_letters :
    Parts (Paragraph.page "a" "<b class=x>") none ((Paragraph.element 4 15 (Paragraph.classAt 7)).select ["text", "entity"])
        (Paragraph.parts ⟨[Paragraph.classed]⟩) ∧
      normalize (unescape (String.ofList (content (Paragraph.parts ⟨[Paragraph.classed]⟩)))) = "abc" ∧
        (Paragraph.candidate? "a" "<b class=x>" (Paragraph.element 4 15 (Paragraph.classAt 7))).map (·.text) = some "a bc" ∧
          (Paragraph.candidate? "a" "<b>" (Paragraph.element 4 7 [])).map (·.text) = some "abc" := by
  refine ⟨Paragraph.parts_classed, ?_⟩
  decide +kernel

end Candidate

end Remedy
