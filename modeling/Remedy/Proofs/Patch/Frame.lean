import Remedy.Patch.Strategy
import Remedy.Proofs.Patch.ComponentPlacement
import Remedy.Proofs.Patch.Placement

/-!
What a pass leaves alone, in whatever way a file is patched: all that its edits do not cover.

The trees of pages and scripts, and the places that selectors lead to, may come from anywhere; trees need only be trees
over their texts.
-/

namespace Remedy.Patch

open Text (encode)

/-- What fixes are planned by: the trees of pages and of scripts, and the places that selectors lead to on a page. -/
structure Parsers where
  html : String → Node
  jsx : String → Node
  lookup : String → Html.Lookup

namespace Parsers

/-- The parsers of this library. -/
def library : Parsers := ⟨Remedy.Html.parse, Script.parse .markup, Html.lookupOn⟩

variable (p : Parsers)

/-- What becomes of a text when fixes are planned by these. -/
def strategy : Dialect → Strategy
  | .html => fun source fixes => Html.applyTo source (p.html source) (p.lookup source) fixes
  | .jsx => fun source fixes => Jsx.applyTo source (p.jsx source) fixes
  | .component => Component.apply

theorem strategy_library : library.strategy = Patch.strategy := by
  funext dialect source fixes
  cases dialect with
  | html => simp only [strategy, library, Patch.strategy, Html.apply]
  | jsx => simp only [strategy, library, Patch.strategy, Jsx.apply]
  | component => rfl

/-- The edits that a pass accepts, as replacements of bytes of its text. -/
def edits : Dialect → String → List Fix → List Replacement
  | .html, source, fixes =>
    match Html.planOf source (p.html source) (p.lookup source) fixes with
    | .ok plan => plan.edits
    | .error _ => []
  | .jsx, source, fixes =>
    match Jsx.planOf source (p.jsx source) fixes with
    | .ok plan => plan.edits
    | .error _ => []
  | .component, source, fixes =>
    (Component.planOf (Component.linesOf source) fixes).edits.map (LineEdit.toReplacement (Component.linesOf source))

/-- Every tree is a tree over its text, and in scripts the tags of an element are known by their kinds. -/
structure Sound : Prop where
  html : ∀ source, (p.html source).IsTreeOver (encode source.toList).length
  jsx : ∀ source, (p.jsx source).IsTreeOver (encode source.toList).length
  tagged : ∀ source, Jsx.Tagged (p.jsx source)

variable {p}

/-- **A pass changes nothing but what its edits cover.** -/
theorem Sound.changedWithin (h : p.Sound) {dialect : Dialect} {source content : String} {fixes : List Fix}
    (counted : dialect = .component → Component.CountedFromLeft fixes)
    (patched : (p.strategy dialect source fixes).text = .ok content) :
    ChangedWithin (p.edits dialect source fixes) 0 (encode source.toList) (encode content.toList) := by
  cases dialect with
  | html =>
    rw [strategy, Html.text_applyTo] at patched
    rw [edits]
    cases planned : Html.planOf source (p.html source) (p.lookup source) fixes with
    | error e => rw [planned] at patched; contradiction
    | ok plan =>
      rw [planned] at patched
      apply changedWithin_of_finish _ patched
      rw [Html.planOf_eq] at planned
      exact (Html.reading_fits (h.html source) _ _).coexist_pass planned
  | jsx =>
    rw [strategy, Jsx.text_applyTo] at patched
    rw [edits]
    cases planned : Jsx.planOf source (p.jsx source) fixes with
    | error e => rw [planned] at patched; contradiction
    | ok plan =>
      rw [planned] at patched
      apply changedWithin_of_finish _ patched
      rw [Jsx.planOf_eq] at planned
      exact (Jsx.reading_fits (h.jsx source) (h.tagged source) _).coexist_pass planned
  | component =>
    rw [strategy, Component.text_apply] at patched
    obtain rfl := Except.ok.inj patched
    exact Component.changedWithin_textOf source (counted rfl)

end Parsers

end Remedy.Patch
