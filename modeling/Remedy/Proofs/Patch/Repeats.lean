import Remedy.Patch.Strategy
import Remedy.Proofs.Fix.Distinct
import Remedy.Proofs.Fix.Sameness

/-!
Repeated fixes. Of all fixes that say the same the first is kept, wherever the others stand, so a text becomes the same with them
and without them.

Fixes are told apart by a text. That no two fixes that differ are taken for one is a matter of how this text is written.
-/

namespace Remedy

/-- Two lists of fixes that make the same of every text, in each way of patching: for pages and scripts whatever tree the text is
given, and for pages wherever selectors lead. -/
structure Patch.Alike (fixes others : List Fix) : Prop where
  html : ∀ source root lookup, (Html.applyTo source root lookup fixes).text = (Html.applyTo source root lookup others).text
  jsx : ∀ source root, (Jsx.applyTo source root fixes).text = (Jsx.applyTo source root others).text
  component : ∀ source, (Component.apply source fixes).text = (Component.apply source others).text

theorem Patch.Alike.strategy {fixes others : List Fix} (alike : Alike fixes others) (d : Dialect) (source : String) :
    (strategy d source fixes).text = (strategy d source others).text := by
  cases d with
  | html => exact alike.html source _ _
  | jsx => exact alike.jsx source _
  | component => exact alike.component source

/-- No way of patching looks at more than the fixes that are kept. -/
theorem Patch.alike_of_distinct {fixes others : List Fix} (same : (Fix.distinct fixes).1 = (Fix.distinct others).1) :
    Alike fixes others where
  html source root lookup := by simp only [Html.applyTo, same]
  jsx source root := by simp only [Jsx.applyTo, same]
  component source := by simp only [Component.apply, same]

namespace Fix

/-! ### By texts -/

/-- Drops repeated fixes by their texts: `seen` holds those of the fixes kept so far. -/
def distinctByText (seen : List String) : List Fix → List Fix × List Notice
  | [] => ([], [])
  | f :: rest =>
    if f.identityText ∈ seen then
      let (kept, notices) := distinctByText seen rest
      (kept, .duplicate f :: notices)
    else
      let (kept, notices) := distinctByText (seen ++ [f.identityText]) rest
      (f :: kept, notices)

/-- It comes to the same as dropping them by what the texts say. -/
theorem distinctByText_eq {before fixes : List Fix} (accepted : ∀ f ∈ before ++ fixes, f.Accepted) :
    distinctByText (before.map identityText) fixes = distinctFrom before fixes := by
  induction fixes generalizing before with
  | nil => rfl
  | cons f rest told =>
    -- Both know the same fixes from before, the one by their texts and the other by what these say.
    have seen : f.identityText ∈ before.map identityText ↔ isRepeated before f = true := by
      rw [List.mem_map, isRepeated_iff]
      refine exists_congr fun g => and_congr_right fun member => ?_
      exact (accepted g (List.mem_append_left _ member)).identityText_eq_iff (accepted f (by simp))
    have without : ∀ g ∈ before ++ rest, g.Accepted := by
      intro g member
      rcases List.mem_append.mp member with old | later
      · exact accepted g (List.mem_append_left _ old)
      · exact accepted g (List.mem_append_right _ (List.mem_cons_of_mem f later))
    have next := @told (before ++ [f]) (by simpa using accepted)
    rw [List.map_append, List.map_singleton] at next
    rw [distinctByText, distinctFrom]
    simp only [seen, told without, next]

/-! ### First occurrences -/

/-- How fixes are sifted, one after another: one that says what none before it says is kept; one that says the same as a fix that
was kept is dropped. -/
inductive Sifted : List Fix → List Fix → List Fix → Prop
  | nil : Sifted [] [] []
  | keep {fixes kept dropped : List Fix} {f : Fix} (before : Sifted fixes kept dropped) (first : ∀ g ∈ fixes, ¬ g.Same f) :
    Sifted (fixes ++ [f]) (kept ++ [f]) dropped
  | drop {fixes kept dropped : List Fix} {f g : Fix} (before : Sifted fixes kept dropped) (member : g ∈ kept) (same : g.Same f) :
    Sifted (fixes ++ [f]) kept (dropped ++ [f])

theorem exists_sifted {fixes : List Fix} (accepted : ∀ f ∈ fixes, f.Accepted) :
    ∃ dropped, Sifted fixes (distinct fixes).1 dropped ∧ (distinct fixes).2 = dropped.map .duplicate := by
  induction fixes using List.reverseRecOn with
  | nil => exact ⟨[], .nil, rfl⟩
  | append_singleton fixes f told =>
    have earlier : ∀ g ∈ fixes, g.Accepted := fun g member => accepted g (List.mem_append_left _ member)
    have same {g : Fix} (member : g ∈ fixes) : g.identity = f.identity ↔ g.Same f :=
      (earlier g member).identity_eq_iff (accepted f (by simp))
    obtain ⟨dropped, sifted, notices⟩ := told earlier
    rw [distinct_concat]
    cases repeated : isRepeated fixes f with
    | true =>
      -- Of the fixes before it that say the same, the first was kept.
      obtain ⟨e, before, equal⟩ := isRepeated_iff.mp repeated
      obtain ⟨g, kept, equal'⟩ := (@exists_mem_distinctFrom [] fixes e before).resolve_left Bool.false_ne_true
      have alike : g.Same f := (same ((distinctFrom_sublist [] fixes).subset kept)).mp (equal'.trans equal)
      exact ⟨dropped ++ [f], sifted.drop kept alike, by simp [notices]⟩
    | false =>
      have first : ∀ g ∈ fixes, ¬ g.Same f := by
        intro g member alike
        have old := isRepeated_iff.mpr ⟨g, member, (same member).mpr alike⟩
        rw [repeated] at old
        cases old
      exact ⟨dropped, sifted.keep first, notices⟩

/-- A fix that says the same as one before it changes nothing. -/
theorem alike_insert {before : List Fix} {f g : Fix} (member : g ∈ before) (same : g.Same f) (after : List Fix) :
    Patch.Alike (before ++ f :: after) (before ++ after) :=
  Patch.alike_of_distinct (distinct_insert (isRepeated_iff.mpr ⟨g, member, same.identity_eq⟩) after)

/-- **The first of all fixes that say the same is kept.** Two fixes that were accepted have one text exactly if they agree in all but
their reasoning and context. So none that differs in anything else is dropped, one that says the same is kept before each that is,
and the others make no difference, wherever they stand after the first, to what any text becomes. -/
theorem first_occurrences_kept {fixes : List Fix} (accepted : ∀ f ∈ fixes, f.Accepted) :
    (∀ f ∈ fixes, ∀ g ∈ fixes, f.identityText = g.identityText ↔ f.Same g) ∧
      distinctByText [] fixes = distinct fixes ∧
      (∃ dropped, Sifted fixes (distinct fixes).1 dropped ∧ (distinct fixes).2 = dropped.map .duplicate) ∧
      ∀ before after f, fixes = before ++ after → (∃ g ∈ before, g.Same f) → Patch.Alike (before ++ f :: after) fixes := by
  refine ⟨?told, @distinctByText_eq [] fixes accepted, exists_sifted accepted, ?inserted⟩
  case told =>
    intro f member g member'
    have texts := (accepted f member).identityText_eq_iff (accepted g member')
    exact texts.trans ((accepted f member).identity_eq_iff (accepted g member'))
  case inserted =>
    rintro before after f rfl ⟨g, member, same⟩
    exact alike_insert member same after

namespace Caption

/-- A fix as it may be given: it describes an image, in quotes. -/
def given (reasoning : String) (extras : List (String × Json)) : Json :=
  .obj [("fixType", .str "add-attribute"), ("payload", .obj [("attribute", .str "alt"), ("value", .str "a \"cat\"")]),
    ("metadata", .obj (("reasoning", .str reasoning) :: extras))]

def read (reasoning : String) (extras : List (String × Json)) : Fix :=
  ⟨.addAttribute, "", ⟨some "alt", some "a \"cat\"", none, none, []⟩, ⟨.null, none, some reasoning, none, extras⟩⟩

def first : Fix := read "There is none." [("impact", .null)]

/-- The same with other words. -/
def again : Fix := read "Images need one." [("impact", .null)]

/-- Nothing is not the same as null. -/
def bare : Fix := read "There is none." []

theorem accepted {reasoning : String} {extras : List (String × Json)}
    (proper : (Json.obj (("reasoning", .str reasoning) :: extras)).Proper)
    (readable : Fix.read (given reasoning extras) = .ok (read reasoning extras)) (finite : Json.finiteFields extras = extras) :
    (read reasoning extras).Accepted := by
  have whole : (given reasoning extras).Proper := ⟨by simp, trivial, ⟨by simp, trivial, trivial, trivial⟩, proper, trivial⟩
  exact .read (Json.parse?_compact whole) readable finite

end Caption

/-- Of three fixes two say the same, and the second of these is dropped. -/
theorem captions_sifted :
    (∀ f ∈ [Caption.first, Caption.again, Caption.bare], f.Accepted) ∧
      Caption.first.identityText = Caption.again.identityText ∧ Caption.first.identityText ≠ Caption.bare.identityText ∧
      (∃ dropped, Sifted [Caption.first, Caption.again, Caption.bare] [Caption.first, Caption.bare] dropped) ∧
      Patch.Alike [Caption.first, Caption.again, Caption.bare] [Caption.first, Caption.bare] := by
  have first : Caption.first.Accepted := Caption.accepted ⟨by simp, trivial, trivial, trivial⟩ (by cbv) rfl
  have again : Caption.again.Accepted := Caption.accepted ⟨by simp, trivial, trivial, trivial⟩ (by cbv) rfl
  have bare : Caption.bare.Accepted := Caption.accepted ⟨by simp, trivial, trivial⟩ (by cbv) rfl
  have accepted : ∀ f ∈ [Caption.first, Caption.again, Caption.bare], f.Accepted := by simp [first, again, bare]
  have same : Caption.first.Same Caption.again := ⟨rfl, rfl, rfl, rfl, rfl, rfl⟩
  have other : ¬ Caption.first.Same Caption.bare := fun same => absurd same.extras (by simp [Caption.first, Caption.bare, Caption.read])
  obtain ⟨texts, _, ⟨dropped, sifted, _⟩, _⟩ := first_occurrences_kept accepted
  obtain ⟨_, _, _, inserted⟩ := @first_occurrences_kept [Caption.first, Caption.bare] (by simp [first, bare])
  refine ⟨accepted, (texts _ (by simp) _ (by simp)).mpr same, fun equal => other ((texts _ (by simp) _ (by simp)).mp equal),
    ⟨dropped, sifted⟩, ?_⟩
  exact inserted [Caption.first] [Caption.bare] Caption.again rfl ⟨_, List.mem_singleton_self _, same⟩

end Fix

end Remedy
