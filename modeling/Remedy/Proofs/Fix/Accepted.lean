import Remedy.Html.Scanner
import Remedy.Patch.Component
import Remedy.Proofs.Fix.Change
import Remedy.Proofs.Fix.Reading
import Remedy.Proofs.Text.Runs

/-!
What the patchers may rely on in a fix that was read: they write its texts into a source as they are.

Every kind has the texts that it asks for. Two things are let pass where an element is given another tag: a line feed behind the
name of the tag, and attributes without a name. Where neither is there, nothing is left to check before writing.
-/

namespace Remedy

/-! ### Names in a text -/

/-- Characters that names of tags are read by. Readers differ in what they take besides, but none goes on over a line feed. -/
structure NameClass (part : Char → Bool) : Prop where
  tag : ∀ c, isTagPart c = true → part c = true
  feed : part '\n' = false

/-- The one name that is read where a text has been written over a name, whatever stands behind. -/
def ReadAs (text name : List Char) : Prop :=
  ∀ part, NameClass part → ∀ rest, Ends part rest → (text ++ rest).takeWhile part = name

theorem nameClass_html : NameClass Html.Scan.isNameChar where
  tag c h := by
    rw [Html.Scan.isNameChar, Bool.or_eq_true]
    exact Or.inl h
  feed := by decide

theorem nameClass_component : NameClass Patch.Component.isTagNamePart where
  tag c h := by
    rw [isTagPart, Bool.or_eq_true] at h
    rcases h with letter | hyphen
    · simp [Patch.Component.isTagNamePart, letter]
    · simp [Patch.Component.isTagNamePart, hyphen]
  feed := by decide

theorem IsTag.takeWhile_eq {name : List Char} (h : IsTag name) {part : Char → Bool} (names : NameClass part) {rest : List Char}
    (ends : Ends part rest) : (name ++ rest).takeWhile part = name :=
  takeWhile_ends (fun c member => names.tag c (h.part c member)) ends

theorem IsTag.readAs {name : List Char} (h : IsTag name) : ReadAs name name :=
  fun _ names _ ends => h.takeWhile_eq names ends

/-- A line feed behind a name ends it. -/
theorem IsTag.readAs_feed {name : List Char} (h : IsTag name) : ReadAs (name ++ ['\n']) name := by
  intro part names rest _
  rw [List.append_assoc, List.singleton_append]
  refine h.takeWhile_eq names fun c first => ?_
  rw [← Option.some.inj first]
  exact names.feed

namespace Fix

/-- What a patcher relies on when it writes a fix into a source. -/
structure Patchable (f : Fix) : Prop where
  named : ∀ u ∈ f.updates, u.1 ≠ ""
  tagged : f.kind = .convertTag → ∃ tag, f.payload.tagName = some tag ∧ IsTag tag.toList ∧ ReadAs tag.toList tag.toList
  filled : f.kind = .addElement → ∃ html, f.payload.html = some html ∧ html ≠ ""

/-- A payload without the two things that are let pass. -/
structure Plain (f : Fix) : Prop where
  named : ∀ u ∈ f.payload.attributes, u.1 ≠ ""
  oneLine : ∀ tag, f.payload.tagName = some tag → '\n' ∉ tag.toList

/-- What every fix that was read is sure to have. -/
structure Guarded (f : Fix) : Prop where
  /-- All texts that the kind asks for are there, and those that must not be empty are not. -/
  described : ∃ c, f.Describes c ∧ f.updates = c.updates
  /-- However the new tag is written, the name that is read there is a tag name. -/
  tagged : f.kind = .convertTag → ∃ tag name, f.payload.tagName = some tag ∧ IsTag name ∧
    (tag.toList = name ∨ tag.toList = name ++ ['\n']) ∧ ReadAs tag.toList name
  /-- Nothing else needs to be checked, and for tags both things do. -/
  patchable : f.Patchable ↔ (f.kind = .convertTag → f.Plain)

section

variable {f : Fix} {c : Change}

theorem updates_of_describes (described : f.Describes c) : f.updates = c.updates := by
  rw [updates, change?_eq_some_iff.mpr described]

theorem Describes.tagged (described : f.Describes c) (kind : f.kind = .convertTag) :
    c.updates = f.payload.attributes ∧
      ∃ tag name, f.payload.tagName = some tag ∧ IsTag name ∧ (tag.toList = name ∨ tag.toList = name ++ ['\n']) := by
  cases described with
  | @sets overwrite name value other => cases overwrite <;> simp [other] at kind
  | inserts other => simp [other] at kind
  | renames _ given valid =>
    obtain ⟨name, isTag, spelled⟩ := isTagName_iff.mp valid
    exact ⟨rfl, _, name, given, isTag, spelled⟩

theorem Describes.patchable_iff (described : f.Describes c) : f.Patchable ↔ (f.kind = .convertTag → f.Plain) := by
  have updates := updates_of_describes described
  constructor
  · intro patchable kind
    have all := updates.trans (described.tagged kind).1
    obtain ⟨tag, given, isTag, _⟩ := patchable.tagged kind
    refine ⟨fun u member => patchable.named u (all ▸ member), fun other given' => ?_⟩
    obtain rfl := Option.some.inj (given.symm.trans given')
    exact isTag.feed
  · intro plain
    refine ⟨?_, fun kind => ?_, ?_⟩
    · rw [updates]
      cases described with
      | sets _ _ nonempty _ => simpa [Change.updates] using nonempty
      | inserts => simp [Change.updates]
      | renames kind => exact (plain kind).named
    · obtain ⟨_, tag, name, given, isTag, spelled | spelled⟩ := described.tagged kind
      · exact ⟨tag, given, spelled ▸ isTag, spelled ▸ isTag.readAs⟩
      · exact absurd (by simp [spelled]) ((plain kind).oneLine tag given)
    · intro kind
      cases described with
      | @sets overwrite _ _ other => cases overwrite <;> simp [other] at kind
      | inserts _ given nonempty => exact ⟨_, given, nonempty⟩
      | renames other => simp [other] at kind

end

/-- **What a fix is sure to have once it was read.** All texts that its kind asks for are there. A patcher finds what it relies on,
unless the fix gives another tag and has a line feed behind its name or an attribute without a name. -/
theorem guarded_of_read {v : Json} {f : Fix} (accepted : Fix.read v = .ok f) : f.Guarded := by
  obtain ⟨_, _, _, _, _, _, valid⟩ := read_eq_ok_iff.mp accepted
  obtain ⟨c, change⟩ := Option.isSome_iff_exists.mp valid
  have described := change?_eq_some_iff.mp change
  refine ⟨⟨c, described, updates_of_describes described⟩, fun kind => ?_, described.patchable_iff⟩
  obtain ⟨_, tag, name, given, isTag, spelled⟩ := described.tagged kind
  refine ⟨tag, name, given, isTag, spelled, ?_⟩
  rcases spelled with same | fed
  · exact same ▸ isTag.readAs
  · exact fed ▸ isTag.readAs_feed

/-- A fix that gives an element another tag and attributes, as it is given. -/
def renameToJson (tag : String) (attributes : List (String × String)) : Json :=
  .obj [("fixType", .str "convert-tag"), ("payload", .obj [("tagName", .str tag), ("attributes", Signature.ofTexts attributes)])]

/-- What is read of it. -/
def renameTo (tag : String) (attributes : List (String × String)) : Fix :=
  ⟨.convertTag, "", ⟨none, none, none, some tag, attributes⟩, .empty⟩

/-- A heading that was read may be written: the readers of pages and of components both find its name. -/
theorem heading_patchable :
    Fix.read (renameToJson "h2" [("title", "T")]) = .ok (renameTo "h2" [("title", "T")]) ∧
      (renameTo "h2" [("title", "T")]).Patchable ∧
      ("h2".toList ++ " id=x>".toList).takeWhile Html.Scan.isNameChar = "h2".toList ∧
      ("h2".toList ++ " id=x>".toList).takeWhile Patch.Component.isTagNamePart = "h2".toList := by
  have accepted : Fix.read (renameToJson "h2" [("title", "T")]) = .ok (renameTo "h2" [("title", "T")]) := rfl
  have guarded := guarded_of_read accepted
  have patchable : (renameTo "h2" [("title", "T")]).Patchable := by
    refine guarded.patchable.mpr fun _ => ⟨by decide, fun tag given => ?_⟩
    obtain rfl := Option.some.inj given
    decide
  obtain ⟨tag, given, _, alone⟩ := patchable.tagged rfl
  obtain rfl := Option.some.inj given
  refine ⟨accepted, patchable, alone _ nameClass_html _ ?_, alone _ nameClass_component _ ?_⟩
  · intro c first
    obtain rfl := Option.some.inj first
    decide
  · intro c first
    obtain rfl := Option.some.inj first
    decide

/-- The two things that are let pass: a line feed behind the name of a tag, and an attribute without a name. -/
theorem feed_and_nameless_accepted :
    (Fix.read (renameToJson "b\n" []) = .ok (renameTo "b\n" []) ∧ ¬ (renameTo "b\n" []).Patchable) ∧
      Fix.read (renameToJson "b" [("", "x")]) = .ok (renameTo "b" [("", "x")]) ∧
      (renameTo "b" [("", "x")]).updates = [("", "x")] ∧ ¬ (renameTo "b" [("", "x")]).Patchable := by
  refine ⟨⟨rfl, fun patchable => ?_⟩, rfl, rfl, fun patchable => ?_⟩
  · obtain ⟨tag, given, isTag, _⟩ := patchable.tagged rfl
    obtain rfl := Option.some.inj given
    exact absurd isTag.feed (by decide)
  · exact patchable.named ("", "x") (by decide) rfl

end Fix

end Remedy
