import Remedy.Proofs.Patch.Frame
import Remedy.Proofs.Patch.Rejection
import Remedy.Proofs.Run.Guarantee
import Remedy.Proofs.Text.Lines

/-!
What is written to a file whose patch is applied as it is: the text that was read, changed only where edits were accepted.

The text that was read has line feeds only, so the same is true of the bytes of the file only if it has no carriage return.
-/

namespace Remedy

open Text (encode)

/-- The bytes of a file without carriage returns are those of its text. -/
theorem FileTree.encode_of_textOf {f : File} {text : String} (h : FileTree.textOf f = .ok text) (plain : 13 ∉ f.bytes) :
    encode text.toList = f.bytes := by
  rw [FileTree.textOf] at h
  split at h
  next cs decoded =>
    obtain rfl := Except.ok.inj h
    have bytes := Text.encode_of_decode? decoded
    rw [← bytes] at plain
    rw [String.toList_ofList, Text.universalNewlines_eq_self (Text.not_mem_of_encode plain), bytes]
  next => contradiction

namespace Tools

section

variable {tools : Tools σ} {file : Path} {fixes : List Fix} {w w' : Workspace σ} {o : Outcome} {events : List Event}

theorem conclude_eq {o' : Outcome} {led : List Event} (h : tools.conclude o fixes w led = (.ok o', w', events)) :
    o' = o ∧ w' = (tools.record o fixes w).1 :=
  ⟨(Except.ok.inj (congrArg Prod.fst h)).symm, (congrArg (fun progress => progress.2.1) h).symm⟩

theorem status_accept {o' : Outcome} {before content : String} {seen : List Event}
    (h : tools.accept o fixes before content w seen = (.ok o', w', events)) : o'.status = o.status := by
  simp only [accept] at h
  split at h <;> rw [(conclude_eq h).1]

/-- A text that is written over one that was read is what the file holds when the record is made. -/
theorem file?_accept {o' : Outcome} {before content : String} {seen : List Event}
    (h : tools.accept o fixes before content w seen = (.ok o', w', events)) (written : o'.written = true)
    (source : (Patch.Dialect.of? o.file).isSome) (read : w.tree.readText o.file = .ok before) :
    w'.tree.file? (w.tree.home.resolve o.file) = some ⟨encode content.toList, w.clock⟩ := by
  simp only [accept] at h
  split at h
  next =>
    obtain ⟨_, _, _, _, _, _, frame⟩ := tools.record_spec (w.writeSource o.file content)
      { o with written := tools.config.patch.apply, diff := Diff.unified before content (w.displayName o.file) } fixes
    rw [← (conclude_eq h).2, Workspace.writeSource, Workspace.putTree,
      FileTree.writeText_of_readText read content w.clock] at frame
    rw [frame _ (tools.not_isRecord_of_source w.tree.home source), FileTree.file?_put, if_pos rfl]
  next off =>
    rw [(conclude_eq h).1] at written
    exact absurd written off

/-- A text that is applied is the one that was to be settled. -/
theorem settle_applied {before content : String} {led : List Event}
    (turn : tools.settle file fixes before content w led = (.ok o, w', events)) (applied : o.status = .applied) :
    ∃ healing seen, tools.accept (.kept file .applied fixes []) fixes before content { w with healing := healing } seen =
      (.ok o, w', events) := by
  have way := (tools.verify_cases file content w.healing).1
  rw [settle] at turn
  generalize tools.verify file content w.healing = verified at turn way
  obtain ⟨verification, healing, seen⟩ := verified
  -- Only for a sound text is the outcome one of a text that was applied.
  cases verification with
  | rejected r => cases congrArg Prod.fst turn
  | refused errors =>
    simp only at turn
    rw [(conclude_eq turn).1] at applied
    contradiction
  | mended accepted errors =>
    simp only at turn
    rw [status_accept turn] at applied
    contradiction
  | sound accepted =>
    obtain rfl := way.unchanged rfl
    exact ⟨healing, _, turn⟩

/-- A patch that is applied was made of the text that was read, and is accepted as it is. -/
theorem applyFile_applied (turn : tools.applyFile file fixes w = (.ok o, w', events)) (applied : o.status = .applied) :
    ∃ dialect before content healing seen, Patch.Dialect.of? file = some dialect ∧ w.tree.readText file = .ok before ∧
      (tools.patch dialect before fixes).text = .ok content ∧
      tools.accept (.kept file .applied fixes []) fixes before content { w with healing := healing } seen =
        (.ok o, w', events) := by
  have kept {status : Status} {errors : List String} {led : List Event} (other : status ≠ .applied)
      (h : tools.conclude (.kept file status fixes errors) fixes w led = (.ok o, w', events)) : False := by
    rw [(conclude_eq h).1] at applied
    exact other applied
  unfold applyFile at turn
  split at turn
  · exact (kept (by decide) turn).elim
  next dialect kind =>
    split at turn
    · exact (kept (by decide) turn).elim
    next before read =>
      simp only at turn
      split at turn
      · exact (kept (by decide) turn).elim
      next content patched =>
        split at turn
        · exact (kept (by decide) turn).elim
        · obtain ⟨healing, seen, accepted⟩ := settle_applied turn applied
          exact ⟨dialect, before, content, healing, seen, kind, read, patched, accepted⟩

/-- **What is written differs from what was read only where edits were accepted.** A file that a patch is applied to as it
is holds the text that was read from it, but for stretches that accepted edits cover; in a component this takes fixes whose
places are counted from the left. If the file has no carriage return, the text is byte for byte what the file held. -/
theorem written_within_edits {parsers : Patch.Parsers} (patches : tools.patch = parsers.strategy) (sound : parsers.Sound)
    (turn : tools.applyFile file fixes w = (.ok o, w', events)) (applied : o.status = .applied) (written : o.written = true)
    (counted : Patch.Dialect.of? file = some .component → Patch.Component.CountedFromLeft fixes) :
    ∃ dialect f before g, Patch.Dialect.of? file = some dialect ∧
      w.tree.file? (w.tree.home.resolve file) = some f ∧ FileTree.textOf f = .ok before ∧
      w'.tree.file? (w.tree.home.resolve file) = some g ∧
      ChangedWithin (parsers.edits dialect before fixes) 0 (encode before.toList) g.bytes ∧
      (13 ∉ f.bytes → ChangedWithin (parsers.edits dialect before fixes) 0 f.bytes g.bytes) := by
  obtain ⟨dialect, before, content, healing, seen, kind, read, patched, accepted⟩ := applyFile_applied turn applied
  obtain ⟨_, f, found, text⟩ := FileTree.place_of_readText read
  have put := file?_accept accepted written (by rw [Outcome.kept, kind]; rfl) read
  rw [patches] at patched
  have changed : ChangedWithin (parsers.edits dialect before fixes) 0 (encode before.toList) (encode content.toList) := by
    apply sound.changedWithin _ patched
    rintro rfl
    exact counted kind
  refine ⟨dialect, f, before, _, kind, found, text, put, changed, fun plain => ?_⟩
  rwa [FileTree.encode_of_textOf text plain] at changed

/-- Where nothing is checked, a text is taken as it is. -/
theorem settle_unchecked (off : tools.config.patch.verify = false) (before content : String) (led : List Event) :
    tools.settle file fixes before content w led =
      tools.accept (.kept file .applied fixes []) fixes before content w (led ++ []) := by
  have verified : tools.verify file content w.healing = (.sound content, w.healing, []) := by
    simp only [verify, off, Bool.not_false, if_true]
  simp only [settle, verified]

/-- A text that is accepted is written, unless the run is a dry one. -/
theorem accept_written (on : tools.config.patch.apply = true) (before content : String) (led : List Event) :
    ∃ o' w' events, tools.accept o fixes before content w led = (.ok o', w', events) ∧ o'.written = true := by
  simp only [accept, on, if_true, conclude]
  exact ⟨_, _, _, rfl, rfl⟩

/-- Where nothing is checked, a patch that changes the text is applied and written. -/
theorem applyFile_unchecked {dialect : Patch.Dialect} {before content : String} (off : tools.config.patch.verify = false)
    (on : tools.config.patch.apply = true) (kind : Patch.Dialect.of? file = some dialect)
    (read : w.tree.readText file = .ok before) (patched : (tools.patch dialect before fixes).text = .ok content)
    (changed : content ≠ before) :
    ∃ o w' events, tools.applyFile file fixes w = (.ok o, w', events) ∧ o.status = .applied ∧ o.written = true ∧
      w'.tree.file? (w.tree.home.resolve file) = some ⟨encode content.toList, w.clock⟩ := by
  have turn : ∃ led,
      tools.applyFile file fixes w = tools.accept (.kept file .applied fixes []) fixes before content w led := by
    have settled := @settle_unchecked _ tools file fixes w off before content
      ((tools.patch dialect before fixes).notices.map fun n => .warned (.fix n))
    refine ⟨_, Eq.trans ?_ settled⟩
    unfold applyFile
    simp only [kind, read, patched, beq_iff_eq, changed, if_false]
  obtain ⟨led, turn⟩ := turn
  obtain ⟨o, w', events, accepted, written⟩ := accept_written (o := .kept file .applied fixes []) on before content led
  have put := file?_accept accepted written (by rw [Outcome.kept, kind]; rfl) read
  exact ⟨o, w', events, turn.trans accepted, status_accept accepted, written, put⟩

end

/-! ### Names in bold -/

namespace Bold

open Patch.Retitled (leaf page script lookup rename)

/-- Parsers that know one text, as a page and as a script. -/
def parsers : Patch.Parsers where
  html := fun text => if text = Patch.Retitled.source then page else leaf "document" none 0 0
  jsx := fun text => if text = Patch.Retitled.source then script else leaf "program" none 0 0
  lookup := fun _ => lookup

theorem parsers_sound : parsers.Sound where
  html text := by
    simp only [parsers]
    split
    next known => subst known; decide
    next => exact ⟨Nat.zero_le _, by decide⟩
  jsx text := by
    simp only [parsers]
    split
    next known => subst known; decide
    next => exact ⟨Nat.zero_le _, by decide⟩
  tagged text := by
    simp only [parsers]
    split <;> decide

/-- Tools that check nothing. -/
def unchecked : Tools Unit where
  config := { patch := { verify := false } }
  patch := parsers.strategy
  check := fun _ _ s => (.ok ⟨true, []⟩, s)
  healer := none
  stamp := fun _ => "now"

def home : Path := ⟨"/", ["desk"]⟩

/-- A workspace with one file in it. -/
def deskWith (name text : String) : Workspace Unit where
  tree := ⟨home, [(⟨"/", ["desk", name]⟩, ⟨encode text.toList, 0⟩)], [⟨"/", []⟩, home]⟩
  cache := []
  healing := ()
  clock := 1
  records := 0

/-- The second line of a component in bold, at both ends. -/
def bold : Fix :=
  ⟨.convertTag, "", ⟨none, none, none, some "b", []⟩, ⟨.null, none, none, some ⟨"", ⟨2, 0⟩, some ⟨2, 4⟩⟩, []⟩⟩

theorem bold_counted : Patch.Component.CountedFromLeft [bold] := by
  intro f member l place
  obtain rfl := List.mem_singleton.mp member
  obtain rfl := Option.some.inj place
  decide

def component : String := "<p>x</p>\n<i>t</i>\n"

theorem page_patched : (parsers.strategy .html Patch.Retitled.source [rename]).text = .ok "<b>t</b>" := by cbv

theorem component_patched : (parsers.strategy .component component [bold]).text = .ok "<p>x</p>\n<b>t</b>\n" := by cbv

theorem page_edits : parsers.edits .html Patch.Retitled.source [rename] = [⟨1, 2, "b"⟩, ⟨6, 7, "b"⟩] := by cbv

theorem component_edits : parsers.edits .component component [bold] = [⟨10, 11, "b"⟩, ⟨15, 16, "b"⟩] := by cbv

theorem file?_deskWith (name text : String) :
    (deskWith name text).tree.file? ⟨"/", ["desk", name]⟩ = some ⟨encode text.toList, 0⟩ := by
  simp [FileTree.file?, deskWith]

end Bold

open Bold

/-- In a page and in a component nothing but the names of the tags is written anew. -/
theorem names_within_edits :
    parsers.Sound ∧
      (∃ o w' events g, unchecked.applyFile ⟨"", ["p.html"]⟩ [Patch.Retitled.rename]
          (deskWith "p.html" Patch.Retitled.source) = (.ok o, w', events) ∧ o.status = .applied ∧
        w'.tree.file? ⟨"/", ["desk", "p.html"]⟩ = some g ∧ g.bytes = encode "<b>t</b>".toList ∧
        ChangedWithin [⟨1, 2, "b"⟩, ⟨6, 7, "b"⟩] 0 (encode "<a>t</a>".toList) g.bytes) ∧
      Patch.Component.CountedFromLeft [bold] ∧
      ∃ o w' events g, unchecked.applyFile ⟨"", ["c.vue"]⟩ [bold] (deskWith "c.vue" component) = (.ok o, w', events) ∧
        o.status = .applied ∧ w'.tree.file? ⟨"/", ["desk", "c.vue"]⟩ = some g ∧
        g.bytes = encode "<p>x</p>\n<b>t</b>\n".toList ∧
        ChangedWithin [⟨10, 11, "b"⟩, ⟨15, 16, "b"⟩] 0 (encode "<p>x</p>\n<i>t</i>\n".toList) g.bytes := by
  -- Both times the file is read as it is, and the turn is the one that the theorem is about.
  have within {name text content : String} {fixes : List Fix} {dialect : Patch.Dialect} {edits : List Replacement}
      (kind : Patch.Dialect.of? ⟨"", [name]⟩ = some dialect)
      (place : Bold.home.resolve ⟨"", [name]⟩ = ⟨"/", ["desk", name]⟩)
      (read : (deskWith name text).tree.readText ⟨"", [name]⟩ = .ok text)
      (patched : (parsers.strategy dialect text fixes).text = .ok content) (differs : content ≠ text)
      (counted : dialect = .component → Patch.Component.CountedFromLeft fixes)
      (planned : parsers.edits dialect text fixes = edits) (plain : 13 ∉ encode text.toList) :
      ∃ o w' events g, unchecked.applyFile ⟨"", [name]⟩ fixes (deskWith name text) = (.ok o, w', events) ∧
        o.status = .applied ∧ w'.tree.file? ⟨"/", ["desk", name]⟩ = some g ∧ g.bytes = encode content.toList ∧
        ChangedWithin edits 0 (encode text.toList) g.bytes := by
    obtain ⟨o, w', events, turn, applied, written, put⟩ := @applyFile_unchecked _ unchecked _ _ _ _ _ _ rfl rfl kind read
      patched differs
    obtain ⟨own, f, before, g, kind', found, told, held, _, changed⟩ :=
      written_within_edits rfl parsers_sound turn applied written fun component =>
        counted (by rwa [kind, Option.some.injEq] at component)
    change w'.tree.file? (Bold.home.resolve _) = _ at put held
    change (deskWith name text).tree.file? (Bold.home.resolve _) = _ at found
    rw [place] at put found held
    obtain rfl := Option.some.inj (kind.symm.trans kind')
    obtain rfl := Option.some.inj ((file?_deskWith name text).symm.trans found)
    obtain rfl := Option.some.inj (put.symm.trans held)
    obtain ⟨_, f, found, told'⟩ := FileTree.place_of_readText read
    change (deskWith name text).tree.file? (Bold.home.resolve _) = _ at found
    rw [place, file?_deskWith] at found
    obtain rfl := Option.some.inj found
    obtain rfl := Except.ok.inj (told'.symm.trans told)
    rw [planned] at changed
    exact ⟨o, w', events, _, turn, applied, put, rfl, changed plain⟩
  refine ⟨parsers_sound, ?_, bold_counted, ?_⟩
  · exact within (by decide +kernel) (by decide +kernel) (by cbv) page_patched (by decide) (fun other => by cases other)
      page_edits (by decide)
  · exact within (by decide +kernel) (by decide +kernel) (by cbv) component_patched (by decide) (fun _ => bold_counted)
      component_edits (by decide)

/-- With carriage returns in the component, these are lost, although no edit covers them. -/
theorem carriage_returns_lost :
    ¬ ∀ (tools : Tools Unit) (parsers : Patch.Parsers) (file : Path) (fixes : List Fix) (w w' : Workspace Unit) (o : Outcome)
      (events : List Event) (dialect : Patch.Dialect) (f g : File) (before : String),
      tools.patch = parsers.strategy → parsers.Sound → tools.applyFile file fixes w = (.ok o, w', events) →
      o.status = .applied → o.written = true →
      (Patch.Dialect.of? file = some .component → Patch.Component.CountedFromLeft fixes) →
      Patch.Dialect.of? file = some dialect → w.tree.file? (w.tree.home.resolve file) = some f →
      FileTree.textOf f = .ok before → w'.tree.file? (w.tree.home.resolve file) = some g →
      ChangedWithin (parsers.edits dialect before fixes) 0 f.bytes g.bytes := by
  intro claim
  let text := "<p>x</p>\r\n<i>t</i>\r\n"
  have kind : Patch.Dialect.of? ⟨"", ["c.vue"]⟩ = some .component := by decide +kernel
  have read : (deskWith "c.vue" text).tree.readText ⟨"", ["c.vue"]⟩ = .ok component := by cbv
  obtain ⟨_, f, found, told⟩ := FileTree.place_of_readText read
  obtain ⟨o, w', events, turn, applied, written, put⟩ := @applyFile_unchecked _ unchecked _ _ _ _ _ _ rfl rfl kind read
    component_patched (by decide)
  have changed := claim unchecked parsers _ _ _ _ _ _ _ f _ _ rfl parsers_sound turn applied written
    (fun _ => bold_counted) kind found told put
  have place : Bold.home.resolve ⟨"", ["c.vue"]⟩ = ⟨"/", ["desk", "c.vue"]⟩ := by decide +kernel
  change (deskWith "c.vue" text).tree.file? (Bold.home.resolve _) = _ at found
  rw [place, file?_deskWith] at found
  obtain rfl := Option.some.inj found
  rw [component_edits] at changed
  -- The first return is the byte behind the first line, and the edits stand on the second one.
  have kept : (13 : UInt8) ∈ encode "<p>x</p>\n<b>t</b>\n".toList := by
    apply changed.mem_of_uncovered
    · show (encode text.toList)[8]? = some 13
      decide
    · decide
  exact absurd kept (by decide)

end Tools

end Remedy
