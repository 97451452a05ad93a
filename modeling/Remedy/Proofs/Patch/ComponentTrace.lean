import Mathlib
import Remedy.Patch.Component
import Remedy.Proofs.Edit.LinePlanOverlap
import Remedy.Proofs.Fix.Distinct

/-!
What a fix leaves behind in a pass over a component.

A fix adds edits to the plan of those before it, or it leaves the plan as it is. In the second case the pass comes out the
same without the fix, with one exception: a later copy of it, which was dropped as a repeat, is then planned in its own
place, and by then another fix may have claimed the attribute that was in the way.
-/

namespace Remedy.Patch.Component

open Remedy.Component (Line OpenTag fallback findStatic? hasAttribute scan)

/-! ### Plans of passes -/

/-- The lines that the edits of a source are planned on. -/
def linesOf (source : String) : List Line := Text.splitAtNewlines source.toList

/-- Goes on with a pass: `before` are the fixes gone through, and `plan` what has come of them. -/
def planFrom (lines : List Line) (before fixes : List Fix) (plan : LinePlan) : LinePlan :=
  (planAll lines (Fix.distinctFrom before fixes).1 plan).1

/-- The plan of a pass. -/
def planOf (lines : List Line) (fixes : List Fix) : LinePlan := planFrom lines [] fixes .empty

/-- The edits that a fix adds to those of the fixes before it. -/
def contribution (lines : List Line) (before : List Fix) (f : Fix) : List LineEdit :=
  (planOf lines (before ++ [f])).edits.drop (planOf lines before).edits.length

/-- The text that a plan makes of a source. -/
def textOf (source : String) (plan : LinePlan) : String :=
  if plan.edits.isEmpty then source else joinLines (plan.apply (linesOf source))

theorem text_apply (source : String) (fixes : List Fix) :
    (apply source fixes).text = .ok (textOf source (planOf (linesOf source) fixes)) := rfl

section

variable (lines : List Line)

@[simp] theorem planFrom_nil (before : List Fix) (plan : LinePlan) : planFrom lines before [] plan = plan := rfl

theorem planFrom_repeated {before : List Fix} {f : Fix} (h : Fix.isRepeated before f = true) (rest : List Fix)
    (plan : LinePlan) : planFrom lines before (f :: rest) plan = planFrom lines before rest plan := by
  simp [planFrom, Fix.distinctFrom, h]

theorem planAll_cons (f : Fix) (rest : List Fix) (plan : LinePlan) :
    (planAll lines (f :: rest) plan).1 = (planAll lines rest (planOne lines f plan).1).1 := rfl

theorem planFrom_new {before : List Fix} {f : Fix} (h : Fix.isRepeated before f = false) (rest : List Fix)
    (plan : LinePlan) :
    planFrom lines before (f :: rest) plan = planFrom lines (before ++ [f]) rest (planOne lines f plan).1 := by
  simp [planFrom, Fix.distinctFrom, h, planAll_cons]

theorem planFrom_congr {before other : List Fix} (same : ∀ f, Fix.isRepeated before f = Fix.isRepeated other f)
    (fixes : List Fix) (plan : LinePlan) : planFrom lines before fixes plan = planFrom lines other fixes plan := by
  rw [planFrom, planFrom, Fix.distinctFrom_congr same]

theorem planAll_append (xs ys : List Fix) (plan : LinePlan) :
    (planAll lines (xs ++ ys) plan).1 = (planAll lines ys (planAll lines xs plan).1).1 := by
  induction xs generalizing plan with
  | nil => rfl
  | cons f xs ih => rw [List.cons_append, planAll_cons, planAll_cons, ih]

theorem planFrom_append (before xs ys : List Fix) (plan : LinePlan) :
    planFrom lines before (xs ++ ys) plan = planFrom lines (before ++ xs) ys (planFrom lines before xs plan) := by
  rw [planFrom, Fix.distinctFrom_append, planAll_append]
  rfl

theorem planOf_append (before rest : List Fix) :
    planOf lines (before ++ rest) = planFrom lines before rest (planOf lines before) := by
  rw [planOf, planFrom_append, List.nil_append, planOf]

theorem planOf_append_cons (before : List Fix) (f : Fix) (rest : List Fix) :
    planOf lines (before ++ f :: rest) = planFrom lines (before ++ [f]) rest (planOf lines (before ++ [f])) := by
  rw [List.append_cons, planOf_append]

/-! ### One fix -/

theorem planOne_of_location {f : Fix} {l : Location} (location : f.location = some l) {index : Nat}
    (onLine : lineIndex? lines l.start = some index) (plan : LinePlan) :
    (planOne lines f plan).1 = (plan.addFor (planFix lines index l f).1 f).1 := by
  simp only [planOne, location, onLine]

/-- Planning a fix adds the batch of its edits, or does nothing. -/
theorem planOne_cases (f : Fix) (plan : LinePlan) :
    (planOne lines f plan).1 = plan ∨
      ∃ l index, f.location = some l ∧ lineIndex? lines l.start = some index ∧
        (planOne lines f plan).1 = (plan.addFor (planFix lines index l f).1 f).1 := by
  cases hl : f.location with
  | none => exact Or.inl (by simp only [planOne, hl])
  | some l =>
    cases hi : lineIndex? lines l.start with
    | none => exact Or.inl (by simp only [planOne, hl, hi])
    | some index => exact Or.inr ⟨l, index, rfl, hi, planOne_of_location lines hl hi plan⟩

/-- Planning a fix adds edits to the plan, or leaves it as it is, claims and all. -/
theorem planOne_adds (f : Fix) (plan : LinePlan) :
    (planOne lines f plan).1 = plan ∨
      ∃ added, added ≠ [] ∧ (planOne lines f plan).1.edits = plan.edits ++ added := by
  rcases planOne_cases lines f plan with same | ⟨l, index, _, _, eq⟩
  · exact Or.inl same
  · rw [eq]
    rcases LinePlan.addFor_cases plan f (planFix lines index l f).1 with ⟨_, same⟩ | ⟨_, adds⟩
    · exact Or.inl same
    · exact Or.inr adds

theorem planOf_snoc (before : List Fix) (f : Fix) :
    planOf lines (before ++ [f]) = planOf lines before ∨
      planOf lines (before ++ [f]) = (planOne lines f (planOf lines before)).1 := by
  rw [planOf_append]
  cases h : Fix.isRepeated before f with
  | true => exact Or.inl (by rw [planFrom_repeated lines h, planFrom_nil])
  | false => exact Or.inr (by rw [planFrom_new lines h, planFrom_nil])

/-- The plan after a fix holds the edits from before and its contribution behind them. -/
theorem edits_planOf_snoc (before : List Fix) (f : Fix) :
    (planOf lines (before ++ [f])).edits = (planOf lines before).edits ++ contribution lines before f := by
  have extends_ : ∃ added, (planOf lines (before ++ [f])).edits = (planOf lines before).edits ++ added := by
    rcases planOf_snoc lines before f with same | eq
    · exact ⟨[], by rw [same, List.append_nil]⟩
    · rcases planOne_adds lines f (planOf lines before) with same | ⟨added, _, edits⟩
      · exact ⟨[], by rw [eq, same, List.append_nil]⟩
      · exact ⟨added, by rw [eq, edits]⟩
  obtain ⟨added, edits⟩ := extends_
  rw [contribution, edits, List.drop_left]

/-- A fix that contributes no edit leaves the whole plan as it was. -/
theorem planOf_of_contribution_nil {before : List Fix} {f : Fix} (h : contribution lines before f = []) :
    planOf lines (before ++ [f]) = planOf lines before := by
  rcases planOf_snoc lines before f with same | eq
  · exact same
  · rcases planOne_adds lines f (planOf lines before) with same | ⟨added, nonempty, edits⟩
    · rw [eq, same]
    · have nothing : added = [] := by
        rwa [contribution, eq, edits, List.drop_left] at h
      exact absurd nothing nonempty

theorem sound_planOf (fixes : List Fix) : (planOf lines fixes).Sound := by
  have run : ∀ (fixes : List Fix) (plan : LinePlan), plan.Sound → (planAll lines fixes plan).1.Sound := by
    intro fixes
    induction fixes with
    | nil => exact fun _ h => h
    | cons f rest ih =>
      intro plan h
      rw [planAll_cons]
      apply ih
      rcases planOne_cases lines f plan with same | ⟨l, index, _, _, eq⟩
      · rwa [same]
      · rw [eq]
        exact LinePlan.sound_addFor h _ f
  exact run _ _ LinePlan.sound_empty

/-! ### Both tags or none -/

/-- With an end tag to rename, there are two edits of names, and neither claims an attribute. -/
theorem renameEdits_pair {index : Nat} {l : Location} {p : Position} (closing : l.closing = some p) {new : String}
    {names : List LineEdit} (h : renameEdits lines index l new = .ok names) :
    ∃ first second, names = [first, second] ∧ first.claim = none ∧ second.claim = none ∧
      first.line = index ∧ lineIndex? lines p = some second.line ∧ first.text = new ∧ second.text = new := by
  rw [renameEdits] at h
  split at h
  next => cases h
  next start stop _ =>
    rw [closing] at h
    cases hi : lineIndex? lines p with
    | none => simp [hi] at h
    | some i =>
      cases hn : nameAfter? (lineAt lines i) p.column ['<', '/'] with
      | none => simp [hi, hn] at h
      | some span =>
        simp only [hi, hn, Option.bind_some, Option.map_some, Except.ok.injEq] at h
        subst h
        exact ⟨_, _, rfl, rfl, rfl, rfl, rfl, rfl, rfl⟩

/-- A fix that renames an element with an end tag contributes the edits of both names, or nothing at all. -/
theorem contribution_rename {before : List Fix} {f : Fix} {new : String} {attributes : List (String × String)}
    (change : f.change? = some (.rename new attributes)) {l : Location} (location : f.location = some l) {p : Position}
    (closing : l.closing = some p) :
    contribution lines before f = [] ∨
      ∃ index first second more, lineIndex? lines l.start = some index ∧
        renameEdits lines index l new = .ok [first, second] ∧
        contribution lines before f = first :: second :: more := by
  rcases planOf_snoc lines before f with same | eq
  · left; simp [contribution, same]
  rcases planOne_cases lines f (planOf lines before) with same | ⟨l', index, found, onLine, step⟩
  · left; simp [contribution, eq, same]
  obtain rfl : l = l' := Option.some.inj (location.symm.trans found)
  cases names : renameEdits lines index l new with
  | error reason =>
    have nothing : (planFix lines index l f).1 = [] := by simp [planFix, change, names]
    left
    rw [contribution, eq, step, nothing]
    simp [LinePlan.addFor, LinePlan.gather]
  | ok edits =>
    -- The names head the batch and claim nothing, so only a refusal of the whole batch can drop one.
    obtain ⟨first, second, rfl, unclaimed, unclaimed', _⟩ := renameEdits_pair lines closing names
    have batch : (planFix lines index l f).1 = first :: second :: (updateEdits lines index l f true attributes).1 := by
      simp [planFix, change, names]
    rw [batch] at step
    rcases LinePlan.addFor_pair (planOf lines before) f unclaimed unclaimed' (updateEdits lines index l f true attributes).1
      with same | ⟨more, adds⟩
    · left; simp [contribution, eq, step, same]
    · right
      refine ⟨index, first, second, more, onLine, names, ?_⟩
      rw [contribution, eq, step, adds, List.drop_left]

/-! ### No trace -/

/-- A fix that came before makes a difference to no later one but its copies: if none of these would add anything, the
pass goes on as if the fix had not been there. -/
theorem planFrom_forget {before : List Fix} {f : Fix} {rest : List Fix} {plan : LinePlan}
    (copies : ∀ mid g post, rest = mid ++ g :: post → g.identity = f.identity →
      planFrom lines before (mid ++ [g]) plan = planFrom lines before mid plan) :
    planFrom lines (before ++ [f]) rest plan = planFrom lines before rest plan := by
  -- The first copy settles it: from there on both passes have seen the same identities.
  induction rest generalizing before plan with
  | nil => rfl
  | cons g rest ih =>
    by_cases copy : g.identity = f.identity
    · have seen : Fix.isRepeated (before ++ [f]) g = true :=
        Fix.isRepeated_iff.mpr ⟨f, List.mem_append_right _ List.mem_cons_self, copy.symm⟩
      rw [planFrom_repeated lines seen]
      cases h : Fix.isRepeated before g with
      | true =>
        rw [planFrom_repeated lines h]
        rw [Fix.isRepeated_of_identity copy] at h
        apply planFrom_congr
        intro e
        rw [Fix.isRepeated_insert h, List.append_nil]
      | false =>
        have nothing := copies [] g rest rfl copy
        rw [List.nil_append, planFrom_new lines h, planFrom_nil, planFrom_nil] at nothing
        rw [planFrom_new lines h, nothing]
        apply planFrom_congr
        intro e
        simp [Fix.isRepeated, copy]
    · have same : Fix.isRepeated (before ++ [f]) g = Fix.isRepeated before g := by
        simp [Fix.isRepeated, Ne.symm copy]
      have later (mid : List Fix) (e : Fix) (post : List Fix) (split : rest = mid ++ e :: post)
          (equal : e.identity = f.identity) :
          planFrom lines before (g :: (mid ++ [e])) plan = planFrom lines before (g :: mid) plan :=
        copies (g :: mid) e post (by rw [split, List.cons_append]) equal
      cases h : Fix.isRepeated before g with
      | true =>
        rw [planFrom_repeated lines (same.trans h), planFrom_repeated lines h]
        apply ih
        intro mid e post split equal
        simpa only [planFrom_repeated lines h] using later mid e post split equal
      | false =>
        have forgotten : planFrom lines (before ++ [g] ++ [f]) rest (planOne lines g plan).1 =
            planFrom lines (before ++ [g]) rest (planOne lines g plan).1 := by
          apply ih
          intro mid e post split equal
          simpa only [planFrom_new lines h] using later mid e post split equal
        rw [planFrom_new lines (same.trans h), planFrom_new lines h, ← forgotten]
        apply planFrom_congr
        intro e
        simp only [Fix.isRepeated_append]
        rw [Bool.or_right_comm]

/-- Copies of a fix that came before may be left out. -/
theorem planFrom_drop_copies {before : List Fix} {f : Fix} (seen : Fix.isRepeated before f = true) (rest : List Fix)
    (plan : LinePlan) :
    planFrom lines before (rest.filter fun g => g.identity != f.identity) plan = planFrom lines before rest plan := by
  induction rest generalizing before plan with
  | nil => rfl
  | cons g rest ih =>
    by_cases copy : g.identity = f.identity
    · rw [List.filter_cons_of_neg (by simp [copy]), ih seen,
        planFrom_repeated lines ((Fix.isRepeated_of_identity copy).trans seen)]
    · rw [List.filter_cons_of_pos (by simp [copy])]
      cases h : Fix.isRepeated before g with
      | true => rw [planFrom_repeated lines h, planFrom_repeated lines h, ih seen]
      | false =>
        rw [planFrom_new lines h, planFrom_new lines h, ih]
        rw [Fix.isRepeated_append, seen, Bool.true_or]

/-- A fix that contributes nothing may be left out if no later copy would then contribute anything in its place. -/
theorem planOf_without {before after : List Fix} {f : Fix} (nothing : contribution lines before f = [])
    (copies : ∀ mid g post, after = mid ++ g :: post → g.identity = f.identity →
      contribution lines (before ++ mid) g = []) :
    planOf lines (before ++ f :: after) = planOf lines (before ++ after) := by
  rw [planOf_append_cons, planOf_of_contribution_nil lines nothing, planOf_append]
  apply planFrom_forget
  intro mid g post split copy
  have same := planOf_of_contribution_nil lines (copies mid g post split copy)
  rwa [List.append_assoc, planOf_append, planOf_append] at same

/-- A repeated fix contributes nothing, and neither do its later copies, so it may be left out. -/
theorem planOf_without_repeated {before after : List Fix} {f : Fix} (h : Fix.isRepeated before f = true) :
    planOf lines (before ++ f :: after) = planOf lines (before ++ after) := by
  have repeated (mid : List Fix) (g : Fix) (copy : g.identity = f.identity) :
      contribution lines (before ++ mid) g = [] := by
    have seen : Fix.isRepeated (before ++ mid) g = true := by
      rw [Fix.isRepeated_append, Fix.isRepeated_of_identity copy, h, Bool.true_or]
    rw [contribution, planOf_append lines (before ++ mid) [g], planFrom_repeated lines seen, planFrom_nil,
      List.drop_length]
  apply planOf_without
  · simpa using repeated [] f rfl
  · exact fun mid g _ _ copy => repeated mid g copy

/-- A fix that contributes nothing may always be left out together with its later copies. -/
theorem planOf_without_copies {before after : List Fix} {f : Fix} (nothing : contribution lines before f = []) :
    planOf lines (before ++ f :: after) = planOf lines (before ++ after.filter fun g => g.identity != f.identity) := by
  have seen : Fix.isRepeated (before ++ [f]) f = true :=
    Fix.isRepeated_iff.mpr ⟨f, List.mem_append_right _ List.mem_cons_self, rfl⟩
  calc planOf lines (before ++ f :: after)
      = planOf lines (before ++ f :: after.filter fun g => g.identity != f.identity) := by
        rw [planOf_append_cons lines before f after, ← planFrom_drop_copies lines seen, ← planOf_append_cons]
    _ = planOf lines (before ++ after.filter fun g => g.identity != f.identity) := by
        apply planOf_without lines nothing
        intro mid g post split copy
        have kept : g ∈ after.filter fun g => g.identity != f.identity := by simp [split]
        simp [copy] at kept

end

/-! ### A fix that gets in its own way

Two of its edits overlap, so it is refused. Once another fix has claimed the attribute of one of them, that one is left out
of the batch, and the rest is taken.
-/

namespace Nested

/-- A title that has another attribute in its text. -/
def source : String := "<a title=\" href='x'\"></a>"

def line : Line := source.toList

def tag : OpenTag := ⟨[⟨0, 0, 21⟩], 0, 20, false⟩

def place : Location := ⟨"", ⟨1, 0⟩, some ⟨1, 21⟩⟩

def fixWith (kind : FixKind) (payload : Payload) : Fix := ⟨kind, "", payload, ⟨.null, none, none, some place, []⟩⟩

/-- Renames the tag and sets both attributes, one of them within the other. -/
def convert : Fix := fixWith .convertTag ⟨none, none, none, some "b", [("title", "T"), ("href", "H")]⟩

/-- Writes the title once more: the tag has no attribute that is spelled like this. -/
def shout : Fix := fixWith .replaceAttribute ⟨some "TITLE", some "V", none, none, []⟩

def names : List LineEdit := [⟨0, 1, 2, "b", none⟩, ⟨0, 23, 24, "b", none⟩]

def title : LineEdit := ⟨0, 10, 19, "T", some (0, 20, "title")⟩

def href : LineEdit := ⟨0, 17, 18, "H", some (0, 20, "href")⟩

def shouted : LineEdit := ⟨0, 20, 20, " TITLE=\"V\"", some (0, 20, "title")⟩

theorem lines : linesOf source = [line] := by cbv

theorem onLine : lineIndex? [line] place.start = some 0 := by decide

theorem tag_found : (scan [line] 0 place.start.column).or (fallback (lineAt [line] 0) 0) = some tag := by cbv

/-- A static attribute is overwritten where its value stands. -/
theorem attributeEdit_static {name value lower written : String} {start stop : Nat} {quote : Char}
    (static : (tag.segments.findSome? fun s =>
      (findStatic? name.toList (lineAt [line] s.line) s).map fun v => (s.line, v)) = some (0, ⟨start, stop, quote⟩))
    (lowered : Text.lower name = lower)
    (escaped : Text.escapeAttribute value (if quote == '"' then .double else .single) = written) :
    attributeEdit [line] tag name value true = .ok (some ⟨0, start, stop, written, some (0, 20, lower)⟩) := by
  simp only [attributeEdit, static, lowered, escaped, if_true]
  rfl

theorem planFix_convert : (planFix [line] 0 place convert).1 = names ++ [title, href] := by
  have change : convert.change? = some (.rename "b" [("title", "T"), ("href", "H")]) := by cbv
  have renamed : renameEdits [line] 0 place "b" = .ok names := by cbv
  have lower : Text.lower "title" = "title" ∧ Text.lower "href" = "href" := by decide +kernel
  have outer : attributeEdit [line] tag "title" "T" true = .ok (some title) :=
    attributeEdit_static (by cbv) lower.1 (by cbv)
  have inner : attributeEdit [line] tag "href" "H" true = .ok (some href) :=
    attributeEdit_static (by cbv) lower.2 (by cbv)
  simp only [planFix, change, renamed, updateEdits, tag_found, outer, inner]

theorem insert_shouted : insertAttribute [line] tag "TITLE" "V" = shouted := by
  have lower : Text.lower "TITLE" = "title" := by decide +kernel
  have escape : Text.escapeAttribute "V" .double = "V" := by cbv
  simp only [insertAttribute, lower, escape]
  rfl

theorem planFix_shout : (planFix [line] 0 place shout).1 = [shouted] := by
  have change : shout.change? = some (.setAttribute true "TITLE" "V") := by cbv
  have static : (tag.segments.findSome? fun s =>
      (findStatic? "TITLE".toList (lineAt [line] s.line) s).map fun v => (s.line, v)) = none := by cbv
  have bound : (tag.segments.any fun s => hasAttribute "TITLE".toList (lineAt [line] s.line) s) = false := by cbv
  have edit : attributeEdit [line] tag "TITLE" "V" true = .ok (some shouted) := by
    simp only [attributeEdit, static, bound, insert_shouted]
    rfl
  simp only [planFix, change, updateEdits, tag_found, edit]

theorem planOne_convert (plan : LinePlan) :
    (planOne [line] convert plan).1 = (plan.addFor (names ++ [title, href]) convert).1 := by
  rw [planOne_of_location [line] rfl onLine, planFix_convert]

theorem planOne_shout (plan : LinePlan) : (planOne [line] shout plan).1 = (plan.addFor [shouted] shout).1 := by
  rw [planOne_of_location [line] rfl onLine, planFix_shout]

theorem convert_refused : planOf [line] [convert] = .empty := by
  rw [planOf, planFrom_new _ rfl, planFrom_nil, planOne_convert]
  decide

theorem shout_between : planOf [line] [convert, shout, convert] = ⟨[shouted], [(0, 20, "title")]⟩ := by
  have new : Fix.isRepeated [convert] shout = false := by cbv
  have copy : Fix.isRepeated ([convert] ++ [shout]) convert = true := Fix.isRepeated_iff.mpr ⟨convert, .head _, rfl⟩
  have start := planOf_append_cons [line] [] convert [shout, convert]
  rw [List.nil_append, List.nil_append, convert_refused] at start
  rw [start, planFrom_new _ new, planFrom_repeated _ copy, planFrom_nil, planOne_shout]
  decide

theorem convert_new : Fix.isRepeated [shout] convert = false := by cbv

theorem shout_alone : planOf [line] [shout] = ⟨[shouted], [(0, 20, "title")]⟩ := by
  rw [planOf, planFrom_new _ rfl, planFrom_nil, planOne_shout]
  decide

theorem shout_first : planOf [line] [shout, convert] =
    ⟨[shouted] ++ names ++ [href], [(0, 20, "title"), (0, 20, "href")]⟩ := by
  have start := planOf_append_cons [line] [] shout [convert]
  rw [List.nil_append, List.nil_append, shout_alone] at start
  rw [start, planFrom_new _ convert_new, planFrom_nil, planOne_convert]
  decide

theorem contribution_convert : contribution (linesOf source) [] convert = [] := by
  rw [contribution, lines, List.nil_append, convert_refused]
  rfl

theorem contribution_behind : contribution (linesOf source) [shout] convert = names ++ [href] := by
  rw [contribution, lines, List.singleton_append, shout_first, shout_alone]
  rfl

end Nested

/-- **Edits stay apart, and a fix that adds none leaves no trace.** After any batches no two edits of the plan overlap, the
claims are those of its edits, none of them is made twice, and a batch that is not accepted changes nothing. This holds of
the plan of a pass, to which every fix adds what it contributes. So a fix that renames an element with an end tag
contributes both of its names or nothing, and a fix that contributes nothing may be left out of the pass: by itself if it
is a repeat, or if no later copy would contribute anything in its place, and otherwise together with its later copies. -/
theorem edits_apart_and_traceless :
    (∀ calls : List (List LineEdit × Fix),
      (LinePlan.after calls).edits.Pairwise (fun a b => a.overlaps b = false) ∧
      (∀ c, c ∈ (LinePlan.after calls).claims ↔ ∃ e ∈ (LinePlan.after calls).edits, e.claim = some c) ∧
      (LinePlan.after calls).edits.Pairwise (fun a b => ∀ c, a.claim = some c → b.claim ≠ some c) ∧
      ∀ edits f, (LinePlan.after calls).accepts edits f = false →
        LinePlan.after (calls ++ [(edits, f)]) = LinePlan.after calls) ∧
    ∀ (source : String) (before : List Fix) (f : Fix),
      (planOf (linesOf source) before).Sound ∧
      (planOf (linesOf source) (before ++ [f])).edits =
        (planOf (linesOf source) before).edits ++ contribution (linesOf source) before f ∧
      (∀ new attributes l p,
        f.change? = some (.rename new attributes) → f.location = some l → l.closing = some p →
        contribution (linesOf source) before f = [] ∨
          ∃ index first second more, lineIndex? (linesOf source) l.start = some index ∧
            renameEdits (linesOf source) index l new = .ok [first, second] ∧
            contribution (linesOf source) before f = first :: second :: more) ∧
      (contribution (linesOf source) before f = [] → ∀ after : List Fix,
        (Fix.isRepeated before f = true ∨
          (∀ mid g post, after = mid ++ g :: post → g.identity = f.identity →
            contribution (linesOf source) (before ++ mid) g = []) →
          (apply source (before ++ f :: after)).text = (apply source (before ++ after)).text) ∧
        (apply source (before ++ f :: after)).text =
          (apply source (before ++ after.filter fun g => g.identity != f.identity)).text) := by
  refine ⟨fun calls => ?_, fun source before f =>
    ⟨sound_planOf _ before, edits_planOf_snoc _ before f, ?_, fun nothing after => ⟨?_, ?_⟩⟩⟩
  · have sound := LinePlan.sound_after calls
    refine ⟨sound.apart, sound.mem_claims_iff, sound.claims_differ, fun edits f refused => ?_⟩
    rw [LinePlan.after_append]
    exact LinePlan.addFor_of_not_accepts _ f refused
  · intro new attributes l p change location closing
    exact contribution_rename (linesOf source) change location closing
  · intro harmless
    rw [text_apply, text_apply]
    rcases harmless with repeated | copies
    · rw [planOf_without_repeated _ repeated]
    · rw [planOf_without _ nothing copies]
  · rw [text_apply, text_apply, planOf_without_copies _ nothing]

/-- A fix that is refused may be left out; behind another one it is taken, and brings both of its names. -/
theorem refused_fix_traceless :
    contribution (linesOf Nested.source) [] Nested.convert = [] ∧
      (apply Nested.source [Nested.convert, Nested.shout]).text = (apply Nested.source [Nested.shout]).text ∧
      (∃ first second more, contribution (linesOf Nested.source) [Nested.shout] Nested.convert = first :: second :: more) ∧
      (LinePlan.after []).accepts [Nested.title, Nested.href] Nested.convert = false ∧
      LinePlan.after [([Nested.title, Nested.href], Nested.convert)] = LinePlan.after [] := by
  have refused : (LinePlan.after []).accepts [Nested.title, Nested.href] Nested.convert = false := by decide
  have change : Nested.convert.change? = some (.rename "b" [("title", "T"), ("href", "H")]) := by cbv
  have noCopies (mid : List Fix) (g : Fix) (post : List Fix) (split : [Nested.shout] = mid ++ g :: post)
      (copy : g.identity = Nested.convert.identity) : contribution (linesOf Nested.source) ([] ++ mid) g = [] := by
    have member : g ∈ [Nested.shout] := by simp [split]
    obtain rfl := List.mem_singleton.mp member
    have repeated : Fix.isRepeated [Nested.shout] Nested.convert = true :=
      Fix.isRepeated_iff.mpr ⟨Nested.shout, .head _, copy⟩
    rw [Nested.convert_new] at repeated
    contradiction
  obtain ⟨plans, passes⟩ := edits_apart_and_traceless
  refine ⟨Nested.contribution_convert, ?_, ?_, refused, (plans []).2.2.2 _ _ refused⟩
  · exact ((passes Nested.source [] Nested.convert).2.2.2 Nested.contribution_convert [Nested.shout]).1 (Or.inr noCopies)
  · rcases (passes Nested.source [Nested.shout] Nested.convert).2.2.1 "b" _ Nested.place ⟨1, 21⟩ change rfl rfl with
      nothing | ⟨_, first, second, more, _, _, adds⟩
    · rw [Nested.contribution_behind] at nothing
      contradiction
    · exact ⟨first, second, more, adds⟩

/-- Without the first of two copies the second is planned, and here it finds less in its way than the first one did. -/
theorem removal_revives_copy :
    ¬ ∀ (source : String) (before after : List Fix) (f : Fix), contribution (linesOf source) before f = [] →
      (apply source (before ++ f :: after)).text = (apply source (before ++ after)).text := by
  intro traceless
  have same := traceless Nested.source [] [Nested.shout, Nested.convert] Nested.convert Nested.contribution_convert
  have left : textOf Nested.source ⟨[Nested.shouted], [(0, 20, "title")]⟩ =
      "<a title=\" href='x'\" TITLE=\"V\"></a>" := by cbv
  have right : textOf Nested.source
      ⟨[Nested.shouted] ++ Nested.names ++ [Nested.href], [(0, 20, "title"), (0, 20, "href")]⟩ =
      "<b title=\" href='H'\" TITLE=\"V\"></b>" := by cbv
  rw [List.nil_append, List.nil_append, text_apply, text_apply, Nested.lines, Nested.shout_between,
    Nested.shout_first, left, right] at same
  exact absurd (Except.ok.inj same) (by decide)

end Remedy.Patch.Component
