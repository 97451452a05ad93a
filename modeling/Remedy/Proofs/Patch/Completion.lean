import Remedy.Proofs.Patch.Independence
import Remedy.Proofs.Patch.Readback

/-!
Updates of the attributes of one element of a script, by one fix or by several of a pass. The values of attributes that have
one are replaced, those of bare attributes are put behind their names, and new attributes stand behind all that the tag has.

A bare attribute that stands last is completed at the place where new attributes are put. What is inserted at one place
stands there in the order of the updates, so the attribute has to be completed first.
-/

namespace Remedy.Patch

open Text (Bytes encode IsBoundary)

/-- Attributes that nothing has claimed are free, if no two of them are the same. -/
theorem freeUpdates_eq_self {element : Nat} {taken : List (Nat × String)} {updates : List (String × String)}
    (free : ∀ u ∈ updates, claimOf element u ∉ taken)
    (differ : updates.Pairwise fun u v => Text.lower u.1 ≠ Text.lower v.1) : freeUpdates element taken updates = updates := by
  induction updates generalizing taken with
  | nil => rfl
  | cons u rest ih =>
    have here : taken.contains (claimOf element u) = false := by simpa using free u List.mem_cons_self
    rw [freeUpdates, here, if_neg Bool.false_ne_true, ih _ differ.of_cons]
    intro v later held
    rcases List.mem_append.mp held with old | new
    · exact free v (List.mem_cons_of_mem u later) old
    · exact List.rel_of_pairwise_cons differ later (congrArg Prod.snd (List.mem_singleton.mp new)).symm

/-- What is spliced, if it is a text, is what comes of a plan. -/
theorem finish_of_splice? {source out : String} {p : EditPlan} (spliced : splice? (encode source.toList) p.edits = some out) :
    finish source (encode source.toList) p = .ok out := by
  rw [splice?] at spliced
  rw [finish]
  split
  next empty =>
    rw [List.isEmpty_iff.mp empty, spliceBytes, List.mergeSort_nil, List.foldr_nil, Text.decode?_encode, Option.map_some,
      Option.some.injEq, String.ofList_toList] at spliced
    rw [spliced]
  next =>
    obtain ⟨cs, decoded, rfl⟩ := Option.map_eq_some_iff.mp spliced
    simp only [decoded]

namespace Jsx

/-! ### Where updates belong -/

/-- The value of an attribute, whatever comments it has. -/
def value? (a : Node) : Option Node := (a.namedChildren.drop 1).find? fun c => c.kind != "comment"

/-- Where the name of an attribute ends. -/
def nameEnd (a : Node) : Nat := (a.namedChildren.head?.map (·.stop)).getD a.stop

/-- An update of an attribute that the tag has: it puts a value behind a name that has none, or in place of the one there. -/
def completion? (source : Bytes) (tag : Node) (u : String × String) : Option Replacement :=
  (Remedy.Jsx.findAttribute? source tag u.1).map fun a =>
    match value? a with
    | none => ⟨nameEnd a, nameEnd a, "=" ++ literal u.2⟩
    | some v => ⟨v.start, v.stop, literal u.2⟩

/-- An update of an attribute that the tag does not have, as a new attribute. -/
def addition? (source : Bytes) (tag : Node) (u : String × String) : Option String :=
  if (Remedy.Jsx.findAttribute? source tag u.1).isNone then some (" " ++ u.1 ++ "=" ++ literal u.2) else none

/-- The name that a fix gives to an element. -/
def newTag? (f : Fix) : Option String :=
  match f.change? with
  | some (.rename new _) => some new
  | _ => none

/-- A new name in the tag that opens an element. -/
def openingEdits (tag : Node) (new? : Option String) : List Replacement :=
  match new?, Remedy.Jsx.name? tag with
  | some new, some n => [⟨n.start, n.stop, new⟩]
  | _, _ => []

/-- A new name in the tag that closes an element. -/
def closingEdits (element : Node) (new? : Option String) : List Replacement :=
  match new?, ((Remedy.Jsx.closing? element).bind Remedy.Jsx.name?).filter fun n => n.kind == "identifier" with
  | some new, some n => [⟨n.start, n.stop, new⟩]
  | _, _ => []

/-- What is edited of what a tag has: its name, and the attributes that are updated. -/
def ownEdits (source : Bytes) (tag : Node) (new? : Option String) (updates : List (String × String)) : List Replacement :=
  openingEdits tag new? ++ updates.filterMap (completion? source tag)

/-- All that is edited where an element gets a name and its attributes are updated. -/
def allEdits (source : Bytes) (element tag : Node) (new? : Option String) (updates : List (String × String)) :
    List Replacement :=
  openingEdits tag new? ++ closingEdits element new? ++ updates.map fun u => setAttribute source tag u.1 u.2

/-- The text with every update where it belongs: the attributes of the tag, in the order in which they stand, have their
values, and the new attributes follow behind them in the order of the updates. -/
def updated (source : Bytes) (element tag : Node) (new? : Option String) (updates : List (String × String)) : Bytes :=
  substitute (source.take (anchor tag)) 0 ((ownEdits source tag new? updates).mergeSort Replacement.notAfter) ++
    ((updates.filterMap (addition? source tag)).flatMap (fun new => encode new.toList) ++
      substitute source (anchor tag) (closingEdits element new?))

/-- An update that stands where new attributes are put. -/
def completesLast (source : Bytes) (tag : Node) (u : String × String) : Bool :=
  (completion? source tag u).any fun r => r.start == anchor tag && r.stop == anchor tag

/-- No attribute is added before a bare one that stands last is completed. -/
def CompletedFirst (source : Bytes) (tag : Node) (updates : List (String × String)) : Prop :=
  updates.Pairwise fun u v => (addition? source tag u).isSome = true → completesLast source tag v = false

instance (source : Bytes) (tag : Node) (updates : List (String × String)) : Decidable (CompletedFirst source tag updates) := by
  unfold CompletedFirst
  infer_instance

/-- The parts of an element are those that elements have: a name before the attributes, each of which is a name or a name and
a value, with no comments among them, and the closing tag behind. -/
structure Ordinary (element tag : Node) : Prop where
  name : ∀ n ∈ Remedy.Jsx.name? tag, n.isNamed = true ∧ n.kind ≠ "comment" ∧ n.start < n.stop
  uncommented : ∀ a ∈ Remedy.Jsx.attributes tag, ∀ c ∈ a.namedChildren, c.kind ≠ "comment"
  bare : ∀ a ∈ Remedy.Jsx.attributes tag, value? a = none → a.start < a.stop ∧ nameEnd a = a.stop
  valued : ∀ a ∈ Remedy.Jsx.attributes tag, ∀ v ∈ value? a, v.start < v.stop
  closing : ∀ close ∈ Remedy.Jsx.closing? element, tag.stop ≤ close.start ∧
    ∀ n ∈ Remedy.Jsx.name? close, n.start < n.stop

section

variable {source : Bytes} {element tag : Node} {size : Nat} {u v : String × String} {new? : Option String}
  {updates : List (String × String)}

theorem valueNode?_eq {a : Node} (uncommented : ∀ c ∈ a.namedChildren, c.kind ≠ "comment") :
    Remedy.Jsx.valueNode? a = value? a := by
  rw [Remedy.Jsx.valueNode?, value?, ← List.head?_drop]
  cases parts : a.namedChildren.drop 1 with
  | nil => rfl
  | cons c rest =>
    have member : c ∈ a.namedChildren := List.mem_of_mem_drop (parts ▸ List.mem_cons_self)
    rw [List.find?_cons_of_pos (by simpa using uncommented c member)]
    rfl

/-- Attributes that a tag has are completed. -/
theorem setAttribute_present (ordinary : Ordinary element tag) {r : Replacement}
    (present : completion? source tag u = some r) : setAttribute source tag u.1 u.2 = r := by
  obtain ⟨a, found, rfl⟩ := Option.map_eq_some_iff.mp present
  have member := List.mem_of_find?_eq_some found
  rw [setAttribute, found]
  simp only [valueNode?_eq (ordinary.uncommented a member)]
  cases bare : value? a with
  | none => simp only [(ordinary.bare a member bare).2]
  | some v => rfl

/-- Attributes that it does not have are added. -/
theorem setAttribute_absent {new : String} (absent : addition? source tag u = some new) :
    setAttribute source tag u.1 u.2 = ⟨anchor tag, anchor tag, new⟩ := by
  rw [addition?] at absent
  split at absent
  next unfound =>
    obtain rfl := Option.some.inj absent
    rw [setAttribute, Option.isNone_iff_eq_none.mp unfound]
  next => cases absent

theorem addition?_isSome : (addition? source tag u).isSome = (completion? source tag u).isNone := by
  rw [addition?, completion?, Option.isNone_map]
  cases (Remedy.Jsx.findAttribute? source tag u.1).isNone <;> rfl

/-- Every update is one or the other. -/
theorem update_cases (source : Bytes) (ordinary : Ordinary element tag) (u : String × String) :
    completion? source tag u = some (setAttribute source tag u.1 u.2) ∧ addition? source tag u = none ∨
      completion? source tag u = none ∧
        ∃ new, addition? source tag u = some new ∧ setAttribute source tag u.1 u.2 = ⟨anchor tag, anchor tag, new⟩ := by
  have either : (addition? source tag u).isSome = (completion? source tag u).isNone := addition?_isSome
  cases present : completion? source tag u with
  | some r =>
    rw [present] at either
    exact Or.inl ⟨by rw [setAttribute_present ordinary present], by simpa using either⟩
  | none =>
    rw [present] at either
    obtain ⟨new, absent⟩ := Option.isSome_iff_exists.mp either
    exact Or.inr ⟨rfl, new, absent, setAttribute_absent absent⟩

/-! ### Where they stand -/

/-- All that a tag has but comments ends before new attributes are put. -/
theorem le_anchor (h : tag.IsTreeOver size) {c : Node} (part : c ∈ tag.namedChildren) (kind : c.kind ≠ "comment") :
    c.stop ≤ anchor tag := by
  have member : c ∈ tag.namedChildren.filter fun c => c.kind != "comment" := by simpa using ⟨part, kind⟩
  have follows : (tag.namedChildren.filter fun c => c.kind != "comment").Pairwise fun a b => a.stop ≤ b.start :=
    (h.laid_self.follows.filter _).filter _
  rw [anchor]
  cases last : (tag.namedChildren.filter fun c => c.kind != "comment").getLast? with
  | none => rw [List.getLast?_eq_none_iff.mp last] at member; cases member
  | some d =>
    obtain ⟨front, split⟩ := List.getLast?_eq_some_iff.mp last
    -- The anchor is the end of the last such part, and the others end before that begins.
    rw [split] at member follows
    rcases List.mem_append.mp member with before | here
    · have order := (List.pairwise_append.mp follows).2.2 c before d List.mem_cons_self
      have child : d ∈ tag.namedChildren := (List.mem_filter.mp (List.mem_of_getLast? last)).1
      exact Nat.le_trans order (h.child (Node.mem_of_namedChildren child)).forward
    · rw [List.mem_singleton.mp here]

theorem mem_namedChildren_of_attribute {a : Node} (member : a ∈ Remedy.Jsx.attributes tag) :
    a ∈ tag.namedChildren ∧ a.kind ≠ "comment" := by
  obtain ⟨part, kind⟩ := List.mem_filter.mp member
  refine ⟨part, ?_⟩
  rw [beq_iff_eq.mp kind]
  decide

theorem completion_stop_le (h : tag.IsTreeOver size) (ordinary : Ordinary element tag) {r : Replacement}
    (present : completion? source tag u = some r) : r.stop ≤ anchor tag := by
  obtain ⟨a, found, rfl⟩ := Option.map_eq_some_iff.mp present
  have member := List.mem_of_find?_eq_some found
  obtain ⟨part, kind⟩ := mem_namedChildren_of_attribute member
  have ends := le_anchor h part kind
  cases bare : value? a with
  | none => simpa only [(ordinary.bare a member bare).2] using ends
  | some v =>
    have inner : v ∈ a.children := Node.mem_of_namedChildren (List.mem_of_mem_drop (List.mem_of_find?_eq_some bare))
    exact Nat.le_trans ((h.child (Node.mem_of_namedChildren part)).laid_self.within v inner).2 ends

theorem anchor_le (h : tag.IsTreeOver size) : anchor tag ≤ tag.stop := (anchor_between h "").lies.le_stop

/-- What completes an attribute replaces its value, or puts one behind its name. -/
theorem completion_cases (ordinary : Ordinary element tag) {r : Replacement} (present : completion? source tag u = some r) :
    r.start < r.stop ∨ r.start = r.stop ∧ r.content = "=" ++ literal u.2 := by
  obtain ⟨a, found, rfl⟩ := Option.map_eq_some_iff.mp present
  cases bare : value? a with
  | none => exact Or.inr ⟨rfl, rfl⟩
  | some v => exact Or.inl (ordinary.valued a (List.mem_of_find?_eq_some found) v bare)

theorem mem_openingEdits {r : Replacement} (hr : r ∈ openingEdits tag new?) :
    ∃ n new, Remedy.Jsx.name? tag = some n ∧ r = ⟨n.start, n.stop, new⟩ := by
  rw [openingEdits.eq_def] at hr
  split at hr
  next _ new n name => exact ⟨n, new, name, List.mem_singleton.mp hr⟩
  next => cases hr

theorem mem_closingEdits {r : Replacement} (hr : r ∈ closingEdits element new?) :
    ∃ close n new, Remedy.Jsx.closing? element = some close ∧ Remedy.Jsx.name? close = some n ∧
      r = ⟨n.start, n.stop, new⟩ := by
  rw [closingEdits.eq_def] at hr
  split at hr
  next _ new n name =>
    obtain ⟨close, closes, named⟩ := Option.bind_eq_some_iff.mp (Option.filter_eq_some_iff.mp name).1
    exact ⟨close, n, new, closes, named, List.mem_singleton.mp hr⟩
  next => cases hr

/-- The name in the opening tag ends before new attributes are put. -/
theorem openingEdits_ends (h : tag.IsTreeOver size) (ordinary : Ordinary element tag) {r : Replacement}
    (hr : r ∈ openingEdits tag new?) : r.start < r.stop ∧ r.stop ≤ anchor tag := by
  obtain ⟨n, new, name, rfl⟩ := mem_openingEdits hr
  obtain ⟨named, kind, proper⟩ := ordinary.name n name
  exact ⟨proper, le_anchor h (List.mem_filter.mpr ⟨mem_of_name? name, named⟩) kind⟩

/-- That in the closing tag begins behind. -/
theorem closingEdits_begins (h : element.IsTreeOver size) (tagged : Tagged element)
    (opens : Remedy.Jsx.opening? element = some tag) (ordinary : Ordinary element tag) {r : Replacement}
    (hr : r ∈ closingEdits element new?) : anchor tag ≤ r.start ∧ r.start < r.stop := by
  obtain ⟨close, n, new, closes, named, rfl⟩ := mem_closingEdits hr
  obtain ⟨behind, proper⟩ := ordinary.closing close closes
  have child := h.child (closing?_ne tagged opens closes).2.1
  have within := child.laid_self.within n (mem_of_name? named)
  have ends := anchor_le (isTreeOver_opening h tagged opens)
  exact ⟨by simp only; omega, proper n named⟩

/-- There is one of them at most. -/
theorem pairwise_closingEdits (element : Node) (new? : Option String) (R : Replacement → Replacement → Prop) :
    (closingEdits element new?).Pairwise R := by
  rw [closingEdits.eq_def]
  split
  · exact List.pairwise_singleton _ _
  · exact .nil

/-! ### What is put at one place -/

theorem insertionsAt_cons_of_pos {place : Nat} {r : Replacement} (here : r.start = place ∧ r.stop = place)
    (rest : List Replacement) : insertionsAt place (r :: rest) = r :: insertionsAt place rest := by
  rw [insertionsAt, List.filter_cons_of_pos (by simpa using here)]
  rfl

theorem insertionsAt_cons_of_neg {place : Nat} {r : Replacement} (elsewhere : ¬ (r.start = place ∧ r.stop = place))
    (rest : List Replacement) : insertionsAt place (r :: rest) = insertionsAt place rest := by
  rw [insertionsAt, List.filter_cons_of_neg (by simpa using elsewhere)]
  rfl

/-- What completes attributes at one place is nothing, or begins with an equals sign. -/
theorem contents_completions (ordinary : Ordinary element tag) (source : Bytes) (place : Nat)
    (updates : List (String × String)) :
    insertionsAt place (updates.filterMap (completion? source tag)) = [] ∨
      (contents (insertionsAt place (updates.filterMap (completion? source tag)))).head? = some 0x3D := by
  cases here : insertionsAt place (updates.filterMap (completion? source tag)) with
  | nil => exact Or.inl rfl
  | cons r rest =>
    right
    have member : r ∈ insertionsAt place (updates.filterMap (completion? source tag)) := here ▸ List.mem_cons_self
    obtain ⟨completion, start, stop⟩ := mem_insertionsAt.mp member
    obtain ⟨u, _, present⟩ := List.mem_filterMap.mp completion
    rcases completion_cases ordinary present with proper | ⟨_, content⟩
    · omega
    · have mark : encode ("=" ++ literal u.2).toList = 0x3D :: encode (literal u.2).toList := by
        rw [String.toList_append, Text.encode_append]
        rfl
      rw [contents, List.flatMap_cons, content, mark]
      rfl

/-- Nothing is completed there exactly if none of the updates completes the last attribute. -/
theorem completions_eq_nil_iff : insertionsAt (anchor tag) (updates.filterMap (completion? source tag)) = [] ↔
    ∀ u ∈ updates, completesLast source tag u = false := by
  rw [insertionsAt, List.filter_eq_nil_iff]
  simp only [List.mem_filterMap, completesLast, Option.any_eq_false]
  constructor
  · exact fun unset u member r present => Bool.eq_false_iff.mpr (unset r ⟨u, member, present⟩)
  · rintro unset r ⟨u, member, present⟩
    exact Bool.eq_false_iff.mp (unset u member r present)

theorem completedFirst_cons : CompletedFirst source tag (u :: updates) ↔
    ((addition? source tag u).isSome = true → ∀ v ∈ updates, completesLast source tag v = false) ∧
      CompletedFirst source tag updates := by
  rw [CompletedFirst, List.pairwise_cons]
  exact and_congr_left fun _ => ⟨fun h new v member => h v member new, fun h v member new => h new v member⟩

/-- **What is put where new attributes are put**: the updates in their order, and so first the value that completes the last
attribute, exactly if none of the new attributes comes before it. -/
theorem contents_insertions_iff (ordinary : Ordinary element tag) (updates : List (String × String)) :
    contents (insertionsAt (anchor tag) (updates.map fun u => setAttribute source tag u.1 u.2)) =
        contents (insertionsAt (anchor tag) (updates.filterMap (completion? source tag))) ++
          (updates.filterMap (addition? source tag)).flatMap (fun new => encode new.toList) ↔
      CompletedFirst source tag updates := by
  induction updates with
  | nil => simp [insertionsAt, contents, CompletedFirst]
  | cons u rest ih =>
    rw [completedFirst_cons, List.map_cons, ← ih]
    rcases update_cases source ordinary u with ⟨present, noNew⟩ | ⟨absent, new, added, edit⟩
    · -- An attribute that the tag has, which is completed here or elsewhere.
      rw [List.filterMap_cons_some present, List.filterMap_cons_none noNew, noNew]
      by_cases here : (setAttribute source tag u.1 u.2).start = anchor tag ∧
          (setAttribute source tag u.1 u.2).stop = anchor tag
      · rw [insertionsAt_cons_of_pos here, insertionsAt_cons_of_pos here, contents_cons, contents_cons, List.append_assoc,
          List.append_cancel_left_eq]
        simp
      · rw [insertionsAt_cons_of_neg here, insertionsAt_cons_of_neg here]
        simp
    · -- A new attribute, behind which nothing may be completed.
      have here (behind : List Replacement) : insertionsAt (anchor tag) (⟨anchor tag, anchor tag, new⟩ :: behind) =
          ⟨anchor tag, anchor tag, new⟩ :: insertionsAt (anchor tag) behind := insertionsAt_cons_of_pos ⟨rfl, rfl⟩ behind
      rw [List.filterMap_cons_none absent, List.filterMap_cons_some added, added, edit, here, contents_cons, List.flatMap_cons,
        ← completions_eq_nil_iff]
      rcases contents_completions ordinary source (anchor tag) rest with nothing | mark
      · simp [nothing, contents]
      · -- A new attribute begins with a blank and what completes one with an equals sign, so the two texts differ at once.
        have blank : (encode new.toList).head? = some 0x20 := by
          rw [addition?] at added
          split at added
          next =>
            obtain rfl := Option.some.inj added
            simp only [String.toList_append, Text.encode_append]
            rfl
          next => cases added
        constructor
        · intro same
          have first := congrArg List.head? same
          rw [List.head?_append, List.head?_append, blank, mark] at first
          cases Option.some.inj first
        · rintro ⟨silent, _⟩
          rw [silent rfl] at mark
          cases mark

end

/-! ### The edits together -/

section

variable {source : Bytes} {element tag : Node} {size : Nat} {new? : Option String} {updates : List (String × String)}
  (h : element.IsTreeOver size) (tagged : Tagged element) (opens : Remedy.Jsx.opening? element = some tag)
  (ordinary : Ordinary element tag)
  (plain : ∀ new, new? = some new → ∃ n, Remedy.Jsx.name? tag = some n ∧ n.kind = "identifier")
  (differ : updates.Pairwise fun u v => Text.lower u.1 ≠ Text.lower v.1)

theorem renamings_eq {n : Node} (named : Remedy.Jsx.name? tag = some n) (element : Node) (new : String) :
    openingEdits tag (some new) ++ closingEdits element (some new) = renameEdits element n new := by
  rw [openingEdits.eq_def, closingEdits.eq_def, renameEdits, named]
  cases ((Remedy.Jsx.closing? element).bind Remedy.Jsx.name?).filter fun n => n.kind == "identifier" <;> rfl

include h tagged opens plain in
theorem renamings_keepsApart : EditPlan.KeepsApart (openingEdits tag new? ++ closingEdits element new?) := by
  cases new? with
  | none => exact .nil
  | some new =>
    obtain ⟨n, named, _⟩ := plain new rfl
    rw [renamings_eq named]
    exact renameEdits_keepsApart h tagged opens named new

include h tagged opens plain in
theorem renamings_overlaps {r : Replacement} (hr : r ∈ openingEdits tag new? ++ closingEdits element new?)
    (name value : String) : r.overlaps (setAttribute source tag name value) = false := by
  cases new? with
  | none => cases hr
  | some new =>
    obtain ⟨n, named, kind⟩ := plain new rfl
    rw [renamings_eq named] at hr
    exact renameEdits_overlaps h tagged opens named kind hr name value

include h tagged opens plain differ in
theorem allEdits_keepApart (source : Bytes) : EditPlan.KeepsApart (allEdits source element tag new? updates) := by
  refine List.pairwise_append.mpr ⟨renamings_keepsApart h tagged opens plain, ?_, ?_⟩
  · refine List.pairwise_map.mpr (differ.imp fun names => ?_)
    exact setAttribute_overlaps (isTreeOver_opening h tagged opens) (fun same => names (congrArg Text.lower same)) _ _
  · intro r hr s hs
    obtain ⟨u, _, rfl⟩ := List.mem_map.mp hs
    exact renamings_overlaps h tagged opens plain hr u.1 u.2

/-- Two completions are not at one place. -/
theorem completions_untied (opened : tag.IsTreeOver size) (ordinary : Ordinary element tag) {u v : String × String}
    (names : Text.lower u.1 ≠ Text.lower v.1) {r s : Replacement} (present : completion? source tag u = some r)
    (present' : completion? source tag v = some s) : ¬ r.Coincides s := by
  rintro ⟨nothing, starts, stops⟩
  have ends {u : String × String} {r : Replacement} (present : completion? source tag u = some r)
      (nothing : r.stop ≤ r.start) :
      ∃ a, Remedy.Jsx.findAttribute? source tag u.1 = some a ∧ a.start < a.stop ∧ r.stop = a.stop := by
    obtain ⟨a, found, rfl⟩ := Option.map_eq_some_iff.mp present
    have member := List.mem_of_find?_eq_some found
    cases bare : value? a with
    | none =>
      obtain ⟨proper, last⟩ := ordinary.bare a member bare
      exact ⟨a, found, proper, last⟩
    | some v =>
      have proper := ordinary.valued a member v bare
      rw [bare] at nothing
      exact absurd proper (Nat.not_lt.mpr nothing)
  -- Completions at one place would be those of two attributes that end there, one within the other.
  obtain ⟨a, found, proper, stop⟩ := ends present nothing
  obtain ⟨b, found', proper', stop'⟩ := ends present' (by omega)
  have apart := opened.laid_self.apart (mem_of_findAttribute? found).1 (mem_of_findAttribute? found').1
    (findAttribute?_ne found found' fun same => names (congrArg Text.lower same))
  omega

include h tagged opens ordinary plain differ in
/-- The edits of what a tag has are neither tied nor do they overlap. -/
theorem ownEdits_untied (source : Bytes) :
    (ownEdits source tag new? updates).Pairwise fun r s => r.overlaps s = false ∧ ¬ r.Coincides s := by
  have opened := isTreeOver_opening h tagged opens
  refine List.pairwise_append.mpr ⟨?_, ?_, ?_⟩
  · rw [openingEdits.eq_def]
    split
    · exact List.pairwise_singleton _ _
    · exact .nil
  · refine List.pairwise_filterMap.mpr (differ.imp fun names r present s present' => ?_)
    refine ⟨?_, completions_untied opened ordinary names present present'⟩
    rw [← setAttribute_present ordinary present, ← setAttribute_present ordinary present']
    exact setAttribute_overlaps opened (fun same => names (congrArg Text.lower same)) _ _
  · intro r hr s hs
    obtain ⟨u, _, present⟩ := List.mem_filterMap.mp hs
    have proper := (openingEdits_ends opened ordinary hr).1
    refine ⟨?_, fun same => absurd proper (Nat.not_lt.mpr same.1)⟩
    rw [← setAttribute_present ordinary present]
    exact renamings_overlaps h tagged opens plain (List.mem_append_left _ hr) u.1 u.2

/-- They end before new attributes are put. -/
theorem ownEdits_ends (opened : tag.IsTreeOver size) (ordinary : Ordinary element tag) {r : Replacement}
    (hr : r ∈ ownEdits source tag new? updates) : r.start ≤ r.stop ∧ r.stop ≤ anchor tag := by
  rcases List.mem_append.mp hr with name | completion
  · have ends := openingEdits_ends opened ordinary name
    omega
  · obtain ⟨u, _, present⟩ := List.mem_filterMap.mp completion
    have forward := completion_cases ordinary present
    exact ⟨by omega, completion_stop_le opened ordinary present⟩

include h tagged opens ordinary in
theorem allEdits_ends {r : Replacement} (hr : r ∈ allEdits source element tag new? updates) :
    r.start ≤ r.stop ∧ (r.start < anchor tag → r.stop ≤ anchor tag) := by
  have opened := isTreeOver_opening h tagged opens
  rcases List.mem_append.mp hr with name | update
  · rcases List.mem_append.mp name with first | last
    · have ends := openingEdits_ends opened ordinary first
      omega
    · have begins := closingEdits_begins h tagged opens ordinary last
      omega
  · obtain ⟨u, _, rfl⟩ := List.mem_map.mp update
    rcases update_cases source ordinary u with ⟨present, _⟩ | ⟨_, new, _, edit⟩
    · have forward := completion_cases ordinary present
      have ends := completion_stop_le opened ordinary present
      omega
    · rw [edit]
      simp

/-- Apart from where new attributes are put, all that the updates come to are completions. -/
theorem filter_edits (ordinary : Ordinary element tag) {p : Replacement → Bool}
    (away : ∀ new, p ⟨anchor tag, anchor tag, new⟩ = false) (updates : List (String × String)) :
    (updates.map fun u => setAttribute source tag u.1 u.2).filter p =
      (updates.filterMap (completion? source tag)).filter p := by
  induction updates with
  | nil => rfl
  | cons u rest ih =>
    rcases update_cases source ordinary u with ⟨present, _⟩ | ⟨absent, new, _, edit⟩
    · rw [List.filterMap_cons_some present, List.map_cons, List.filter_cons, List.filter_cons, ih]
    · rw [List.filterMap_cons_none absent, List.map_cons, edit, List.filter_cons_of_neg (by simp [away new]), ih]

include h tagged opens ordinary in
/-- What begins before the place of the new attributes is an edit of what the tag has. -/
theorem filter_before : ((allEdits source element tag new? updates).filter fun r => decide (r.start < anchor tag)) =
    (ownEdits source tag new? updates).filter fun r => decide (r.start < anchor tag) := by
  have last : (closingEdits element new?).filter (fun r => decide (r.start < anchor tag)) = [] := by
    refine List.filter_eq_nil_iff.mpr fun r hr => ?_
    have begins := closingEdits_begins h tagged opens ordinary hr
    simp only [decide_eq_true_eq]
    omega
  rw [allEdits, ownEdits, List.filter_append, List.filter_append, List.filter_append, last, List.append_nil,
    filter_edits ordinary (by simp)]

/-- No edit of what the tag has goes on behind it. -/
theorem filter_own_behind (opened : tag.IsTreeOver size) (ordinary : Ordinary element tag) (source : Bytes)
    (new? : Option String) (updates : List (String × String)) :
    ((ownEdits source tag new? updates).filter fun r =>
      decide (anchor tag ≤ r.start) && decide (anchor tag < r.stop)) = [] := by
  refine List.filter_eq_nil_iff.mpr fun r hr => ?_
  have ends := ownEdits_ends opened ordinary hr
  simp only [Bool.and_eq_true, decide_eq_true_eq]
  omega

include h tagged opens ordinary in
/-- All that does is the name in the closing tag. -/
theorem filter_behind : ((allEdits source element tag new? updates).filter fun r =>
    decide (anchor tag ≤ r.start) && decide (anchor tag < r.stop)) = closingEdits element new? := by
  have own := filter_own_behind (isTreeOver_opening h tagged opens) ordinary source new? updates
  rw [ownEdits, List.filter_append, List.append_eq_nil_iff] at own
  have last : (closingEdits element new?).filter (fun r => decide (anchor tag ≤ r.start) && decide (anchor tag < r.stop)) =
      closingEdits element new? := by
    refine List.filter_eq_self.mpr fun r hr => ?_
    have begins := closingEdits_begins h tagged opens ordinary hr
    simp only [Bool.and_eq_true, decide_eq_true_eq]
    omega
  rw [allEdits, List.filter_append, List.filter_append, own.1, last, List.nil_append, filter_edits ordinary (by simp), own.2,
    List.append_nil]

theorem insertionsAt_openingEdits (opened : tag.IsTreeOver size) (ordinary : Ordinary element tag) (new? : Option String)
    (place : Nat) : insertionsAt place (openingEdits tag new?) = [] := by
  refine List.eq_nil_iff_forall_not_mem.mpr fun r hr => ?_
  obtain ⟨member, start, stop⟩ := mem_insertionsAt.mp hr
  have proper := (openingEdits_ends opened ordinary member).1
  omega

/-- Only completions are insertions where new attributes are put. -/
theorem insertionsAt_ownEdits (opened : tag.IsTreeOver size) (ordinary : Ordinary element tag) (source : Bytes)
    (new? : Option String) (updates : List (String × String)) (place : Nat) :
    insertionsAt place (ownEdits source tag new? updates) =
      insertionsAt place (updates.filterMap (completion? source tag)) := by
  have nothing := insertionsAt_openingEdits opened ordinary new? place
  rw [insertionsAt] at nothing
  rw [ownEdits, insertionsAt, List.filter_append, nothing, List.nil_append]
  rfl

include h tagged opens ordinary plain differ in
/-- In whatever order edits are given, those before the place of the new attributes are made in one order. -/
theorem mergeSort_before {edits : List Replacement} (perm : edits.Perm (allEdits source element tag new? updates)) :
    (edits.filter fun r => decide (r.start < anchor tag)).mergeSort Replacement.notAfter =
      ((ownEdits source tag new? updates).filter fun r => decide (r.start < anchor tag)).mergeSort Replacement.notAfter := by
  have untied := ownEdits_untied h tagged opens ordinary plain differ source
  have same := perm.filter fun r => decide (r.start < anchor tag)
  rw [filter_before h tagged opens ordinary] at same
  -- A stable sort depends on the order only where edits are tied, and these are not.
  refine (StableOrder.mergeSort_of_perm Replacement.notAfter_trans Replacement.notAfter_total same.symm ?_).symm
  exact (untied.filter _).imp fun free => Replacement.untied free.1 free.2

include h tagged opens ordinary in
/-- And behind it there is one edit at most. -/
theorem mergeSort_behind {edits : List Replacement} (perm : edits.Perm (allEdits source element tag new? updates)) :
    (edits.filter fun r => decide (anchor tag ≤ r.start) && decide (anchor tag < r.stop)).mergeSort Replacement.notAfter =
      closingEdits element new? := by
  have same := perm.filter fun r => decide (anchor tag ≤ r.start) && decide (anchor tag < r.stop)
  rw [filter_behind h tagged opens ordinary] at same
  have sorted := StableOrder.mergeSort_of_perm Replacement.notAfter_trans Replacement.notAfter_total same.symm
    (pairwise_closingEdits element new? _)
  rw [← sorted, List.mergeSort_of_pairwise (pairwise_closingEdits element new? _)]

include h tagged opens ordinary plain differ in
/-- **Where edits are made, every update is where it belongs exactly if the last attribute is completed first.** -/
theorem substitute_iff_updated {edits : List Replacement} (perm : edits.Perm (allEdits source element tag new? updates))
    (here : insertionsAt (anchor tag) edits =
      insertionsAt (anchor tag) (updates.map fun u => setAttribute source tag u.1 u.2)) :
    substitute source 0 (edits.mergeSort Replacement.notAfter) = updated source element tag new? updates ↔
      CompletedFirst source tag updates := by
  have opened := isTreeOver_opening h tagged opens
  have untied := ownEdits_untied h tagged opens ordinary plain differ source
  have ends {r : Replacement} (hr : r ∈ edits) :=
    allEdits_ends h tagged opens ordinary (perm.mem_iff.mp hr)
  have symmetric : ∀ {a b : Replacement}, a.overlaps b = false → b.overlaps a = false := by
    intro a b hab
    rwa [Replacement.overlaps_comm]
  have apart : edits.Pairwise fun a b => a.overlaps b = false :=
    (perm.pairwise_iff symmetric).mpr (allEdits_keepApart h tagged opens plain differ source)
  have nothing : substitute (source.take (anchor tag)) (anchor tag) [] = [] := by simp [substitute]
  -- Both texts are cut where new attributes are put; they are the same before and behind.
  rw [← contents_insertions_iff ordinary, updated,
    substitute_split (fun r hr => (ends hr).1) apart source (anchor tag) fun r hr => (ends hr).2,
    mergeSort_before h tagged opens ordinary plain differ perm, mergeSort_behind h tagged opens ordinary perm, here,
    substitute_split (fun r hr => (ownEdits_ends opened ordinary hr).1) (untied.imp And.left) _ (anchor tag)
      fun r hr _ => (ownEdits_ends opened ordinary hr).2,
    filter_own_behind opened ordinary source new? updates, insertionsAt_ownEdits opened ordinary, List.take_take,
    Nat.min_self, List.mergeSort_nil, nothing, List.append_nil, List.append_assoc, List.append_cancel_left_eq,
    ← List.append_assoc, List.append_cancel_right_eq]

end

/-! ### Passes -/

/-- Fixes of a pass that update attributes of one element, no two of them the same attribute; one of the fixes may give the
element another name. -/
structure Updates (source : String) (root element tag : Node) (fixes : List Fix) : Prop where
  among : element ∈ targets root
  opens : Remedy.Jsx.opening? element = some tag
  meant : ∀ f ∈ fixes, ∃ l, f.location = some l ∧ elementAt? (encode source.toList) (targets root) l.start = some element
  change : ∀ f ∈ fixes, ∃ c, f.change? = some c ∧ ∀ html, c ≠ .insert html
  differ : (fixes.flatMap Fix.updates).Pairwise fun u v => Text.lower u.1 ≠ Text.lower v.1
  once : fixes.Pairwise fun f g => newTag? f = none ∨ newTag? g = none
  plain : ∀ f ∈ fixes, ∀ new, newTag? f = some new → ∃ n, Remedy.Jsx.name? tag = some n ∧ n.kind = "identifier"

namespace Updates

variable {source : String} {root element tag : Node} {fixes : List Fix} (given : Updates source root element tag fixes)

include given

/-- The order of the fixes is left open. -/
theorem perm {fixes' : List Fix} (same : fixes'.Perm fixes) : Updates source root element tag fixes' where
  among := given.among
  opens := given.opens
  meant := fun f member => given.meant f (same.mem_iff.mp member)
  change := fun f member => given.change f (same.mem_iff.mp member)
  differ := ((same.flatMap_right Fix.updates).pairwise_iff fun unlike => unlike.symm).mpr given.differ
  once := (same.pairwise_iff fun either => either.symm).mpr given.once
  plain := fun f member => given.plain f (same.mem_iff.mp member)

/-- What a fix proposes. -/
theorem reading_eq {f : Fix} (member : f ∈ fixes) : reading (encode source.toList) (targets root) f =
    .ok (some ⟨element.start, openingEdits tag (newTag? f) ++ closingEdits element (newTag? f), f.updates,
      setAttribute (encode source.toList) tag⟩) := by
  obtain ⟨l, location, found⟩ := given.meant f member
  obtain ⟨c, change, updates⟩ := given.change f member
  have proposed : proposal? (encode source.toList) f element = some ⟨element.start,
      openingEdits tag (newTag? f) ++ closingEdits element (newTag? f), f.updates,
      setAttribute (encode source.toList) tag⟩ := by
    cases c with
    | insert html => exact absurd rfl (updates html)
    | setAttribute overwrite name value =>
      simp only [proposal?, given.opens, change, newTag?, Fix.updates]
      rfl
    | rename new attributes =>
      have renames : newTag? f = some new := by rw [newTag?, change]
      obtain ⟨n, named, plain⟩ := given.plain f member new renames
      rw [renames, renamings_eq named]
      simp only [proposal?, given.opens, change, named, plain, Fix.updates]
      rfl
  simp only [reading, location, Option.bind_some, found, proposed]

/-- The updates of one fix are all free where nothing is claimed. -/
theorem own_eq {f : Fix} (member : f ∈ fixes) :
    ((reading (encode source.toList) (targets root)).own f).edits =
        openingEdits tag (newTag? f) ++ closingEdits element (newTag? f) ++
          f.updates.map (fun u => setAttribute (encode source.toList) tag u.1 u.2) ∧
      ((reading (encode source.toList) (targets root)).own f).claims = f.updates.map (claimOf element.start) := by
  have free : freeUpdates element.start [] f.updates = f.updates :=
    freeUpdates_eq_self (by simp) ((List.pairwise_flatMap.mp given.differ).1 f member)
  obtain ⟨edits, claims⟩ := Reading.own_some (given.reading_eq member)
  rw [edits, claims, Proposal.batch, Proposal.fresh, free]
  exact ⟨rfl, rfl⟩

/-- No fix says the same as another. -/
theorem distinct_eq : (Fix.distinct fixes).1 = fixes := by
  refine Fix.distinctFrom_of_pairwise (fun _ _ => rfl) ?_
  refine ((List.pairwise_flatMap.mp given.differ).2.and given.once).imp_of_mem ?_
  rintro f g hf - ⟨differ, once⟩ same
  have change := (Fix.agrees_of_identity same).change
  obtain ⟨c, changed, updates⟩ := given.change f hf
  rw [changed] at change
  cases c with
  | insert html => exact updates html rfl
  | setAttribute overwrite name value =>
    -- Both set one attribute.
    have first : (name, value) ∈ f.updates := by simp [Fix.updates, changed, Change.updates]
    have second : (name, value) ∈ g.updates := by simp [Fix.updates, ← change, Change.updates]
    exact differ _ first _ second rfl
  | rename new attributes =>
    -- Both give a name.
    simp [newTag?, changed, ← change] at once

/-- The name that one of the fixes gives. -/
theorem flatMap_newTag? (edits : Option String → List Replacement) (unnamed : edits none = []) :
    fixes.flatMap (fun f => edits (newTag? f)) = edits (fixes.findSome? newTag?) := by
  have once := given.once
  clear given
  induction fixes with
  | nil => exact unnamed.symm
  | cons f rest ih =>
    rw [List.flatMap_cons]
    cases renames : newTag? f with
    | none => rw [unnamed, List.nil_append, ih once.of_cons, List.findSome?_cons_of_isNone (by simp [renames])]
    | some new =>
      have others : rest.flatMap (fun g => edits (newTag? g)) = [] := by
        refine List.flatMap_eq_nil_iff.mpr fun g member => ?_
        rcases List.rel_of_pairwise_cons once member with absent | absent
        · rw [renames] at absent
          cases absent
        · rw [absent, unnamed]
      rw [others, List.append_nil, List.findSome?_cons_of_isSome (by simp [renames]), renames]

end Updates

/-- The edits of each fix, one after another. -/
def passEdits (source : Bytes) (element tag : Node) (fixes : List Fix) : List Replacement :=
  fixes.flatMap fun f => (openingEdits tag (newTag? f) ++ closingEdits element (newTag? f)) ++
    f.updates.map fun u => setAttribute source tag u.1 u.2

namespace Updates

variable {source : String} {root element tag : Node} {fixes : List Fix} (given : Updates source root element tag fixes)
  (tree : root.IsTreeOver (encode source.toList).length) (tagged : Tagged root)

include given

theorem passEdits_perm (bytes : Bytes) : (passEdits bytes element tag fixes).Perm
    (allEdits bytes element tag (fixes.findSome? newTag?) (fixes.flatMap Fix.updates)) := by
  rw [passEdits, allEdits, List.map_flatMap,
    ← given.flatMap_newTag? (fun new? => openingEdits tag new? ++ closingEdits element new?) rfl]
  exact (List.flatMap_append_perm fixes _ _).symm

theorem plain_name (new : String) (renames : fixes.findSome? newTag? = some new) :
    ∃ n, Remedy.Jsx.name? tag = some n ∧ n.kind = "identifier" := by
  obtain ⟨f, member, named⟩ := List.exists_of_findSome?_eq_some renames
  exact given.plain f member new named

theorem mem_preorder : element ∈ root.preorder := Node.mem_preorder_of_select (List.mem_filter.mp given.among).1

include tagged in
theorem tagged_element : Tagged element := fun n hn => tagged n (Node.mem_preorder_trans root given.mem_preorder hn)

include tree tagged in
theorem passEdits_keepApart : EditPlan.KeepsApart (passEdits (encode source.toList) element tag fixes) := by
  have symmetric : ∀ {a b : Replacement}, a.overlaps b = false → b.overlaps a = false := by
    intro a b hab
    rwa [Replacement.overlaps_comm]
  have all := allEdits_keepApart (tree.below root given.mem_preorder) (given.tagged_element tagged) given.opens
    given.plain_name given.differ (encode source.toList)
  exact ((given.passEdits_perm _).pairwise_iff symmetric).mpr all

include tree tagged in
/-- The fixes add up. -/
theorem pass_edits : ((reading (encode source.toList) (targets root)).pass fixes).map (·.edits) =
    .ok (passEdits (encode source.toList) element tag fixes) := by
  have apart := (List.pairwise_flatMap.mp (given.passEdits_keepApart tree tagged)).2
  have differ := (List.pairwise_flatMap.mp given.differ).2
  -- Nothing is claimed before the first fix, and none of the fixes stands in the way of another.
  have sum : ((reading (encode source.toList) (targets root)).planFrom fixes .empty).map (·.edits) = _ :=
    Reading.planFrom_clear (fun f member => ⟨_, given.reading_eq member⟩) (fun _ _ _ _ _ held => by cases held)
      (fun _ _ _ _ held => by cases held) ?_
  · rw [Reading.pass, Reading.passFrom, ← Fix.distinct, given.distinct_eq, sum, ← List.flatMap_def, passEdits]
    change Except.ok ([] ++ _) = _
    rw [List.nil_append]
    exact congrArg _ (List.flatMap_congr fun f member => (given.own_eq member).1)
  · refine (apart.and differ).imp_of_mem fun {f g} hf hg both => ?_
    rw [(given.own_eq hf).1, (given.own_eq hg).1, (given.own_eq hf).2, (given.own_eq hg).2]
    refine ⟨both.1, fun c hc held => ?_⟩
    obtain ⟨u, hu, rfl⟩ := List.mem_map.mp hc
    obtain ⟨v, hv, same⟩ := List.mem_map.mp held
    exact both.2 u hu v hv (congrArg Prod.snd same).symm

include tree tagged in
/-- What is inserted where new attributes are put are updates, in their order. -/
theorem insertionsAt_passEdits (ordinary : Ordinary element tag) (place : Nat) (bytes : Bytes) :
    insertionsAt place (passEdits bytes element tag fixes) =
      insertionsAt place ((fixes.flatMap Fix.updates).map fun u => setAttribute bytes tag u.1 u.2) := by
  have below := tree.below root given.mem_preorder
  have names (new? : Option String) :
      (openingEdits tag new? ++ closingEdits element new?).filter (fun r => r.start == place && r.stop == place) = [] := by
    refine List.filter_eq_nil_iff.mpr fun r hr => ?_
    have proper : r.start < r.stop := by
      rcases List.mem_append.mp hr with first | last
      · exact (openingEdits_ends (isTreeOver_opening below (given.tagged_element tagged) given.opens) ordinary first).1
      · exact (closingEdits_begins below (given.tagged_element tagged) given.opens ordinary last).2
    simp only [Bool.and_eq_true, beq_iff_eq]
    omega
  rw [insertionsAt, insertionsAt, passEdits, List.map_flatMap, List.filter_flatMap, List.filter_flatMap]
  exact List.flatMap_congr fun f _ => by rw [List.filter_append, names, List.nil_append]

/-- All edits begin and end with characters. -/
theorem passEdits_boundaries (tagged : Tagged root) (cuts : root.CutsAtCharacters source) {r : Replacement}
    (hr : r ∈ passEdits (encode source.toList) element tag fixes) :
    IsBoundary source.toList r.start ∧ IsBoundary source.toList r.stop := by
  have opened : tag ∈ root.preorder := Node.mem_preorder_trans root given.mem_preorder (mem_preorder_of_opening? given.opens)
  rcases List.mem_append.mp ((given.passEdits_perm _).mem_iff.mp hr) with name | update
  · rcases List.mem_append.mp name with first | last
    · obtain ⟨n, new, named, rfl⟩ := mem_openingEdits first
      exact cuts n (Node.mem_preorder_of_child opened (mem_of_name? named))
    · obtain ⟨close, n, new, closes, named, rfl⟩ := mem_closingEdits last
      have part := (mem_of_closing? (given.tagged_element tagged) closes).1
      exact cuts n (Node.mem_preorder_of_child (Node.mem_preorder_of_child given.mem_preorder part) (mem_of_name? named))
  · obtain ⟨u, _, rfl⟩ := List.mem_map.mp update
    exact setAttribute_boundaries (fun n hn => cuts n (Node.mem_preorder_trans root opened hn)) u.1 u.2

include tree tagged in
/-- The text that the fixes come to. -/
theorem text (cuts : root.CutsAtCharacters source) (ordinary : Ordinary element tag) :
    ∃ out, (applyTo source root fixes).text = .ok out ∧
      (encode out.toList = updated (encode source.toList) element tag (fixes.findSome? newTag?) (fixes.flatMap Fix.updates) ↔
        CompletedFirst (encode source.toList) tag (fixes.flatMap Fix.updates)) := by
  have below := tree.below root given.mem_preorder
  have forward (r : Replacement) (hr : r ∈ passEdits (encode source.toList) element tag fixes) : r.start ≤ r.stop :=
    (allEdits_ends below (given.tagged_element tagged) given.opens ordinary ((given.passEdits_perm _).mem_iff.mp hr)).1
  obtain ⟨out, spliced, bytes⟩ := exists_splice? source (passEdits (encode source.toList) element tag fixes) forward
    (fun r hr => given.passEdits_boundaries tagged cuts hr) (given.passEdits_keepApart tree tagged)
  have placed := substitute_iff_updated below (given.tagged_element tagged) given.opens ordinary given.plain_name given.differ
    (given.passEdits_perm (encode source.toList)) (given.insertionsAt_passEdits tree tagged ordinary _ _)
  refine ⟨out, ?_, by rw [bytes]; exact placed⟩
  rw [text_applyTo, planOf_eq]
  have edits := given.pass_edits tree tagged
  cases passed : (reading (encode source.toList) (targets root)).pass fixes with
  | error e =>
    rw [passed] at edits
    cases edits
  | ok p =>
    rw [passed] at edits
    rw [← Except.ok.inj edits] at spliced
    exact finish_of_splice? spliced

end Updates

/-! ### A bare attribute and a new one -/

namespace Disabled

def source : String := "<input disabled />"

def element : Node :=
  .mk "jsx_self_closing_element" true false false 0 18 none
    [Retitled.leaf "identifier" (some "name") 1 6,
     .mk "jsx_attribute" true false false 7 15 none [Retitled.leaf "property_identifier" none 7 15]]

def script : Node := .mk "program" true false false 0 18 none [element]

def set (name value : String) : Fix := Retitled.fixWith .replaceAttribute ⟨some name, some value, none, none, []⟩

theorem ordinary : Ordinary element element where
  name := by decide
  uncommented := by decide
  bare := by decide
  valued := by decide
  closing := by decide

theorem disabled_lower : Text.lower "disabled" = "disabled" := by decide +kernel

theorem names_differ : Text.lower "disabled" ≠ Text.lower "title" := by
  rw [disabled_lower, Retitled.title_lower]
  decide

theorem updates_set : Updates source script element element [set "disabled" "x", set "title" "T"] where
  among := List.mem_singleton.mpr rfl
  opens := rfl
  meant f member := by
    rcases List.mem_pair.mp member with rfl | rfl <;> exact ⟨_, rfl, rfl⟩
  change f member := by
    rcases List.mem_pair.mp member with rfl | rfl <;> exact ⟨_, rfl, nofun⟩
  differ := List.pairwise_pair.mpr names_differ
  once := List.pairwise_pair.mpr (Or.inl rfl)
  plain f member := by
    rcases List.mem_pair.mp member with rfl | rfl <;> exact nofun

end Disabled

/-- **Every update lands where it belongs, exactly if the last attribute is completed before any is added.** A pass over fixes
that update attributes of one element, each attribute once, makes a text. In it a bare attribute has its value behind its
name, another one has its value in place of the old one, and new attributes stand behind all the others, if no new attribute
is given before the value of a bare one that is the last part of the tag; else this value stands behind a new attribute. -/
theorem updates_land (source : String) (root element tag : Node) (fixes : List Fix)
    (given : Updates source root element tag fixes) (tree : root.IsTreeOver (encode source.toList).length)
    (tagged : Tagged root) (cuts : root.CutsAtCharacters source) (ordinary : Ordinary element tag) :
    ∃ out, (applyTo source root fixes).text = .ok out ∧
      (encode out.toList = updated (encode source.toList) element tag (fixes.findSome? newTag?) (fixes.flatMap Fix.updates) ↔
        CompletedFirst (encode source.toList) tag (fixes.flatMap Fix.updates)) ∧
      Consecutive ((ownEdits (encode source.toList) tag (fixes.findSome? newTag?) (fixes.flatMap Fix.updates)).mergeSort
        Replacement.notAfter) ∧
      ∀ a ∈ Remedy.Jsx.attributes tag, a.stop ≤ anchor tag := by
  have below := tree.below root given.mem_preorder
  have opened := isTreeOver_opening below (given.tagged_element tagged) given.opens
  obtain ⟨out, text, placed⟩ := given.text tree tagged cuts ordinary
  refine ⟨out, text, placed, ?_, fun a member => ?_⟩
  · have untied := ownEdits_untied below (given.tagged_element tagged) given.opens ordinary given.plain_name given.differ
      (encode source.toList)
    exact (ordered_mergeSort _).consecutive (fun r hr => (ownEdits_ends opened ordinary hr).1) (untied.imp And.left)
  · obtain ⟨part, kind⟩ := mem_namedChildren_of_attribute member
    exact le_anchor opened part kind

/-- A bare attribute gets its value, and behind it there is a new one. -/
theorem title_behind_disabled :
    ∃ out, (applyTo Disabled.source Disabled.script [Disabled.set "disabled" "x", Disabled.set "title" "T"]).text = .ok out ∧
      encode out.toList = encode "<input disabled=\"x\" title=\"T\" />".toList := by
  obtain ⟨out, text, placed, _⟩ := updates_land Disabled.source Disabled.script Disabled.element Disabled.element _
    Disabled.updates_set (by decide) (by decide) (by decide) Disabled.ordinary
  refine ⟨out, text, ?_⟩
  rw [placed.mpr (by decide +kernel)]
  decide +kernel

/-- Where the new attribute is given first, the value ends up behind it. -/
theorem title_within_disabled :
    ¬ ∀ (source : String) (root element tag : Node) (fixes : List Fix), Updates source root element tag fixes →
      root.IsTreeOver (encode source.toList).length → Tagged root → root.CutsAtCharacters source → Ordinary element tag →
        ∀ out, (applyTo source root fixes).text = .ok out → encode out.toList =
          updated (encode source.toList) element tag (fixes.findSome? newTag?) (fixes.flatMap Fix.updates) := by
  intro land
  have tree : Disabled.script.IsTreeOver (encode Disabled.source.toList).length := by decide
  have tagged : Tagged Disabled.script := by decide
  have cuts : Disabled.script.CutsAtCharacters Disabled.source := by decide
  have updates := Disabled.updates_set.perm (List.Perm.swap (Disabled.set "disabled" "x") (Disabled.set "title" "T") [])
  obtain ⟨out, text, placed⟩ := updates.text tree tagged cuts Disabled.ordinary
  have first := placed.mp (land _ _ _ _ _ updates tree tagged cuts Disabled.ordinary out text)
  exact absurd first (by decide +kernel)

end Jsx

end Remedy.Patch
