import Remedy.Proofs.Edit.Frame
import Remedy.Proofs.Node.Layout
import Remedy.Proofs.Patch.Proposal

/-!
Where the edits of a pass stand: inside the text, and so that any two of them can be made together.

Edits of different fixes keep apart, as the plan sees to it. Those of one fix are made at different parts of one element,
but for new attributes: these may be put before what ends an unquoted value, a slash, and then they bring more than the
tag goes on for.
-/

namespace Remedy

open Text (Bytes encode)

namespace Replacement

/-- A stretch lies within a node. -/
structure LiesIn (r : Replacement) (n : Node) : Prop where
  start_le : n.start ≤ r.start
  forward : r.start ≤ r.stop
  le_stop : r.stop ≤ n.stop

variable {r s : Replacement} {n m : Node}

theorem LiesIn.up (h : r.LiesIn m) (child : m ∈ n.children) (laid : n.Laid) : r.LiesIn n where
  start_le := Nat.le_trans (laid.within m child).1 h.start_le
  forward := h.forward
  le_stop := Nat.le_trans h.le_stop (laid.within m child).2

theorem LiesIn.whole (forward : n.start ≤ n.stop) (content : String) : LiesIn ⟨n.start, n.stop, content⟩ n :=
  ⟨Nat.le_refl _, forward, Nat.le_refl _⟩

theorem LiesIn.overlaps (h : r.LiesIn n) (h' : s.LiesIn m) (apart : n.stop ≤ m.start ∨ m.stop ≤ n.start) :
    r.overlaps s = false := by
  apply overlaps_of_beside
  rcases apart with before | behind
  · exact Or.inl (Nat.le_trans h.le_stop (Nat.le_trans before h'.start_le))
  · exact Or.inr (Nat.le_trans h'.le_stop (Nat.le_trans behind h.start_le))

theorem LiesIn.compatible (h : r.LiesIn n) (h' : s.LiesIn m) (apart : n.stop ≤ m.start ∨ m.stop ≤ n.start) :
    r.Compatible s := Or.inl (h.overlaps h' apart)

end Replacement

/-- What stands for a node, if there is one, can be put in place of it. -/
theorem Coexist.ofNode? {node? : Option Node} {size : Nat} (h : ∀ n, node? = some n → n.start ≤ n.stop ∧ n.stop ≤ size)
    (content : String) : Coexist size (node?.map fun n => ⟨n.start, n.stop, content⟩).toList := by
  cases node? with
  | none => exact Coexist.nil size
  | some n => exact Coexist.singleton (h n rfl).1 (h n rfl).2

/-- A plan takes a batch only if it keeps apart from what it holds, so it is enough that each batch can be made. -/
theorem EditPlan.coexist_consider {p : EditPlan} {q : Patch.Proposal} {size : Nat} (held : Coexist size p.edits)
    (batch : Coexist size (q.batch p.claims)) : Coexist size (p.consider q).edits := by
  -- Batches are compared with what is held, never within themselves.
  cases conflicts : p.conflicts (q.batch p.claims) with
  | true => rwa [p.edits_consider_refused q conflicts]
  | false =>
    rw [p.edits_consider_taken q conflicts]
    apply held.append batch
    intro r hr s hs
    exact Or.inl ((EditPlan.not_conflicts_iff p _).mp conflicts |>.symm r hr s hs)

/-- A part of a node can be put in its place, which lies in the node. -/
theorem Node.IsTreeOver.liesIn_of_child {n c : Node} {size : Nat} (h : n.IsTreeOver size) (child : c ∈ n.children)
    (content : String) : Replacement.LiesIn ⟨c.start, c.stop, content⟩ n :=
  (Replacement.LiesIn.whole (h.child child).forward content).up child h.laid_self

namespace Patch

/-- Whatever is taken, the edits of a proposal can be made in a text of so many bytes. -/
def Proposal.Fits (size : Nat) (q : Proposal) : Prop := ∀ taken, Coexist size (q.batch taken)

/-- Edits of attributes that lie in a text can be made together, if those of two names always can. -/
theorem Proposal.fits_of {q : Proposal} {size : Nat} (fixed : Coexist size q.fixed)
    (forward : ∀ name value, (q.edit name value).start ≤ (q.edit name value).stop)
    (inside : ∀ name value, (q.edit name value).stop ≤ size)
    (among : ∀ name other, Text.lower name ≠ Text.lower other → ∀ value more,
      (q.edit name value).Compatible (q.edit other more))
    (across : ∀ r ∈ q.fixed, ∀ name value, r.Compatible (q.edit name value)) : q.Fits size := by
  intro taken
  have updates : Coexist size ((freeUpdates q.element taken q.updates).map fun u => q.edit u.1 u.2) :=
    { forward := List.forall_mem_map.mpr fun u _ => forward u.1 u.2
      inside := List.forall_mem_map.mpr fun u _ => inside u.1 u.2
      compatible := by
        refine List.pairwise_map.mpr (pairwise_freeUpdates.imp fun claims => among _ _ (fun names => claims ?_) _ _)
        rw [claimOf, claimOf, names] }
  exact fixed.append updates fun r hr => List.forall_mem_map.mpr fun u _ => across r hr u.1 u.2

theorem mem_of_elementAt? {source : Bytes} {elements : List Node} {p : Position} {element : Node}
    (h : elementAt? source elements p = some element) : element ∈ elements := by
  rw [elementAt?] at h
  rcases Option.or_eq_some_iff.mp h with found | ⟨_, first⟩
  · exact (List.mem_filter.mp (List.mem_of_find?_eq_some found)).1
  · exact (List.mem_filter.mp (List.mem_of_mem_head? first)).1

namespace Reading

variable {r : Reading} {size : Nat}

/-- Whatever is proposed can be made in a text of so many bytes. -/
def Fits (r : Reading) (size : Nat) : Prop := ∀ f q, r f = .ok (some q) → q.Fits size

theorem Fits.coexist_step (h : r.Fits size) {f : Fix} {p p' : EditPlan} (held : Coexist size p.edits)
    (step : r.step f p = .ok p') : Coexist size p'.edits := by
  obtain ⟨_, rfl⟩ | ⟨q, read, rfl⟩ := step_cases step
  · exact held
  · exact EditPlan.coexist_consider held (h f q read p.claims)

theorem Fits.coexist_planFrom (h : r.Fits size) (fixes : List Fix) {p p' : EditPlan} (held : Coexist size p.edits)
    (planned : r.planFrom fixes p = .ok p') : Coexist size p'.edits := by
  induction fixes generalizing p with
  | nil =>
    obtain rfl := Except.ok.inj planned
    exact held
  | cons f rest ih =>
    rw [planFrom] at planned
    cases step : r.step f p with
    | error e => rw [step] at planned; contradiction
    | ok next =>
      rw [step] at planned
      exact ih (h.coexist_step held step) planned

/-- The edits of a pass can be made together. -/
theorem Fits.coexist_pass (h : r.Fits size) {fixes : List Fix} {p : EditPlan} (planned : r.pass fixes = .ok p) :
    Coexist size p.edits :=
  h.coexist_planFrom _ (Coexist.nil size) planned

end Reading

/-! ### HTML -/

namespace Html

variable {source : Bytes} {element tag : Node} {size : Nat} {name other value : String}

/-- A stretch at the end of a tag that brings what the tag goes on for behind it. -/
structure EndsTag (r : Replacement) (tag : Node) : Prop where
  point : r.start = r.stop
  le_stop : r.stop ≤ tag.stop
  brings : tag.stop ≤ r.start + (encode r.content.toList).length

theorem EndsTag.compatible {r s : Replacement} (h : EndsTag s tag) (beside : r.stop ≤ tag.stop ∨ tag.stop ≤ r.start) :
    r.Compatible s := by
  obtain ⟨point, le_stop, brings⟩ := h
  rcases beside with within | behind
  · exact Or.inr (Or.inr ⟨point, Nat.le_trans within brings⟩)
  · exact .of_beside (Or.inr (by omega))

theorem insertAttribute_endsTag (source : Bytes) (tag : Node) (name value : String) :
    EndsTag (insertAttribute source tag name value) tag := by
  have long : 3 ≤ (encode (rendered name value).toList).length := by
    simp only [rendered, String.toList_append, Text.encode_append, List.length_append]
    have quotes : (encode "=\"".toList).length = 2 ∧ (encode "\"".toList).length = 1 := by decide
    omega
  have blank : (encode " ".toList).length = 1 := rfl
  simp only [insertAttribute]
  -- The slash, if there is one, and the bracket are two bytes, and what is put before them is more.
  constructor
  · split
    · split <;> rfl
    · rfl
  · split
    · split <;> simp only <;> omega
    · simp only
      omega
  · split
    · split <;> simp only [String.toList_append, Text.encode_append, List.length_append] <;> omega
    · simp only [String.toList_append, Text.encode_append, List.length_append]
      omega

theorem mem_of_findAttribute? {a : Node} (h : Remedy.Html.findAttribute? source tag name = some a) :
    a ∈ tag.children ∧ a.kind = "attribute" := Node.mem_of_childrenOf (List.mem_of_find?_eq_some h)

/-- Attributes of two names are two attributes. -/
theorem findAttribute?_ne {a b : Node} (ha : Remedy.Html.findAttribute? source tag name = some a)
    (hb : Remedy.Html.findAttribute? source tag other = some b) (names : Text.lower name ≠ Text.lower other) : a ≠ b := by
  rintro rfl
  have first := List.find?_some ha
  have second := List.find?_some hb
  simp only [beq_iff_eq] at first second
  exact names (first.symm.trans second)

theorem mem_of_opening? (h : opening? element = some tag) :
    tag ∈ element.children ∧ tag.kind ∈ ["start_tag", "self_closing_tag"] :=
  Node.mem_of_child? (Option.mem_filter_iff.mp h).1

theorem mem_of_tagName? {n : Node} (h : Remedy.Html.tagName? tag = some n) : n ∈ tag.children ∧ n.kind = "tag_name" := by
  simpa using Node.mem_of_child? h

/-- What closes an element is another part of it than what opens it. -/
theorem closeTag?_ne {close : Node} (opens : opening? element = some tag)
    (closes : Remedy.Html.closeTag? element = some close) : close ∈ element.children ∧ close ≠ tag := by
  obtain ⟨child, kind⟩ := Node.mem_of_child? closes
  refine ⟨child, ?_⟩
  rintro rfl
  have other := (mem_of_opening? opens).2
  rw [List.mem_singleton.mp kind] at other
  contradiction

/-! #### Edits of attributes -/

/-- An attribute is edited where it stands, or a new one is put at the end of the tag. -/
theorem setAttribute_cases (h : tag.IsTreeOver size) (source : Bytes) (name value : String) :
    (∃ a, Remedy.Html.findAttribute? source tag name = some a ∧ (setAttribute source tag name value).LiesIn a) ∨
      EndsTag (setAttribute source tag name value) tag := by
  rw [setAttribute]
  cases found : Remedy.Html.findAttribute? source tag name with
  | none => exact Or.inr (insertAttribute_endsTag source tag name value)
  | some a =>
    left
    refine ⟨a, rfl, ?_⟩
    have held := h.child (mem_of_findAttribute? found).1
    cases valued : Remedy.Html.valueNode? a with
    | none =>
      simp only [valued]
      exact .whole held.forward _
    | some v =>
      have part := (Node.mem_of_child? valued).1
      have quoted := held.child part
      simp only [valued]
      split
      · split
        next t text =>
          -- Only the text between the quotes is replaced.
          have inner := (Node.mem_of_child? text).1
          exact ((Replacement.LiesIn.whole (quoted.child inner).forward _).up inner quoted.laid_self).up part
            held.laid_self
        next => exact (Replacement.LiesIn.whole quoted.forward _).up part held.laid_self
      · exact (Replacement.LiesIn.whole quoted.forward _).up part held.laid_self

theorem setAttribute_within (h : tag.IsTreeOver size) (source : Bytes) (name value : String) :
    (setAttribute source tag name value).start ≤ (setAttribute source tag name value).stop ∧
      (setAttribute source tag name value).stop ≤ tag.stop := by
  rcases setAttribute_cases h source name value with ⟨a, found, lies⟩ | ends
  · exact ⟨lies.forward, (lies.up (mem_of_findAttribute? found).1 h.laid_self).le_stop⟩
  · exact ⟨Nat.le_of_eq ends.point, ends.le_stop⟩

theorem setAttribute_compatible (h : tag.IsTreeOver size) (names : Text.lower name ≠ Text.lower other)
    (value more : String) : (setAttribute source tag name value).Compatible (setAttribute source tag other more) := by
  rcases setAttribute_cases h source name value with ⟨a, found, lies⟩ | ends
  · rcases setAttribute_cases h source other more with ⟨b, found', lies'⟩ | ends
    · apply lies.compatible lies'
      exact h.laid_self.apart (mem_of_findAttribute? found).1 (mem_of_findAttribute? found').1
        (findAttribute?_ne found found' names)
    · exact ends.compatible (Or.inl (setAttribute_within h source name value).2)
  · exact (ends.compatible (Or.inl (setAttribute_within h source other more).2)).symm

/-! #### Edits of names -/

theorem mem_renameEdits {new : String} {r : Replacement} (h : r ∈ renameEdits element tag new) :
    ∃ n, r = ⟨n.start, n.stop, new⟩ ∧ (Remedy.Html.tagName? tag = some n ∨
      ∃ close, Remedy.Html.closeTag? element = some close ∧ Remedy.Html.tagName? close = some n) := by
  simp only [renameEdits, List.mem_append, Option.mem_toList, Option.map_eq_some_iff, Option.bind_some,
    Option.bind_eq_some_iff] at h
  rcases h with ⟨n, named, rfl⟩ | ⟨n, named, rfl⟩
  · exact ⟨n, rfl, Or.inl named⟩
  · exact ⟨n, rfl, Or.inr named⟩

theorem renameEdits_coexist (h : element.IsTreeOver size) (opens : opening? element = some tag) (new : String) :
    Coexist size (renameEdits element tag new) := by
  have opened := h.child (mem_of_opening? opens).1
  rw [renameEdits]
  apply Coexist.append
  · apply Coexist.ofNode?
    intro n named
    have whole := opened.child (mem_of_tagName? named).1
    exact ⟨whole.forward, whole.inside⟩
  · apply Coexist.ofNode?
    intro n named
    obtain ⟨close, closes, named⟩ := Option.bind_eq_some_iff.mp named
    have whole := (h.child (closeTag?_ne opens closes).1).child (mem_of_tagName? named).1
    exact ⟨whole.forward, whole.inside⟩
  · -- The two names are in two parts of the element.
    intro r hr s hs
    simp only [Option.mem_toList, Option.map_eq_some_iff, Option.bind_eq_some_iff, Option.bind_some] at hr hs
    obtain ⟨n, named, rfl⟩ := hr
    obtain ⟨m, ⟨close, closes, named'⟩, rfl⟩ := hs
    obtain ⟨child, other⟩ := closeTag?_ne opens closes
    have first := opened.liesIn_of_child (mem_of_tagName? named).1 new
    have last := (h.child child).liesIn_of_child (mem_of_tagName? named').1 new
    exact first.compatible last (h.laid_self.apart (mem_of_opening? opens).1 child other.symm)

/-- A name is no part of an attribute, and what is put at the end of a tag is in no name. -/
theorem renameEdits_compatible (h : element.IsTreeOver size) (opens : opening? element = some tag) {new : String}
    {r : Replacement} (hr : r ∈ renameEdits element tag new) (name value : String) :
    r.Compatible (setAttribute source tag name value) := by
  have opened := h.child (mem_of_opening? opens).1
  obtain ⟨n, rfl, named | ⟨close, closes, named⟩⟩ := mem_renameEdits hr
  · obtain ⟨child, kind⟩ := mem_of_tagName? named
    have lies := opened.liesIn_of_child child new
    rcases setAttribute_cases opened source name value with ⟨a, found, within⟩ | ends
    · -- By their kinds, the name and the attribute are two parts of the tag.
      obtain ⟨childA, kindA⟩ := mem_of_findAttribute? found
      apply (Replacement.LiesIn.whole (opened.child child).forward new).compatible within
      apply opened.laid_self.apart child childA
      rintro rfl
      rw [kind] at kindA
      contradiction
    · exact ends.compatible (Or.inl lies.le_stop)
  · obtain ⟨child, other⟩ := closeTag?_ne opens closes
    have lies := (h.child child).liesIn_of_child (mem_of_tagName? named).1 new
    have apart := h.laid_self.apart child (mem_of_opening? opens).1 other
    rcases setAttribute_cases opened source name value with ⟨a, found, within⟩ | ends
    · exact lies.compatible (within.up (mem_of_findAttribute? found).1 opened.laid_self) apart
    · apply ends.compatible
      rcases apart with before | behind
      · exact Or.inl (Nat.le_trans lies.le_stop (Nat.le_trans before opened.forward))
      · exact Or.inr (Nat.le_trans behind lies.start_le)

/-! #### A pass -/

/-- Whichever attributes are set, this goes with what the names or the content of the element get. -/
theorem attributes_fit (opened : tag.IsTreeOver size) {place : Nat} {fixed : List Replacement}
    {updates : List (String × String)} (coexist : Coexist size fixed)
    (across : ∀ r ∈ fixed, ∀ name value, r.Compatible (setAttribute source tag name value)) :
    Proposal.Fits size ⟨place, fixed, updates, setAttribute source tag⟩ := by
  apply Proposal.fits_of coexist
  · exact fun name value => (setAttribute_within opened source name value).1
  · exact fun name value => Nat.le_trans (setAttribute_within opened source name value).2 opened.inside
  · exact fun name other names => setAttribute_compatible opened names
  · exact across

theorem proposal?_fits (h : element.IsTreeOver size) {f : Fix} {q : Proposal}
    (proposed : proposal? source f element = some q) : q.Fits size := by
  rw [proposal?] at proposed
  split at proposed
  next tag change opens _ =>
    have opened := h.child (mem_of_opening? opens).1
    split at proposed
    · contradiction
    · split at proposed
      next html =>
        split at proposed
        · contradiction
        · obtain rfl := Option.some.inj proposed
          apply attributes_fit opened (Coexist.singleton (Nat.le_refl _) opened.inside)
          -- The content comes behind the tag.
          intro r hr name value
          obtain rfl := List.mem_singleton.mp hr
          exact .of_beside (Or.inr (setAttribute_within opened source name value).2)
      next =>
        obtain rfl := Option.some.inj proposed
        exact attributes_fit opened (Coexist.nil size) (by simp)
      next new _ _ =>
        obtain rfl := Option.some.inj proposed
        exact attributes_fit opened (renameEdits_coexist h opens new) fun r hr => renameEdits_compatible h opens hr
  next => contradiction

theorem reading_fits {root : Node} (h : root.IsTreeOver size) (source : Bytes) (lookup : Lookup) :
    (reading source (targets root) lookup).Fits size := by
  intro f q read
  rw [reading] at read
  cases target : targetOf lookup f with
  | error e => rw [target] at read; contradiction
  | ok found =>
    rw [target] at read
    obtain ⟨p, _, here⟩ := Option.bind_eq_some_iff.mp (Except.ok.inj read)
    obtain ⟨element, found, proposed⟩ := Option.bind_eq_some_iff.mp here
    have member := (List.mem_filter.mp (mem_of_elementAt? found)).1
    exact proposal?_fits (h.below root (Node.mem_preorder_of_select member)) proposed

end Html

/-! ### Markup in scripts -/

namespace Jsx

variable {source : Bytes} {element tag : Node} {size : Nat} {name other value : String}

/-- What opens and what closes an element is known by its kind as well as by its role. -/
def Tagged (root : Node) : Prop :=
  ∀ n ∈ root.preorder, (n.field = some "open_tag" → n.kind = "jsx_opening_element") ∧
    (n.field = some "close_tag" → n.kind = "jsx_closing_element")

instance (root : Node) : Decidable (Tagged root) := by
  unfold Tagged
  infer_instance

theorem mem_of_findAttribute? {a : Node} (h : Remedy.Jsx.findAttribute? source tag name = some a) :
    a ∈ tag.children ∧ a.kind = "jsx_attribute" := by
  obtain ⟨named, kind⟩ := List.mem_filter.mp (List.mem_of_find?_eq_some h)
  exact ⟨Node.mem_of_namedChildren named, by simpa using kind⟩

/-- Attributes of two names are two attributes. -/
theorem findAttribute?_ne {a b : Node} (ha : Remedy.Jsx.findAttribute? source tag name = some a)
    (hb : Remedy.Jsx.findAttribute? source tag other = some b) (names : name ≠ other) : a ≠ b := by
  rintro rfl
  have first := List.find?_some ha
  have second := List.find?_some hb
  simp only [beq_iff_eq] at first second
  exact names (first.symm.trans second)

theorem mem_of_name? {n : Node} (h : Remedy.Jsx.name? tag = some n) : n ∈ tag.children :=
  (Node.mem_of_childInRole? h).1

/-- The tag that opens an element is the element itself or a part of it. -/
theorem opening?_cases (tagged : Tagged element) (h : Remedy.Jsx.opening? element = some tag) :
    tag = element ∧ Remedy.Jsx.closing? element = none ∨ tag ∈ element.children ∧ tag.kind = "jsx_opening_element" := by
  rw [Remedy.Jsx.opening?] at h
  rw [Remedy.Jsx.closing?]
  split at h
  next alone =>
    obtain rfl := Option.some.inj h
    exact Or.inl ⟨rfl, if_pos alone⟩
  next =>
    right
    rcases Option.or_eq_some_iff.mp h with inRole | ⟨_, ofKind⟩
    · -- The tag is found by its role, and by its role it has the kind.
      obtain ⟨child, role⟩ := Node.mem_of_childInRole? inRole
      exact ⟨child, (tagged tag (Node.mem_preorder_of_child (Node.mem_preorder_self element) child)).1 role⟩
    · obtain ⟨child, kind⟩ := Node.mem_of_child? ofKind
      exact ⟨child, List.mem_singleton.mp kind⟩

theorem mem_of_closing? (tagged : Tagged element) {close : Node} (h : Remedy.Jsx.closing? element = some close) :
    close ∈ element.children ∧ close.kind = "jsx_closing_element" := by
  rw [Remedy.Jsx.closing?] at h
  split at h
  next => contradiction
  next =>
    rcases Option.or_eq_some_iff.mp h with inRole | ⟨_, ofKind⟩
    · obtain ⟨child, role⟩ := Node.mem_of_childInRole? inRole
      exact ⟨child, (tagged close (Node.mem_preorder_of_child (Node.mem_preorder_self element) child)).2 role⟩
    · obtain ⟨child, kind⟩ := Node.mem_of_child? ofKind
      exact ⟨child, List.mem_singleton.mp kind⟩

/-- What closes an element is another part of it than what opens it, which then is a part as well. -/
theorem closing?_ne (tagged : Tagged element) {close : Node} (opens : Remedy.Jsx.opening? element = some tag)
    (closes : Remedy.Jsx.closing? element = some close) :
    tag ∈ element.children ∧ close ∈ element.children ∧ tag ≠ close := by
  obtain ⟨child, kind⟩ := mem_of_closing? tagged closes
  rcases opening?_cases tagged opens with ⟨_, unclosed⟩ | ⟨part, kind'⟩
  · rw [unclosed] at closes
    contradiction
  · refine ⟨part, child, ?_⟩
    rintro rfl
    rw [kind] at kind'
    contradiction

/-! #### Edits of attributes -/

/-- A place at which a tag takes new attributes: it is in none of the parts of the tag. -/
structure Between (r : Replacement) (tag : Node) : Prop where
  point : r.start = r.stop
  lies : r.LiesIn tag
  clear : ∀ c ∈ tag.children, r.stop ≤ c.start ∨ c.stop ≤ r.start

theorem anchor_between (h : tag.IsTreeOver size) (content : String) : Between ⟨anchor tag, anchor tag, content⟩ tag := by
  rw [anchor]
  split
  next last found =>
    have child : last ∈ tag.children :=
      Node.mem_of_namedChildren (List.mem_filter.mp (List.mem_of_getLast? found)).1
    have within := h.laid_self.within last child
    have forward := (h.child child).forward
    refine ⟨rfl, ⟨by simp only; omega, Nat.le_refl _, within.2⟩, fun c hc => ?_⟩
    -- The place is the end of the last named part, so of the others each ends before it or begins behind it.
    by_cases same : c = last
    · exact Or.inr (by rw [same])
    · have apart := h.laid_self.apart hc child same
      simp only
      omega
  next =>
    exact ⟨rfl, ⟨h.forward, Nat.le_refl _, Nat.le_refl _⟩, fun c hc => Or.inr (h.laid_self.within c hc).2⟩

theorem Between.overlaps {r s : Replacement} {c : Node} (h : Between s tag) (child : c ∈ tag.children)
    (lies : r.LiesIn c) : r.overlaps s = false := by
  apply Replacement.overlaps_of_beside
  rcases h.clear c child with before | behind
  · exact Or.inr (Nat.le_trans before lies.start_le)
  · exact Or.inl (Nat.le_trans lies.le_stop behind)

/-- An attribute is edited where it stands, or a new one is put between the parts of the tag. -/
theorem setAttribute_cases (h : tag.IsTreeOver size) (source : Bytes) (name value : String) :
    (∃ a, Remedy.Jsx.findAttribute? source tag name = some a ∧ (setAttribute source tag name value).LiesIn a) ∨
      Between (setAttribute source tag name value) tag := by
  rw [setAttribute]
  cases found : Remedy.Jsx.findAttribute? source tag name with
  | none => exact Or.inr (anchor_between h _)
  | some a =>
    left
    refine ⟨a, rfl, ?_⟩
    have held := h.child (mem_of_findAttribute? found).1
    cases valued : Remedy.Jsx.valueNode? a with
    | none =>
      simp only [valued]
      exact ⟨held.forward, Nat.le_refl _, Nat.le_refl _⟩
    | some v =>
      simp only [valued]
      exact held.liesIn_of_child (Node.mem_of_namedChildren (List.mem_of_getElem? valued)) _

theorem setAttribute_liesIn (h : tag.IsTreeOver size) (source : Bytes) (name value : String) :
    (setAttribute source tag name value).LiesIn tag := by
  rcases setAttribute_cases h source name value with ⟨a, found, lies⟩ | between
  · exact lies.up (mem_of_findAttribute? found).1 h.laid_self
  · exact between.lies

theorem setAttribute_overlaps (h : tag.IsTreeOver size) (names : name ≠ other) (value more : String) :
    (setAttribute source tag name value).overlaps (setAttribute source tag other more) = false := by
  rcases setAttribute_cases h source name value with ⟨a, found, lies⟩ | between
  · rcases setAttribute_cases h source other more with ⟨b, found', lies'⟩ | between
    · apply lies.overlaps lies'
      exact h.laid_self.apart (mem_of_findAttribute? found).1 (mem_of_findAttribute? found').1
        (findAttribute?_ne found found' names)
    · exact between.overlaps (mem_of_findAttribute? found).1 lies
  · rcases setAttribute_cases h source other more with ⟨b, found', lies'⟩ | between'
    · rw [Replacement.overlaps_comm]
      exact between.overlaps (mem_of_findAttribute? found').1 lies'
    · apply Replacement.overlaps_of_beside
      rw [← between.point, ← between'.point]
      exact Nat.le_total _ _

/-! #### Edits of names -/

theorem mem_renameEdits {n : Node} {new : String} {r : Replacement} (h : r ∈ renameEdits element n new) :
    r = ⟨n.start, n.stop, new⟩ ∨ ∃ close m, Remedy.Jsx.closing? element = some close ∧
      Remedy.Jsx.name? close = some m ∧ r = ⟨m.start, m.stop, new⟩ := by
  simp only [renameEdits, List.mem_cons, Option.mem_toList, Option.map_eq_some_iff, Option.filter_eq_some_iff,
    Option.bind_eq_some_iff] at h
  rcases h with rfl | ⟨m, ⟨⟨close, closes, named⟩, _⟩, rfl⟩
  · exact Or.inl rfl
  · exact Or.inr ⟨close, m, closes, named, rfl⟩

section

variable {n : Node} {new : String} (h : element.IsTreeOver size) (tagged : Tagged element)
  (opens : Remedy.Jsx.opening? element = some tag)

include h tagged opens in
theorem isTreeOver_opening : tag.IsTreeOver size := by
  rcases opening?_cases tagged opens with ⟨rfl, _⟩ | ⟨part, _⟩
  · exact h
  · exact h.child part

include h tagged opens in
theorem renameEdits_keepsApart (named : Remedy.Jsx.name? tag = some n) (new : String) :
    EditPlan.KeepsApart (renameEdits element n new) := by
  have opened := isTreeOver_opening h tagged opens
  rw [renameEdits]
  cases closed : ((Remedy.Jsx.closing? element).bind Remedy.Jsx.name?).filter fun m => m.kind == "identifier" with
  | none => exact List.pairwise_singleton _ _
  | some m =>
    obtain ⟨close, closes, named'⟩ := Option.bind_eq_some_iff.mp (Option.filter_eq_some_iff.mp closed).1
    obtain ⟨part, child, other⟩ := closing?_ne tagged opens closes
    have first := opened.liesIn_of_child (mem_of_name? named) new
    have last := (h.child child).liesIn_of_child (mem_of_name? named') new
    exact List.pairwise_pair.mpr (first.overlaps last (h.laid_self.apart part child other))

include h tagged opens in
theorem renameEdits_coexist (named : Remedy.Jsx.name? tag = some n) (new : String) :
    Coexist size (renameEdits element n new) := by
  have within : ∀ r ∈ renameEdits element n new, r.start ≤ r.stop ∧ r.stop ≤ size := by
    intro r hr
    rcases mem_renameEdits hr with rfl | ⟨close, m, closes, named', rfl⟩
    · have whole := (isTreeOver_opening h tagged opens).child (mem_of_name? named)
      exact ⟨whole.forward, whole.inside⟩
    · have last := (h.child (closing?_ne tagged opens closes).2.1).child (mem_of_name? named')
      exact ⟨last.forward, last.inside⟩
  exact ⟨fun r hr => (within r hr).1, fun r hr => (within r hr).2,
    (renameEdits_keepsApart h tagged opens named new).imp Or.inl⟩

include h tagged opens in
/-- A name is no part of an attribute, and what is put between the parts of a tag is in no name. -/
theorem renameEdits_overlaps (named : Remedy.Jsx.name? tag = some n) (plain : n.kind = "identifier") {r : Replacement}
    (hr : r ∈ renameEdits element n new) (name value : String) : r.overlaps (setAttribute source tag name value) = false := by
  have opened := isTreeOver_opening h tagged opens
  rcases mem_renameEdits hr with rfl | ⟨close, m, closes, named', rfl⟩
  · have child := mem_of_name? named
    have whole := Replacement.LiesIn.whole (opened.child child).forward new
    rcases setAttribute_cases opened source name value with ⟨a, found, within⟩ | between
    · obtain ⟨childA, kindA⟩ := mem_of_findAttribute? found
      apply whole.overlaps within
      apply opened.laid_self.apart child childA
      rintro rfl
      rw [plain] at kindA
      contradiction
    · exact between.overlaps child whole
  · obtain ⟨part, child, other⟩ := closing?_ne tagged opens closes
    have last := (h.child child).liesIn_of_child (mem_of_name? named') new
    exact last.overlaps (setAttribute_liesIn opened source name value) (h.laid_self.apart child part other.symm)

end

/-! #### A pass -/

/-- Whichever attributes are set, this goes with what the names or the content of the element get. -/
theorem attributes_fit (opened : tag.IsTreeOver size) {place : Nat} {fixed : List Replacement}
    {updates : List (String × String)} (coexist : Coexist size fixed)
    (across : ∀ r ∈ fixed, ∀ name value, r.Compatible (setAttribute source tag name value)) :
    Proposal.Fits size ⟨place, fixed, updates, setAttribute source tag⟩ := by
  apply Proposal.fits_of coexist
  · exact fun name value => (setAttribute_liesIn opened source name value).forward
  · exact fun name value => Nat.le_trans (setAttribute_liesIn opened source name value).le_stop opened.inside
  · intro name other claims value more
    refine Or.inl (setAttribute_overlaps opened ?_ value more)
    rintro rfl
    exact claims rfl
  · exact across

theorem proposal?_fits (h : element.IsTreeOver size) (tagged : Tagged element) {f : Fix} {q : Proposal}
    (proposed : proposal? source f element = some q) : q.Fits size := by
  rw [proposal?] at proposed
  split at proposed
  next tag change opens _ =>
    have opened := isTreeOver_opening h tagged opens
    split at proposed
    next html =>
      split at proposed
      · contradiction
      · obtain rfl := Option.some.inj proposed
        apply attributes_fit opened (Coexist.singleton (Nat.le_refl _) opened.inside)
        -- The content comes behind the tag.
        intro r hr name value
        obtain rfl := List.mem_singleton.mp hr
        exact .of_beside (Or.inr (setAttribute_liesIn opened source name value).le_stop)
    next =>
      obtain rfl := Option.some.inj proposed
      exact attributes_fit opened (Coexist.nil size) (by simp)
    next new _ _ =>
      split at proposed
      · contradiction
      next n named =>
        split at proposed
        · contradiction
        next plain =>
          obtain rfl := Option.some.inj proposed
          apply attributes_fit opened (renameEdits_coexist h tagged opens named new)
          exact fun r hr name value =>
            Or.inl (renameEdits_overlaps h tagged opens named (by simpa using plain) hr name value)
  next => contradiction

theorem reading_fits {root : Node} (h : root.IsTreeOver size) (tagged : Tagged root) (source : Bytes) :
    (reading source (targets root)).Fits size := by
  intro f q read
  obtain ⟨l, _, here⟩ := Option.bind_eq_some_iff.mp (Except.ok.inj read)
  obtain ⟨element, found, proposed⟩ := Option.bind_eq_some_iff.mp here
  have below := Node.mem_preorder_of_select (List.mem_filter.mp (mem_of_elementAt? found)).1
  exact proposal?_fits (h.below root below) (fun n hn => tagged n (Node.mem_preorder_trans root below hn)) proposed

end Jsx

/-! ### Texts -/

/-- What is written by a pass is what was read, but for what its edits cover. -/
theorem changedWithin_of_finish {source content : String} {p : EditPlan}
    (coexist : Coexist (encode source.toList).length p.edits)
    (finished : finish source (encode source.toList) p = .ok content) :
    ChangedWithin p.edits 0 (encode source.toList) (encode content.toList) := by
  rw [finish] at finished
  split at finished
  next =>
    obtain rfl := Except.ok.inj finished
    exact .refl _ 0 _
  next =>
    simp only at finished
    split at finished
    next cs decoded =>
      obtain rfl := Except.ok.inj finished
      rw [String.toList_ofList, Text.encode_of_decode? decoded]
      exact coexist.changedWithin_spliceBytes
    next => contradiction

end Patch

end Remedy
