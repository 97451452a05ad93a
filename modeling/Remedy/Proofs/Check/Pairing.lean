import Mathlib.Data.List.Induction
import Mathlib.Data.List.Nodup
import Remedy.Proofs.Check.Nesting

/-!
How start and end tags pair up.

Places are counted along the sequence of tags. An end tag goes with the last start tag of its name that is still open, and
that pair closes all that was opened inside of it. Every tag that takes part is in one pair, or it is told of once; pairs
never cross.

The pairs are not kept while tags are counted. The proof runs along the sequence and carries them with it, together with
the places of the tags that are open and of those that were told of.
-/

namespace Remedy.Check

/-- What is told of a tag that is in no pair. -/
def TagEvent.complaint? : TagEvent → Option Imbalance
  | .start tag p => some (.unclosed tag p)
  | .stop tag p => some (.stray tag p)
  | .selfClosing _ _ => none

/-- Whether the start tag at place `k` is open when place `n` is come to: no pair that ends before `n` holds it. -/
structure OpenAt (events : List TagEvent) (pairs : List (Nat × Nat)) (n k : Nat) (tag : String) : Prop where
  before : k < n
  start : ∃ p, events[k]? = some (.start tag p)
  counted : voidElements.contains tag = false
  free : ∀ i j, (i, j) ∈ pairs → j < n → i ≤ k → j ≤ k

/-- Pairs of places, each of a start tag and the end tag that closes it. -/
structure Pairing (events : List TagEvent) (pairs : List (Nat × Nat)) : Prop where
  /-- A pair is a start tag and a later end tag of the same name. -/
  element : ∀ i j, (i, j) ∈ pairs → i < j ∧ ∃ tag p q, voidElements.contains tag = false ∧
    events[i]? = some (.start tag p) ∧ events[j]? = some (.stop tag q)
  /-- No tag is in two pairs. -/
  once : ∀ i j k l, (i, j) ∈ pairs → (k, l) ∈ pairs → (i = k ↔ j = l)
  /-- A pair that begins inside of another one ends there. -/
  uncrossed : ∀ i j k l, (i, j) ∈ pairs → (k, l) ∈ pairs → i < k → k < j → l < j
  /-- An end tag closes the last start tag of its name that is open. -/
  innermost : ∀ i j tag q, (i, j) ∈ pairs → events[j]? = some (.stop tag q) →
    OpenAt events pairs j i tag ∧ ∀ k, OpenAt events pairs j k tag → k ≤ i
  /-- An end tag is in no pair only if no start tag of its name is open. -/
  stray : ∀ j tag q, events[j]? = some (.stop tag q) → voidElements.contains tag = false → (∀ i, (i, j) ∉ pairs) →
    ∀ k, ¬ OpenAt events pairs j k tag

/-- Whether a tag that takes part is in no pair. -/
def Unpaired (events : List TagEvent) (pairs : List (Nat × Nat)) (k : Nat) : Prop :=
  (∃ e, events[k]? = some e ∧ e.counts = true) ∧ ∀ i j, (i, j) ∈ pairs → k ≠ i ∧ k ≠ j

/-! ### Pairs, carried along -/

section

variable {es : List TagEvent} {e : TagEvent} {pairs pairs' : List (Nat × Nat)} {k n : Nat} {tag : String}

theorem getElem?_snoc {f : TagEvent} : (es ++ [e])[k]? = some f ↔ es[k]? = some f ∨ k = es.length ∧ e = f := by
  rcases Nat.lt_trichotomy k es.length with before | rfl | behind
  · rw [List.getElem?_append_left before]
    exact ⟨Or.inl, fun h => h.resolve_right fun last => Nat.ne_of_lt before last.1⟩
  · simp
  · rw [List.getElem?_eq_none (by simpa using Nat.succ_le_of_lt behind),
      List.getElem?_eq_none (Nat.le_of_lt behind)]
    exact ⟨nofun, fun h => h.elim nofun fun last => absurd last.1 (Nat.ne_of_gt behind)⟩

theorem lt_length_of_getElem? {f : TagEvent} (h : es[k]? = some f) : k < es.length :=
  (List.getElem?_eq_some_iff.mp h).1

theorem Pairing.stop_lt (h : Pairing es pairs) {i j : Nat} (member : (i, j) ∈ pairs) : j < es.length := by
  obtain ⟨-, tag, p, q, -, -, stop⟩ := h.element i j member
  exact lt_length_of_getElem? stop

/-- What is open at a place depends on what stands before it, and on the pairs that end there. -/
theorem openAt_snoc (within : n ≤ es.length) (same : ∀ i j, j < n → ((i, j) ∈ pairs' ↔ (i, j) ∈ pairs)) :
    OpenAt (es ++ [e]) pairs' n k tag ↔ OpenAt es pairs n k tag := by
  constructor
  · rintro ⟨before, ⟨p, start⟩, counted, free⟩
    have old : es[k]? = some (.start tag p) := by
      rwa [List.getElem?_append_left (Nat.lt_of_lt_of_le before within)] at start
    exact ⟨before, ⟨p, old⟩, counted, fun i j member ended => free i j ((same i j ended).mpr member) ended⟩
  · rintro ⟨before, ⟨p, start⟩, counted, free⟩
    exact ⟨before, ⟨p, getElem?_snoc.mpr (Or.inl start)⟩, counted,
      fun i j member ended => free i j ((same i j ended).mp member) ended⟩

theorem openAt_snoc_self (within : n ≤ es.length) : OpenAt (es ++ [e]) pairs n k tag ↔ OpenAt es pairs n k tag :=
  openAt_snoc within fun _ _ _ => Iff.rfl

/-- A pair that ends with the last tag closes nothing before that. -/
theorem openAt_close {i : Nat} (within : n ≤ es.length) :
    OpenAt (es ++ [e]) ((i, es.length) :: pairs) n k tag ↔ OpenAt es pairs n k tag := by
  refine openAt_snoc within fun c d ended => ?_
  rw [List.mem_cons, Prod.mk.injEq, or_iff_right]
  rintro ⟨-, rfl⟩
  omega

/-- With one tag more, what was open still is, and the tag itself may be. -/
theorem openAt_length_succ (h : Pairing es pairs) :
    OpenAt (es ++ [e]) pairs (es.length + 1) k tag ↔
      OpenAt es pairs es.length k tag ∨ k = es.length ∧ (∃ p, e = .start tag p) ∧ voidElements.contains tag = false := by
  constructor
  · rintro ⟨-, ⟨p, start⟩, counted, free⟩
    rcases getElem?_snoc.mp start with old | ⟨last, new⟩
    · exact Or.inl ⟨lt_length_of_getElem? old, ⟨p, old⟩, counted,
        fun i j member ended => free i j member (Nat.lt_succ_of_lt ended)⟩
    · exact Or.inr ⟨last, ⟨p, new⟩, counted⟩
  · rintro (⟨before, ⟨p, start⟩, counted, free⟩ | ⟨rfl, ⟨p, new⟩, counted⟩)
    · exact ⟨Nat.lt_succ_of_lt before, ⟨p, getElem?_snoc.mpr (Or.inl start)⟩, counted,
        fun i j member _ => free i j member (h.stop_lt member)⟩
    · exact ⟨Nat.lt_succ_self _, ⟨p, getElem?_snoc.mpr (Or.inr ⟨rfl, new⟩)⟩, counted,
        fun i j member _ _ => Nat.le_of_lt (h.stop_lt member)⟩

/-- A tag that is open is in no pair so far. -/
theorem OpenAt.unpaired (h : Pairing es pairs) (opened : OpenAt es pairs es.length k tag) : Unpaired es pairs k := by
  obtain ⟨p, start⟩ := opened.start
  refine ⟨⟨_, start, by rw [TagEvent.counts, opened.counted]; rfl⟩, fun i j member => ?_⟩
  obtain ⟨order, tag', p', q, -, -, stop⟩ := h.element i j member
  constructor
  · rintro rfl
    have ended := opened.free k j member (h.stop_lt member) (Nat.le_refl k)
    omega
  · rintro rfl
    -- It is a start tag, and pairs end with end tags.
    rw [start] at stop
    cases stop

theorem Unpaired.lt_length (h : Unpaired es pairs k) : k < es.length := by
  obtain ⟨⟨f, at_, -⟩, -⟩ := h
  exact lt_length_of_getElem? at_

theorem unpaired_snoc (h : Pairing es pairs) :
    Unpaired (es ++ [e]) pairs k ↔ Unpaired es pairs k ∨ k = es.length ∧ e.counts = true := by
  constructor
  · rintro ⟨⟨f, at_, taken⟩, apart⟩
    rcases getElem?_snoc.mp at_ with old | ⟨last, rfl⟩
    · exact Or.inl ⟨⟨f, old, taken⟩, apart⟩
    · exact Or.inr ⟨last, taken⟩
  · rintro (⟨⟨f, at_, taken⟩, apart⟩ | ⟨rfl, taken⟩)
    · exact ⟨⟨f, getElem?_snoc.mpr (Or.inl at_), taken⟩, apart⟩
    · refine ⟨⟨e, getElem?_snoc.mpr (Or.inr ⟨rfl, rfl⟩), taken⟩, fun i j member => ?_⟩
      have order := (h.element i j member).1
      have ended := h.stop_lt member
      omega

/-- A pair that ends with the last tag leaves open what stands before its start tag. -/
theorem openAt_close_succ (h : Pairing es pairs) {i : Nat} {name : String} {q : Position} :
    OpenAt (es ++ [.stop name q]) ((i, es.length) :: pairs) (es.length + 1) k tag ↔
      OpenAt es pairs es.length k tag ∧ k < i := by
  constructor
  · rintro ⟨-, ⟨p, start⟩, counted, free⟩
    rcases getElem?_snoc.mp start with old | ⟨-, new⟩
    · have before := lt_length_of_getElem? old
      refine ⟨⟨before, ⟨p, old⟩, counted, fun c d member ended => ?_⟩, ?_⟩
      · exact free c d (List.mem_cons_of_mem _ member) (Nat.lt_succ_of_lt ended)
      · by_contra inside
        have ended := free i es.length List.mem_cons_self (Nat.lt_succ_self _) (Nat.le_of_not_lt inside)
        omega
    · cases new
  · rintro ⟨⟨before, ⟨p, start⟩, counted, free⟩, outside⟩
    refine ⟨Nat.lt_succ_of_lt before, ⟨p, getElem?_snoc.mpr (Or.inl start)⟩, counted, fun c d member _ => ?_⟩
    rcases List.mem_cons.mp member with new | old
    · obtain ⟨rfl, rfl⟩ := Prod.mk.inj new
      intro within
      omega
    · exact free c d old (h.stop_lt old)

theorem unpaired_close (h : Pairing es pairs) {i : Nat} :
    Unpaired (es ++ [e]) ((i, es.length) :: pairs) k ↔ Unpaired es pairs k ∧ k ≠ i := by
  constructor
  · rintro ⟨taken, free⟩
    obtain ⟨fresh, notLast⟩ := free i es.length List.mem_cons_self
    have alone : Unpaired (es ++ [e]) pairs k := ⟨taken, fun c d member => free c d (List.mem_cons_of_mem _ member)⟩
    exact ⟨((unpaired_snoc h).mp alone).resolve_right fun new => notLast new.1, fresh⟩
  · rintro ⟨alone, fresh⟩
    obtain ⟨taken, free⟩ := (unpaired_snoc (e := e) h).mpr (Or.inl alone)
    refine ⟨taken, fun c d member => ?_⟩
    rcases List.mem_cons.mp member with new | old
    · obtain ⟨rfl, rfl⟩ := Prod.mk.inj new
      exact ⟨fresh, Nat.ne_of_lt alone.lt_length⟩
    · exact free c d old

/-- The pairs stay as they are if the next tag closes nothing. -/
theorem Pairing.snoc (h : Pairing es pairs)
    (nothing : ∀ tag q, e = .stop tag q → voidElements.contains tag = false → ∀ k, ¬ OpenAt es pairs es.length k tag) :
    Pairing (es ++ [e]) pairs where
  element i j member := by
    obtain ⟨order, tag, p, q, counted, start, stop⟩ := h.element i j member
    exact ⟨order, tag, p, q, counted, getElem?_snoc.mpr (Or.inl start), getElem?_snoc.mpr (Or.inl stop)⟩
  once := h.once
  uncrossed := h.uncrossed
  innermost i j tag q member stop := by
    have ended := h.stop_lt member
    rw [List.getElem?_append_left ended] at stop
    obtain ⟨opened, last⟩ := h.innermost i j tag q member stop
    have within := Nat.le_of_lt ended
    exact ⟨(openAt_snoc_self within).mpr opened, fun k still => last k ((openAt_snoc_self within).mp still)⟩
  stray j tag q stop counted alone k := by
    rcases getElem?_snoc.mp stop with old | ⟨rfl, new⟩
    · rw [openAt_snoc_self (Nat.le_of_lt (lt_length_of_getElem? old))]
      exact h.stray j tag q old counted alone k
    · rw [openAt_snoc_self (Nat.le_refl _)]
      exact nothing tag q new counted k

/-- An end tag makes a pair with the last open start tag of its name. -/
theorem Pairing.close (h : Pairing es pairs) {i : Nat} {q : Position} (opened : OpenAt es pairs es.length i tag)
    (last : ∀ k, OpenAt es pairs es.length k tag → k ≤ i) :
    Pairing (es ++ [.stop tag q]) ((i, es.length) :: pairs) where
  element k l member := by
    rcases List.mem_cons.mp member with new | old
    · obtain ⟨rfl, rfl⟩ := Prod.mk.inj new
      obtain ⟨p, start⟩ := opened.start
      exact ⟨opened.before, tag, p, q, opened.counted, getElem?_snoc.mpr (Or.inl start),
        getElem?_snoc.mpr (Or.inr ⟨rfl, rfl⟩)⟩
    · obtain ⟨order, tag', p, q', counted, start, stop⟩ := h.element k l old
      exact ⟨order, tag', p, q', counted, getElem?_snoc.mpr (Or.inl start), getElem?_snoc.mpr (Or.inl stop)⟩
  once a b k l first second := by
    rcases List.mem_cons.mp first with new | old <;> rcases List.mem_cons.mp second with new' | old'
    · obtain ⟨rfl, rfl⟩ := Prod.mk.inj new
      obtain ⟨rfl, rfl⟩ := Prod.mk.inj new'
      exact iff_of_true rfl rfl
    · obtain ⟨rfl, rfl⟩ := Prod.mk.inj new
      have apart := (opened.unpaired h).2 k l old'
      have ended := h.stop_lt old'
      exact iff_of_false apart.1 (Nat.ne_of_gt ended)
    · obtain ⟨rfl, rfl⟩ := Prod.mk.inj new'
      have apart := (opened.unpaired h).2 a b old
      have ended := h.stop_lt old
      exact iff_of_false (Ne.symm apart.1) (Nat.ne_of_lt ended)
    · exact h.once a b k l old old'
  uncrossed a b k l first second := by
    intro within before
    rcases List.mem_cons.mp first with new | old <;> rcases List.mem_cons.mp second with new' | old'
    · obtain ⟨rfl, rfl⟩ := Prod.mk.inj new
      obtain ⟨rfl, rfl⟩ := Prod.mk.inj new'
      exact absurd within (Nat.lt_irrefl _)
    · obtain ⟨rfl, rfl⟩ := Prod.mk.inj new
      exact h.stop_lt old'
    · obtain ⟨rfl, rfl⟩ := Prod.mk.inj new'
      -- No pair holds a tag that is open.
      have ended := opened.free a b old (h.stop_lt old) (Nat.le_of_lt within)
      omega
    · exact h.uncrossed a b k l old old' within before
  innermost a b tag' q' member stop := by
    rcases List.mem_cons.mp member with new | old
    · obtain ⟨rfl, rfl⟩ := Prod.mk.inj new
      rw [List.getElem?_concat_length, Option.some.injEq] at stop
      cases stop
      exact ⟨(openAt_close (Nat.le_refl _)).mpr opened, fun k still => last k ((openAt_close (Nat.le_refl _)).mp still)⟩
    · have ended := h.stop_lt old
      rw [List.getElem?_append_left ended] at stop
      obtain ⟨open_, inner⟩ := h.innermost a b tag' q' old stop
      have within := Nat.le_of_lt ended
      exact ⟨(openAt_close within).mpr open_, fun k still => inner k ((openAt_close within).mp still)⟩
  stray j tag' q' stop counted alone k := by
    rcases getElem?_snoc.mp stop with old | ⟨rfl, -⟩
    · rw [openAt_close (Nat.le_of_lt (lt_length_of_getElem? old))]
      exact h.stray j tag' q' old counted (fun c member => alone c (List.mem_cons_of_mem _ member)) k
    · exact absurd List.mem_cons_self (alone i)

end

/-! ### Places of open tags, and of those told of -/

/-- Where the tags so far have come to. `opened` are the open tags with their places, the innermost first, and `told` are
the places of the tags that were told of, in the order in which that was done. -/
structure Account (es : List TagEvent) (b : Balance) (opened : List (Nat × String × Position)) (pairs : List (Nat × Nat))
    (told : List Nat) : Prop where
  shown : opened.map Prod.snd = b.opened
  starts : ∀ x ∈ opened, es[x.1]? = some (.start x.2.1 x.2.2)
  descending : opened.Pairwise fun x y => y.1 < x.1
  isOpen : ∀ k tag, (∃ p, (k, tag, p) ∈ opened) ↔ OpenAt es pairs es.length k tag
  pairing : Pairing es pairs
  nodup : told.Nodup
  mem_told : ∀ k, k ∈ told ↔ Unpaired es pairs k ∧ ∀ x ∈ opened, x.1 ≠ k
  complaints : b.found.map some = told.map fun k => es[k]?.bind TagEvent.complaint?

theorem account_nil : Account [] .empty [] [] [] where
  shown := rfl
  starts := by simp
  descending := .nil
  isOpen k tag := iff_of_false (by simp) fun h => by simpa using h.before
  pairing := ⟨by simp, by simp, by simp, by simp, by simp⟩
  nodup := .nil
  mem_told k := iff_of_false (by simp) fun h => by simpa using h.1.lt_length
  complaints := rfl

/-- The tags that an end tag is looked for among, with their places. -/
theorem splitAt?_places {tag : String} {opened : List (Nat × String × Position)} {inner outer : List (String × Position)}
    (h : Balance.splitAt? tag (opened.map Prod.snd) = some (inner, outer)) :
    ∃ within i p around, opened = within ++ (i, tag, p) :: around ∧ within.map Prod.snd = inner ∧
      around.map Prod.snd = outer ∧ ∀ x ∈ within, x.2.1 ≠ tag := by
  induction opened generalizing inner with
  | nil => cases h
  | cons x rest ih =>
    rw [List.map_cons, Balance.splitAt?] at h
    split at h
    next same =>
      obtain ⟨rfl, rfl⟩ := Prod.mk.inj (Option.some.inj h)
      obtain ⟨i, name, p⟩ := x
      obtain rfl := beq_iff_eq.mp same
      exact ⟨[], i, p, rest, rfl, rfl, rfl, by simp⟩
    next other =>
      obtain ⟨⟨inner', outer'⟩, split, equal⟩ := Option.map_eq_some_iff.mp h
      obtain ⟨rfl, rfl⟩ := Prod.mk.inj equal
      obtain ⟨within, i, p, around, rfl, rfl, rfl, others⟩ := ih split
      exact ⟨x :: within, i, p, around, rfl, rfl, rfl,
        List.forall_mem_cons.mpr ⟨fun same => other (beq_iff_eq.mpr same), others⟩⟩

theorem ne_of_splitAt?_eq_none {tag : String} {entries : List (String × Position)}
    (h : Balance.splitAt? tag entries = none) : ∀ entry ∈ entries, entry.1 ≠ tag := by
  induction entries with
  | nil => simp
  | cons entry rest ih =>
    rw [Balance.splitAt?] at h
    split at h
    · cases h
    next other =>
      exact List.forall_mem_cons.mpr ⟨fun same => other (beq_iff_eq.mpr same), ih (Option.map_eq_none_iff.mp h)⟩

namespace Account

variable {es : List TagEvent} {e : TagEvent} {b : Balance} {opened : List (Nat × String × Position)}
  {pairs : List (Nat × Nat)} {told : List Nat}

theorem opened_lt (h : Account es b opened pairs told) {x : Nat × String × Position} (member : x ∈ opened) :
    x.1 < es.length :=
  lt_length_of_getElem? (h.starts x member)

theorem openAt (h : Account es b opened pairs told) {x : Nat × String × Position} (member : x ∈ opened) :
    OpenAt es pairs es.length x.1 x.2.1 :=
  (h.isOpen x.1 x.2.1).mp ⟨x.2.2, member⟩

theorem told_lt (h : Account es b opened pairs told) {k : Nat} (member : k ∈ told) : k < es.length :=
  ((h.mem_told k).mp member).1.lt_length

theorem starts_snoc (h : Account es b opened pairs told) (e : TagEvent) :
    ∀ x ∈ opened, (es ++ [e])[x.1]? = some (.start x.2.1 x.2.2) :=
  fun x member => getElem?_snoc.mpr (Or.inl (h.starts x member))

/-- What was told of stands where it stood. -/
theorem complaints_snoc (h : Account es b opened pairs told) (e : TagEvent) :
    b.found.map some = told.map fun k => (es ++ [e])[k]?.bind TagEvent.complaint? := by
  rw [h.complaints]
  apply List.map_congr_left
  intro k member
  rw [List.getElem?_append_left (h.told_lt member)]

/-- A tag that does not take part. -/
theorem pass (h : Account es b opened pairs told) (apart : e.counts = false) :
    Account (es ++ [e]) b opened pairs told where
  shown := h.shown
  starts := h.starts_snoc e
  descending := h.descending
  isOpen k tag := by
    rw [h.isOpen, List.length_append, List.length_singleton, openAt_length_succ h.pairing, or_iff_left]
    rintro ⟨-, ⟨p, rfl⟩, counted⟩
    rw [TagEvent.counts, counted] at apart
    cases apart
  pairing := by
    refine h.pairing.snoc fun tag q stop counted => ?_
    rw [stop, TagEvent.counts, counted] at apart
    cases apart
  nodup := h.nodup
  mem_told k := by
    rw [h.mem_told, unpaired_snoc h.pairing, apart]
    simp
  complaints := h.complaints_snoc e

/-- A start tag is open from then on. -/
theorem start (h : Account es b opened pairs told) {tag : String} (counted : voidElements.contains tag = false)
    (p : Position) :
    Account (es ++ [.start tag p]) ⟨(tag, p) :: b.opened, b.found⟩ ((es.length, tag, p) :: opened) pairs told where
  shown := by rw [List.map_cons, h.shown]
  starts := List.forall_mem_cons.mpr ⟨List.getElem?_concat_length .., h.starts_snoc _⟩
  descending := List.pairwise_cons.mpr ⟨fun _ member => h.opened_lt member, h.descending⟩
  isOpen k name := by
    rw [List.length_append, List.length_singleton, openAt_length_succ h.pairing, ← h.isOpen]
    constructor
    · rintro ⟨q, member⟩
      rcases List.mem_cons.mp member with new | old
      · obtain ⟨rfl, same⟩ := Prod.mk.inj new
        obtain ⟨rfl, rfl⟩ := Prod.mk.inj same
        exact Or.inr ⟨rfl, ⟨q, rfl⟩, counted⟩
      · exact Or.inl ⟨q, old⟩
    · rintro (⟨q, old⟩ | ⟨rfl, ⟨q, new⟩, -⟩)
      · exact ⟨q, List.mem_cons_of_mem _ old⟩
      · cases new
        exact ⟨p, List.mem_cons_self⟩
  pairing := h.pairing.snoc fun tag q stop => by cases stop
  nodup := h.nodup
  mem_told k := by
    rw [h.mem_told, unpaired_snoc h.pairing]
    constructor
    -- What was told of stands before the new tag. The new one is in no pair, but it is open, so it is not told of yet.
    · rintro ⟨alone, closed⟩
      exact ⟨Or.inl alone, List.forall_mem_cons.mpr ⟨(Nat.ne_of_lt alone.lt_length).symm, closed⟩⟩
    · rintro ⟨alone, closed⟩
      obtain ⟨other, closed⟩ := List.forall_mem_cons.mp closed
      exact ⟨alone.resolve_right fun last => other last.1.symm, closed⟩
  complaints := h.complaints_snoc _

/-- An end tag without a start tag of its name is told of. -/
theorem stray (h : Account es b opened pairs told) {tag : String} (counted : voidElements.contains tag = false)
    (q : Position) (split : Balance.splitAt? tag b.opened = none) :
    Account (es ++ [.stop tag q]) ⟨b.opened, b.found ++ [.stray tag q]⟩ opened pairs (told ++ [es.length]) where
  shown := h.shown
  starts := h.starts_snoc _
  descending := h.descending
  isOpen k name := by
    rw [h.isOpen, List.length_append, List.length_singleton, openAt_length_succ h.pairing, or_iff_left]
    rintro ⟨-, ⟨p, new⟩, -⟩
    cases new
  pairing := by
    -- If a start tag of the name were open, it would be among those that were looked through.
    refine h.pairing.snoc fun name r stop _ k still => ?_
    cases stop
    obtain ⟨p, member⟩ := (h.isOpen k tag).mpr still
    have shown : (tag, p) ∈ b.opened := h.shown ▸ List.mem_map_of_mem member
    exact ne_of_splitAt?_eq_none split (tag, p) shown rfl
  nodup := by
    refine List.nodup_append'.mpr ⟨h.nodup, List.nodup_singleton _, fun k old new => ?_⟩
    exact Nat.ne_of_lt (h.told_lt old) (List.mem_singleton.mp new)
  mem_told k := by
    rw [List.mem_append, List.mem_singleton, h.mem_told, unpaired_snoc h.pairing]
    constructor
    · rintro (⟨alone, closed⟩ | rfl)
      · exact ⟨Or.inl alone, closed⟩
      · exact ⟨Or.inr ⟨rfl, by rw [TagEvent.counts, counted]; rfl⟩, fun x member => Nat.ne_of_lt (h.opened_lt member)⟩
    · rintro ⟨alone | ⟨last, -⟩, closed⟩
      · exact Or.inl ⟨alone, closed⟩
      · exact Or.inr last
  complaints := by
    rw [List.map_append, List.map_append, h.complaints_snoc (.stop tag q)]
    simp [TagEvent.complaint?]

/-! Some open tags, innermost first, are told of. -/

section

variable {within rest : List (Nat × String × Position)} (h : Account es b (within ++ rest) pairs told)

include h

theorem nodup_told_append : (told ++ within.map Prod.fst).Nodup := by
  have inner := (List.pairwise_append.mp h.descending).1
  refine List.nodup_append'.mpr ⟨h.nodup, ?_, fun k old new => ?_⟩
  · exact List.pairwise_map.mpr (inner.imp fun order => (Nat.ne_of_lt order).symm)
  · obtain ⟨x, member, same⟩ := List.mem_map.mp new
    exact ((h.mem_told k).mp old).2 x (List.mem_append_left rest member) same

theorem mem_told_append {k : Nat} :
    k ∈ told ++ within.map Prod.fst ↔ Unpaired es pairs k ∧ ∀ x ∈ rest, x.1 ≠ k := by
  rw [List.mem_append, h.mem_told]
  constructor
  · rintro (⟨alone, closed⟩ | new)
    · exact ⟨alone, fun x member => closed x (List.mem_append_right within member)⟩
    · obtain ⟨x, member, rfl⟩ := List.mem_map.mp new
      refine ⟨(h.openAt (List.mem_append_left rest member)).unpaired h.pairing, fun y outside => ?_⟩
      have order := (List.pairwise_append.mp h.descending).2.2 x member y outside
      omega
  · rintro ⟨alone, closed⟩
    by_cases inside : k ∈ within.map Prod.fst
    · exact Or.inr inside
    · refine Or.inl ⟨alone, List.forall_mem_append.mpr ⟨fun x member => ?_, closed⟩⟩
      rintro rfl
      exact inside (List.mem_map_of_mem member)

theorem complaints_append :
    (b.found ++ Balance.report (within.map Prod.snd)).map some =
      (told ++ within.map Prod.fst).map fun k => es[k]?.bind TagEvent.complaint? := by
  have reported : (Balance.report (within.map Prod.snd)).map some =
      (within.map Prod.fst).map fun k => es[k]?.bind TagEvent.complaint? := by
    rw [Balance.report, List.map_map, List.map_map, List.map_map]
    apply List.map_congr_left
    intro x member
    have start := h.starts x (List.mem_append_left rest member)
    simp only [Function.comp_apply, start, Option.bind_some, TagEvent.complaint?]
  rw [List.map_append, List.map_append, h.complaints, reported]

end

/-- An end tag closes the last open start tag of its name; those inside of that are told of. -/
theorem close {within around : List (Nat × String × Position)} {i : Nat} {tag : String} {p : Position}
    (h : Account es b (within ++ (i, tag, p) :: around) pairs told) (others : ∀ x ∈ within, x.2.1 ≠ tag) (q : Position) :
    Account (es ++ [.stop tag q]) ⟨around.map Prod.snd, b.found ++ Balance.report (within.map Prod.snd)⟩ around
      ((i, es.length) :: pairs) (told ++ within.map Prod.fst) := by
  obtain ⟨-, outer, apart⟩ := List.pairwise_append.mp h.descending
  obtain ⟨below, outer⟩ := List.pairwise_cons.mp outer
  have opened : OpenAt es pairs es.length i tag := h.openAt (x := (i, tag, p)) (by simp)
  have inOrder (x : Nat × String × Position) (member : x ∈ within ++ (i, tag, p) :: around) :
      (x ∈ within ∧ i < x.1) ∨ x = (i, tag, p) ∨ (x ∈ around ∧ x.1 < i) := by
    rcases List.mem_append.mp member with inside | member
    · exact Or.inl ⟨inside, apart x inside _ List.mem_cons_self⟩
    · rcases List.mem_cons.mp member with same | outside
      · exact Or.inr (Or.inl same)
      · exact Or.inr (Or.inr ⟨outside, below x outside⟩)
  -- Of the tags inside none has the name, so the one closed is the last that has it.
  have last (k : Nat) (still : OpenAt es pairs es.length k tag) : k ≤ i := by
    obtain ⟨r, member⟩ := (h.isOpen k tag).mpr still
    rcases inOrder _ member with ⟨inside, -⟩ | same | ⟨-, outside⟩
    · exact absurd rfl (others _ inside)
    · exact Nat.le_of_eq (Prod.mk.inj same).1
    · exact Nat.le_of_lt outside
  constructor
  case shown => rfl
  case starts => exact fun x member => h.starts_snoc _ x (by simp [member])
  case descending => exact outer
  case isOpen =>
    intro k name
    rw [List.length_append, List.length_singleton, openAt_close_succ h.pairing, ← h.isOpen]
    constructor
    · rintro ⟨r, member⟩
      exact ⟨⟨r, by simp [member]⟩, below _ member⟩
    · rintro ⟨⟨r, member⟩, outside⟩
      rcases inOrder _ member with ⟨-, inside⟩ | same | ⟨found, -⟩
      · exact absurd outside (Nat.lt_asymm inside)
      · exact absurd (Prod.mk.inj same).1 (Nat.ne_of_lt outside)
      · exact ⟨r, found⟩
  case pairing => exact h.pairing.close opened last
  case nodup => exact h.nodup_told_append
  case mem_told =>
    intro k
    rw [h.mem_told_append, unpaired_close h.pairing, List.forall_mem_cons, and_assoc, ne_comm]
  case complaints =>
    rw [h.complaints_append]
    apply List.map_congr_left
    intro k member
    rw [List.getElem?_append_left ((h.mem_told_append.mp member).1.lt_length)]

/-- One tag more. -/
theorem step (h : Account es b opened pairs told) (e : TagEvent) :
    ∃ opened' pairs' told', Account (es ++ [e]) (b.step e) opened' pairs' told' := by
  cases taken : e.counts with
  | false =>
    rw [Balance.step_of_not_counts taken]
    exact ⟨opened, pairs, told, h.pass taken⟩
  | true =>
    cases e with
    | selfClosing tag p => cases taken
    | start tag p =>
      have counted : voidElements.contains tag = false := by simpa [TagEvent.counts] using taken
      rw [Balance.step_start counted]
      exact ⟨_, _, _, h.start counted p⟩
    | stop tag q =>
      have counted : voidElements.contains tag = false := by simpa [TagEvent.counts] using taken
      cases split : Balance.splitAt? tag b.opened with
      | none =>
        rw [Balance.step_stop_stray counted q split]
        exact ⟨_, _, _, h.stray counted q split⟩
      | some parts =>
        obtain ⟨inner, outer⟩ := parts
        rw [Balance.step_stop_closed counted q split]
        rw [← h.shown] at split
        obtain ⟨within, i, p, around, rfl, rfl, rfl, others⟩ := splitAt?_places split
        exact ⟨_, _, _, h.close others q⟩

/-- The account of all tags. -/
theorem foldl (events : List TagEvent) :
    ∃ opened pairs told, Account events (events.foldl Balance.step .empty) opened pairs told := by
  -- The account grows by the tag at the end, so the induction takes that off, not the one at the front.
  induction events using List.reverseRecOn with
  | nil => exact ⟨[], [], [], account_nil⟩
  | append_singleton es e ih =>
    obtain ⟨opened, pairs, told, h⟩ := ih
    rw [List.foldl_append]
    exact h.step e

end Account

/-- **Tags pair up, or are told of.** Nothing is told of if and only if the tags that take part are well nested. In general
some of them make pairs of a start tag and the end tag that closes it, which never cross, and what is told of is just
each other tag that takes part, once, for what it is and where it stands. -/
theorem unpaired_tags_told (events : List TagEvent) :
    (imbalances events = [] ↔ WellNested (events.filter TagEvent.counts)) ∧
    ∃ (pairs : List (Nat × Nat)) (told : List Nat), Pairing events pairs ∧ told.Nodup ∧ (∀ k, k ∈ told ↔ Unpaired events pairs k) ∧
      (imbalances events).map some = told.map fun k => events[k]?.bind TagEvent.complaint? := by
  refine ⟨imbalances_eq_nil_iff events, ?_⟩
  obtain ⟨opened, pairs, told, h⟩ := Account.foldl events
  -- At the end, whatever is still open is told of as well.
  rw [← List.append_nil opened] at h
  refine ⟨pairs, told ++ opened.map Prod.fst, h.pairing, h.nodup_told_append, fun k => ?_, ?_⟩
  · rw [h.mem_told_append, and_iff_left (by simp)]
  · have shown := h.shown
    rw [List.append_nil] at shown
    rw [imbalances, Balance.finish, ← shown, h.complaints_append]

end Remedy.Check
