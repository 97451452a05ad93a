import Mathlib
import Remedy.Edit.Splice
import Remedy.Proofs.Edit.StableOrder
import Remedy.Proofs.Text.Encoding

/-!
Splicing is substitution: making the last replacement first, and then the others backwards, comes to the same as going
through the bytes once and putting each content in place of its stretch.

The replacements of one splice must not overlap, and none may cut a character in two. What is inserted at one place then
stands in the order given, and before the content that replaces a stretch beginning there.
-/

namespace Remedy

open Text (Bytes encode sliceBytes IsBoundary)

/-- The contents of replacements, one after the other. -/
def contents (rs : List Replacement) : Bytes := rs.flatMap fun r => encode r.content.toList

theorem contents_cons (r : Replacement) (rs : List Replacement) :
    contents (r :: rs) = encode r.content.toList ++ contents rs := rfl

/-- Goes on through the bytes from `place`, with each content in place of its stretch. -/
def substitute (bytes : Bytes) (place : Nat) : List Replacement → Bytes
  | [] => bytes.drop place
  | r :: rest => sliceBytes bytes place r.start ++ encode r.content.toList ++ substitute bytes r.stop rest

/-- What is inserted at a place. -/
def insertionsAt (place : Nat) (rs : List Replacement) : List Replacement :=
  rs.filter fun r => r.start == place && r.stop == place

theorem mem_insertionsAt {place : Nat} {rs : List Replacement} {r : Replacement} :
    r ∈ insertionsAt place rs ↔ r ∈ rs ∧ r.start = place ∧ r.stop = place := by
  simp [insertionsAt]

/-- What replaces a stretch of at least one byte that begins at a place. -/
def replacementsFrom (place : Nat) (rs : List Replacement) : List Replacement :=
  rs.filter fun r => r.start == place && place < r.stop

/-- Replacements by where they begin and then by where they end; those that are alike in both as they were given. -/
structure Ordered (given sorted : List Replacement) : Prop where
  perm : sorted.Perm given
  ascending : sorted.Pairwise fun a b => a.start < b.start ∨ a.start = b.start ∧ a.stop ≤ b.stop
  stable : ∀ start stop, (sorted.filter fun r => r.start == start && r.stop == stop) =
    given.filter fun r => r.start == start && r.stop == stop

/-- Replacements of stretches that follow one another. -/
structure Consecutive (rs : List Replacement) : Prop where
  forward : ∀ r ∈ rs, r.start ≤ r.stop
  follows : rs.Pairwise fun a b => a.stop ≤ b.start

namespace Replacement

theorem overlaps_comm (a b : Replacement) : a.overlaps b = b.overlaps a := by
  simp only [overlaps, Bool.and_comm]

theorem notAfter_iff {a b : Replacement} :
    a.notAfter b = true ↔ a.start < b.start ∨ a.start = b.start ∧ a.stop ≤ b.stop := by
  simp [notAfter]

theorem notAfter_trans (a b c : Replacement) (ab : a.notAfter b) (bc : b.notAfter c) : a.notAfter c := by
  rw [notAfter_iff] at *
  omega

theorem notAfter_total (a b : Replacement) : a.notAfter b || b.notAfter a := by
  rw [Bool.or_eq_true, notAfter_iff, notAfter_iff]
  omega

theorem tied_notAfter (a : Replacement) :
    StableOrder.tied notAfter a = fun b => b.start == a.start && b.stop == a.stop := by
  funext b
  apply Bool.eq_iff_iff.mpr
  simp only [StableOrder.tied, Bool.and_eq_true, notAfter_iff, beq_iff_eq]
  omega

theorem stop_le_start {a b : Replacement} (forward : b.start ≤ b.stop)
    (before : a.start < b.start ∨ a.start = b.start ∧ a.stop ≤ b.stop) (apart : a.overlaps b = false) :
    a.stop ≤ b.start := by
  simp only [overlaps, Bool.and_eq_false_iff, decide_eq_false_iff_not] at apart
  omega

end Replacement

/-! ### The order of replacements -/

theorem ordered_mergeSort (rs : List Replacement) : Ordered rs (rs.mergeSort Replacement.notAfter) where
  perm := List.mergeSort_perm rs _
  ascending := (List.pairwise_mergeSort Replacement.notAfter_trans Replacement.notAfter_total rs).imp
    Replacement.notAfter_iff.mp
  stable start stop := by
    apply StableOrder.filter_mergeSort Replacement.notAfter_trans Replacement.notAfter_total
    intro a b ha hb
    simp only [Bool.and_eq_true, beq_iff_eq] at ha hb
    exact Replacement.notAfter_iff.mpr (by omega)

namespace Ordered

variable {given sorted : List Replacement}

/-- There is one way only to put replacements in order. -/
theorem eq_mergeSort (h : Ordered given sorted) : sorted = given.mergeSort Replacement.notAfter := by
  apply StableOrder.eq_of_same_ties Replacement.notAfter_total (h.ascending.imp Replacement.notAfter_iff.mpr)
    ((ordered_mergeSort given).ascending.imp Replacement.notAfter_iff.mpr)
  intro a
  rw [Replacement.tied_notAfter, h.stable, (ordered_mergeSort given).stable]

theorem consecutive (h : Ordered given sorted) (forward : ∀ r ∈ given, r.start ≤ r.stop)
    (apart : given.Pairwise fun a b => a.overlaps b = false) : Consecutive sorted where
  forward r hr := forward r (h.perm.mem_iff.mp hr)
  follows := by
    have symmetric : ∀ {a b : Replacement}, a.overlaps b = false → b.overlaps a = false := by
      intro a b hab
      rwa [Replacement.overlaps_comm]
    have sortedApart := (h.perm.pairwise_iff symmetric).mpr apart
    apply List.Pairwise.imp_of_mem _ (h.ascending.and sortedApart)
    intro a b ha hb both
    exact Replacement.stop_le_start (forward b (h.perm.mem_iff.mp hb)) both.1 both.2

/-- At one place insertions come first, and at most one stretch that begins there is replaced. -/
theorem filter_start (h : Ordered given sorted) (row : Consecutive sorted) (place : Nat) :
    (sorted.filter fun r => r.start == place) = insertionsAt place given ++ replacementsFrom place given ∧
      (replacementsFrom place given).length ≤ 1 := by
  have few : (replacementsFrom place sorted).length ≤ 1 := by
    match hr : replacementsFrom place sorted with
    | [] => simp
    | [_] => simp
    | a :: b :: rest =>
      -- Two of them would follow one another, and yet begin at one place.
      have follows : (replacementsFrom place sorted).Pairwise fun a b => a.stop ≤ b.start := row.follows.filter _
      have members : ∀ r ∈ replacementsFrom place sorted, r.start = place ∧ place < r.stop := by
        simp [replacementsFrom]
      rw [hr] at follows members
      have ab := List.rel_of_pairwise_cons follows (List.mem_cons_self (a := b) (l := rest))
      have ha := members a (by simp)
      have hb := members b (by simp)
      omega
  have perm : (replacementsFrom place sorted).Perm (replacementsFrom place given) := h.perm.filter _
  have same : replacementsFrom place sorted = replacementsFrom place given := by
    match hr : replacementsFrom place sorted with
    | [] => rw [hr] at perm; exact perm.nil_eq
    | [r] => rw [hr] at perm; exact List.singleton_perm.mp perm
    | _ :: _ :: _ => simp [hr] at few
  have byStop : (sorted.filter fun r => r.start == place).Pairwise
      fun a b => (b.stop == place) = true → (a.stop == place) = true := by
    apply List.Pairwise.imp_of_mem _ (h.ascending.filter _)
    intro a b ha hb ordered
    simp only [List.mem_filter, beq_iff_eq] at ha hb ⊢
    have forward := row.forward a ha.1
    omega
  refine ⟨?_, same ▸ few⟩
  rw [StableOrder.eq_filter_append_filter byStop, List.filter_filter, List.filter_filter, ← same]
  congr 1
  · rw [insertionsAt, ← h.stable]
    apply List.filter_congr
    intro r _
    rw [Bool.and_comm]
  · apply List.filter_congr
    intro r hr
    apply Bool.eq_iff_iff.mpr
    simp only [Bool.and_eq_true, Bool.not_eq_true', beq_eq_false_iff_ne, beq_iff_eq, decide_eq_true_eq]
    have forward := row.forward r hr
    omega

end Ordered

/-! ### Going through the bytes -/

namespace Consecutive

variable {r : Replacement} {rs : List Replacement}

theorem tail (h : Consecutive (r :: rs)) : Consecutive rs where
  forward s hs := h.forward s (List.mem_cons_of_mem r hs)
  follows := h.follows.of_cons

theorem head_forward (h : Consecutive (r :: rs)) : r.start ≤ r.stop := h.forward r List.mem_cons_self

theorem stop_le_of_mem (h : Consecutive (r :: rs)) : ∀ s ∈ rs, r.stop ≤ s.start :=
  fun _ hs => List.rel_of_pairwise_cons h.follows hs

/-- Making the replacements backwards, the last one first, leaves the bytes before them and substitutes behind. -/
theorem foldr_applyTo (h : Consecutive rs) {bytes : Bytes} {place : Nat} (behind : ∀ r ∈ rs, place ≤ r.start)
    (inside : ∀ r ∈ rs, r.stop ≤ bytes.length) :
    rs.foldr Replacement.applyTo bytes = bytes.take place ++ substitute bytes place rs := by
  induction rs generalizing place with
  | nil => simp [substitute]
  | cons r rest ih =>
    have start_le := behind r List.mem_cons_self
    have stop_le := inside r List.mem_cons_self
    have forward := h.head_forward
    -- All others lie behind this one, so up to its end the bytes are still as they were.
    have ih := ih h.tail h.stop_le_of_mem fun s hs => inside s (List.mem_cons_of_mem r hs)
    have cut : (bytes.take r.stop).length = r.stop := by simpa using stop_le
    have untouched : bytes.take r.start = bytes.take place ++ sliceBytes bytes place r.start := by
      have h := (List.take_append_drop place (bytes.take r.start)).symm
      rwa [List.take_take, Nat.min_eq_left start_le] at h
    calc (r :: rest).foldr Replacement.applyTo bytes
      _ = r.applyTo (bytes.take r.stop ++ substitute bytes r.stop rest) := by rw [List.foldr_cons, ih]
      _ = bytes.take r.start ++ encode r.content.toList ++ substitute bytes r.stop rest := by
        rw [Replacement.applyTo, List.take_append_of_le_length (by omega), List.take_take, Nat.min_eq_left forward,
          List.drop_append_of_le_length (by omega), List.drop_of_length_le (by omega), List.nil_append]
      _ = bytes.take place ++ substitute bytes place (r :: rest) := by
        rw [untouched, substitute, List.append_assoc, List.append_assoc, List.append_assoc]

end Consecutive

/-- Substitution up to a place and from there on. -/
theorem substitute_append {bytes : Bytes} {from_ place : Nat} {front back : List Replacement}
    (frontRow : Consecutive front) (before : ∀ r ∈ front, r.stop ≤ place) (behind : ∀ r ∈ back, place ≤ r.start)
    (from_le : from_ ≤ place) :
    substitute bytes from_ (front ++ back) = substitute (bytes.take place) from_ front ++ substitute bytes place back := by
  induction front generalizing from_ with
  | nil =>
    cases back with
    | nil => exact (Text.sliceBytes_append_drop bytes from_le).symm
    | cons b back =>
      have b_le := behind b List.mem_cons_self
      simp only [List.nil_append, substitute]
      -- The stretch up to the first replacement behind is cut in two at the place.
      rw [← Text.sliceBytes_append bytes from_le b_le, sliceBytes]
      simp only [List.append_assoc]
  | cons r front ih =>
    have stop_le := before r List.mem_cons_self
    have forward := frontRow.head_forward
    have same : sliceBytes (bytes.take place) from_ r.start = sliceBytes bytes from_ r.start := by
      rw [sliceBytes, List.take_take, Nat.min_eq_left (by omega), sliceBytes]
    rw [List.cons_append, substitute, substitute, same,
      ih frontRow.tail (fun s hs => before s (List.mem_cons_of_mem r hs)) stop_le]
    simp only [List.append_assoc]

/-- Where the bytes go on behind what stands at a place. -/
def resumeAfter (place : Nat) (rs : List Replacement) : Nat := ((replacementsFrom place rs).head?.map (·.stop)).getD place

/-- Insertions at one place, gone through from there. -/
theorem substitute_insertions (bytes : Bytes) (place : Nat) (rs back : List Replacement) :
    substitute bytes place (insertionsAt place rs ++ back) =
      contents (insertionsAt place rs) ++ substitute bytes place back := by
  have members : ∀ r ∈ insertionsAt place rs, r.start = place ∧ r.stop = place := fun _ hr => (mem_insertionsAt.mp hr).2
  generalize insertionsAt place rs = front at members ⊢
  induction front with
  | nil => simp [contents]
  | cons r front ih =>
    obtain ⟨start_eq, stop_eq⟩ := members r List.mem_cons_self
    have nothing : sliceBytes bytes place place = [] := by simp [sliceBytes]
    rw [List.cons_append, substitute, start_eq, stop_eq, nothing, ih fun s hs => members s (List.mem_cons_of_mem r hs)]
    simp [contents]

/-- A stretch replaced from a place on, if there is one, gone through from there. -/
theorem substitute_replacement (bytes : Bytes) {place : Nat} {rs : List Replacement}
    (single : (replacementsFrom place rs).length ≤ 1) (back : List Replacement) :
    substitute bytes place (replacementsFrom place rs ++ back) =
      contents (replacementsFrom place rs) ++ substitute bytes (resumeAfter place rs) back := by
  match hr : replacementsFrom place rs with
  | [] => simp [resumeAfter, hr, contents]
  | [r] =>
    have start_eq : r.start = place := by
      have member : r ∈ replacementsFrom place rs := by simp [hr]
      simp only [replacementsFrom, List.mem_filter, Bool.and_eq_true, beq_iff_eq] at member
      exact member.2.1
    have nothing : sliceBytes bytes place place = [] := by simp [sliceBytes]
    simp [resumeAfter, hr, contents, substitute, start_eq, nothing]
  | _ :: _ :: _ => simp [hr] at single

/-- What stands at a place after substitution: everything inserted there, in the order given, and then the content that
replaces a stretch from there on. -/
theorem Ordered.substitute_at {given sorted : List Replacement} (h : Ordered given sorted) (row : Consecutive sorted)
    (bytes : Bytes) {r : Replacement} (hr : r ∈ given) :
    ∃ earlier later, sorted = earlier ++ (insertionsAt r.start given ++ (replacementsFrom r.start given ++ later)) ∧
      (∀ s ∈ earlier, s.start < r.start) ∧ (∀ s ∈ later, r.start < s.start) ∧
      substitute bytes 0 sorted = substitute (bytes.take r.start) 0 earlier ++ (contents (insertionsAt r.start given) ++
        (contents (replacementsFrom r.start given) ++ substitute bytes (resumeAfter r.start given) later)) := by
  obtain ⟨atPlace, single⟩ := h.filter_start row r.start
  -- The row is cut twice: before the place, and behind what begins there.
  let earlier := sorted.filter fun s => decide (s.start < r.start)
  let rest := sorted.filter fun s => !decide (s.start < r.start)
  let later := rest.filter fun s => !(s.start == r.start)
  have split : sorted = earlier ++ rest := by
    apply StableOrder.eq_filter_append_filter
    apply h.ascending.imp
    intro a b ordered
    simp only [decide_eq_true_eq]
    omega
  have splitRest : rest = rest.filter (fun s => s.start == r.start) ++ later := by
    apply StableOrder.eq_filter_append_filter
    apply List.Pairwise.imp_of_mem _ (h.ascending.filter _)
    intro a b ha _ ordered
    simp only [List.mem_filter, Bool.not_eq_true', decide_eq_false_iff_not] at ha
    simp only [beq_iff_eq]
    omega
  have here : rest.filter (fun s => s.start == r.start) = sorted.filter fun s => s.start == r.start := by
    rw [List.filter_filter]
    apply List.filter_congr
    intro s _
    apply Bool.eq_iff_iff.mpr
    simp only [Bool.and_eq_true, beq_iff_eq, Bool.not_eq_true', decide_eq_false_iff_not]
    omega
  rw [here, atPlace, List.append_assoc] at splitRest
  have isEarlier : ∀ s ∈ earlier, s.start < r.start := by simp [earlier]
  have isRest : ∀ s ∈ rest, r.start ≤ s.start := by simp [rest]
  have isLater : ∀ s ∈ later, r.start < s.start := by
    intro s hs
    have hs := List.mem_filter.mp hs
    have := isRest s hs.1
    simp only [Bool.not_eq_true', beq_eq_false_iff_ne] at hs
    omega
  have frontRow : Consecutive earlier := ⟨fun s hs => row.forward s (List.mem_filter.mp hs).1, row.follows.filter _⟩
  have ends : ∀ s ∈ earlier, s.stop ≤ r.start := by
    have follows := row.follows
    rw [split, List.pairwise_append] at follows
    have member : r ∈ rest := List.mem_filter.mpr ⟨h.perm.mem_iff.mpr hr, by simp⟩
    exact fun s hs => follows.2.2 s hs r member
  refine ⟨earlier, later, by rw [← splitRest]; exact split, isEarlier, isLater, ?_⟩
  calc substitute bytes 0 sorted
    _ = substitute (bytes.take r.start) 0 earlier ++ substitute bytes r.start rest := by
      rw [split, substitute_append frontRow ends isRest (Nat.zero_le _)]
    _ = _ := by rw [splitRest, substitute_insertions, substitute_replacement bytes single]

/-- Replacements in order, cut at a place: those that begin before it, what is inserted there, and what goes on from there. -/
theorem Ordered.split {given sorted : List Replacement} (h : Ordered given sorted) (forward : ∀ r ∈ given, r.start ≤ r.stop)
    (place : Nat) :
    sorted = (sorted.filter fun r => decide (r.start < place)) ++
      (insertionsAt place given ++ sorted.filter fun r => decide (place ≤ r.start) && decide (place < r.stop)) := by
  let rest := sorted.filter fun r => !decide (r.start < place)
  have forward (r : Replacement) (hr : r ∈ sorted) : r.start ≤ r.stop := forward r (h.perm.mem_iff.mp hr)
  have cut : sorted = (sorted.filter fun r => decide (r.start < place)) ++ rest := by
    apply StableOrder.eq_filter_append_filter
    apply h.ascending.imp
    intro a b ordered
    simp only [decide_eq_true_eq]
    omega
  have cutRest : rest = rest.filter (fun r => r.stop == place) ++ rest.filter fun r => !(r.stop == place) := by
    apply StableOrder.eq_filter_append_filter
    apply List.Pairwise.imp_of_mem _ (h.ascending.filter _)
    intro a b ha hb ordered
    simp only [List.mem_filter, Bool.not_eq_true', decide_eq_false_iff_not, beq_iff_eq] at ha hb ⊢
    have := forward a ha.1
    have := forward b hb.1
    omega
  have here : rest.filter (fun r => r.stop == place) = insertionsAt place given := by
    rw [insertionsAt, ← h.stable, List.filter_filter]
    apply List.filter_congr
    intro r hr
    apply Bool.eq_iff_iff.mpr
    simp only [Bool.and_eq_true, beq_iff_eq, Bool.not_eq_true', decide_eq_false_iff_not]
    have := forward r hr
    omega
  have onward : rest.filter (fun r => !(r.stop == place)) =
      sorted.filter fun r => decide (place ≤ r.start) && decide (place < r.stop) := by
    rw [List.filter_filter]
    apply List.filter_congr
    intro r hr
    apply Bool.eq_iff_iff.mpr
    simp only [Bool.and_eq_true, Bool.not_eq_true', beq_eq_false_iff_ne, decide_eq_false_iff_not, decide_eq_true_eq]
    have := forward r hr
    omega
  rw [here, onward] at cutRest
  rw [← cutRest]
  exact cut

/-- Substitution before a place, at it, and behind it, where nothing that begins before the place goes on behind it. -/
theorem substitute_split {rs : List Replacement} (forward : ∀ r ∈ rs, r.start ≤ r.stop)
    (apart : rs.Pairwise fun a b => a.overlaps b = false) (bytes : Bytes) (place : Nat)
    (ends : ∀ r ∈ rs, r.start < place → r.stop ≤ place) :
    substitute bytes 0 (rs.mergeSort Replacement.notAfter) =
      substitute (bytes.take place) 0 ((rs.filter fun r => decide (r.start < place)).mergeSort Replacement.notAfter) ++
        (contents (insertionsAt place rs) ++ substitute bytes place
          ((rs.filter fun r => decide (place ≤ r.start) && decide (place < r.stop)).mergeSort Replacement.notAfter)) := by
  have ordered := ordered_mergeSort rs
  have row := ordered.consecutive forward apart
  have sorting (p : Replacement → Bool) :=
    StableOrder.filter_mergeSort_comm Replacement.notAfter_trans Replacement.notAfter_total p rs
  have split := ordered.split forward place
  rw [sorting, sorting] at split
  have before (r : Replacement) (hr : r ∈ (rs.filter fun r => decide (r.start < place)).mergeSort Replacement.notAfter) :
      r ∈ rs ∧ r.start < place := by
    simpa using hr
  have front : Consecutive ((rs.filter fun r => decide (r.start < place)).mergeSort Replacement.notAfter) := by
    rw [← sorting]
    exact ⟨fun r hr => row.forward r (List.mem_filter.mp hr).1, row.follows.filter _⟩
  have behind : ∀ r ∈ insertionsAt place rs ++ (rs.filter fun r => decide (place ≤ r.start) && decide (place < r.stop)).mergeSort
      Replacement.notAfter, place ≤ r.start := by
    intro r hr
    rcases List.mem_append.mp hr with insertion | onward
    · exact Nat.le_of_eq (mem_insertionsAt.mp insertion).2.1.symm
    · simp only [List.mem_mergeSort, List.mem_filter, Bool.and_eq_true, decide_eq_true_eq] at onward
      exact onward.2.1
  rw [split, substitute_append front (fun r hr => ends r (before r hr).1 (before r hr).2) behind (Nat.zero_le _),
    substitute_insertions]

/-! ### Whole characters -/

/-- Substitution in a text that cuts no character leaves a text. -/
theorem Consecutive.substitute_eq_encode {cs : List Char} {rs : List Replacement} (h : Consecutive rs)
    (whole : ∀ r ∈ rs, IsBoundary cs r.start ∧ IsBoundary cs r.stop) {place : Nat} (from_ : IsBoundary cs place)
    (behind : ∀ r ∈ rs, place ≤ r.start) : ∃ text, substitute (encode cs) place rs = encode text := by
  induction rs generalizing place with
  | nil => exact from_.drop_eq_encode
  | cons r rest ih =>
    have ends := whole r List.mem_cons_self
    obtain ⟨middle, before⟩ := from_.slice_eq_encode ends.1 (behind r List.mem_cons_self)
    obtain ⟨tail, after⟩ := ih h.tail (fun s hs => whole s (List.mem_cons_of_mem r hs)) ends.2 h.stop_le_of_mem
    exact ⟨middle ++ r.content.toList ++ tail, by rw [substitute, before, after, Text.encode_append, Text.encode_append]⟩

/-- Splicing comes to substitution, whatever the bytes, if no two stretches overlap and none reaches past the end. -/
theorem spliceBytes_eq_substitute {bytes : Bytes} {rs : List Replacement} (forward : ∀ r ∈ rs, r.start ≤ r.stop)
    (inside : ∀ r ∈ rs, r.stop ≤ bytes.length) (apart : rs.Pairwise fun a b => a.overlaps b = false) :
    spliceBytes bytes rs = substitute bytes 0 (rs.mergeSort Replacement.notAfter) := by
  have row := (ordered_mergeSort rs).consecutive forward apart
  rw [spliceBytes, row.foldr_applyTo (fun _ _ => Nat.zero_le _) fun r hr => inside r (List.mem_mergeSort.mp hr)]
  rfl

/-- Replacements of whole characters that do not overlap come to a text. -/
theorem exists_splice? (text : String) (rs : List Replacement) (forward : ∀ r ∈ rs, r.start ≤ r.stop)
    (whole : ∀ r ∈ rs, IsBoundary text.toList r.start ∧ IsBoundary text.toList r.stop)
    (apart : rs.Pairwise fun a b => a.overlaps b = false) :
    ∃ spliced, splice? (encode text.toList) rs = some spliced ∧
      encode spliced.toList = substitute (encode text.toList) 0 (rs.mergeSort Replacement.notAfter) := by
  have row := (ordered_mergeSort rs).consecutive forward apart
  obtain ⟨cs, result⟩ := row.substitute_eq_encode (fun r hr => whole r (List.mem_mergeSort.mp hr))
    (IsBoundary.start text.toList) fun _ _ => Nat.zero_le _
  have spliced := spliceBytes_eq_substitute forward (fun r hr => (whole r hr).2.le_length) apart
  refine ⟨String.ofList cs, ?_, by rw [String.toList_ofList, result]⟩
  rw [splice?, spliced, result, Text.decode?_encode, Option.map_some]

/-- **Splicing is substitution.** Replacements of whole characters that do not overlap are all made: the result is a text,
and its bytes are those between the stretches with each content once in place of its stretch, in the one order in which
the stretches stand. Where any of them begins, the insertions at that place come in the order given, and before the
content that replaces a stretch from there on, of which there is one at most. -/
theorem splice_substitutes (text : String) (rs : List Replacement) (forward : ∀ r ∈ rs, r.start ≤ r.stop)
    (whole : ∀ r ∈ rs, IsBoundary text.toList r.start ∧ IsBoundary text.toList r.stop)
    (apart : rs.Pairwise fun a b => a.overlaps b = false) :
    ∃ sorted spliced, Ordered rs sorted ∧ (∀ other, Ordered rs other → other = sorted) ∧
      splice? (encode text.toList) rs = some spliced ∧
      encode spliced.toList = substitute (encode text.toList) 0 sorted ∧
      ∀ r ∈ rs, (replacementsFrom r.start rs).length ≤ 1 ∧
        ∃ earlier later, sorted = earlier ++ (insertionsAt r.start rs ++ (replacementsFrom r.start rs ++ later)) ∧
          (∀ s ∈ earlier, s.start < r.start) ∧ (∀ s ∈ later, r.start < s.start) ∧
          encode spliced.toList = substitute ((encode text.toList).take r.start) 0 earlier ++
            (contents (insertionsAt r.start rs) ++ (contents (replacementsFrom r.start rs) ++
              substitute (encode text.toList) (resumeAfter r.start rs) later)) := by
  have ordered := ordered_mergeSort rs
  have row := ordered.consecutive forward apart
  obtain ⟨spliced, result, substituted⟩ := exists_splice? text rs forward whole apart
  refine ⟨rs.mergeSort Replacement.notAfter, spliced, ordered, fun _ h => h.eq_mergeSort, result, substituted, ?_⟩
  intro r hr
  obtain ⟨earlier, later, split, isEarlier, isLater, bytes⟩ := ordered.substitute_at row (encode text.toList) hr
  refine ⟨(ordered.filter_start row r.start).2, earlier, later, split, isEarlier, isLater, ?_⟩
  rw [substituted, bytes]

/-- A character is replaced, and around it three contents are inserted, two of them at its beginning. -/
theorem splice_substitutes_around_character :
    let rs : List Replacement := [⟨1, 3, "x"⟩, ⟨1, 1, "p"⟩, ⟨3, 3, "z"⟩, ⟨1, 1, "q"⟩]
    (∀ r ∈ rs, r.start ≤ r.stop) ∧ (∀ r ∈ rs, IsBoundary "aéb".toList r.start ∧ IsBoundary "aéb".toList r.stop) ∧
      (rs.Pairwise fun a b => a.overlaps b = false) ∧ splice? (encode "aéb".toList) rs = some "apqxzb" ∧
      ∃ sorted spliced, Ordered rs sorted ∧ splice? (encode "aéb".toList) rs = some spliced ∧
        encode spliced.toList = substitute (encode "aéb".toList) 0 sorted := by
  intro rs
  have forward : ∀ r ∈ rs, r.start ≤ r.stop := by decide
  have apart : rs.Pairwise fun a b => a.overlaps b = false := by decide
  have first : IsBoundary "aéb".toList 1 := ⟨['a'], ['é', 'b'], rfl, rfl⟩
  have last : IsBoundary "aéb".toList 3 := ⟨['a', 'é'], ['b'], rfl, rfl⟩
  have whole : ∀ r ∈ rs, IsBoundary "aéb".toList r.start ∧ IsBoundary "aéb".toList r.stop := by
    intro r hr
    simp only [rs, List.mem_cons, List.not_mem_nil, or_false] at hr
    rcases hr with rfl | rfl | rfl | rfl
    exacts [⟨first, last⟩, ⟨first, first⟩, ⟨last, last⟩, ⟨first, first⟩]
  obtain ⟨sorted, spliced, ordered, _, result, bytes, _⟩ := splice_substitutes "aéb" rs forward whole apart
  exact ⟨forward, whole, apart, by cbv, sorted, spliced, ordered, result, bytes⟩

end Remedy
