import Mathlib.Data.List.Basic
import Remedy.Proofs.Node.Walk

/-!
What comes first in a tree, and a walk with a stack that reports nodes in this order.

A place of a tree is told by its address: which child to go to, again and again, from the root on. It is the address that counts
and not the node, since nodes that look alike may stand in several places. A place comes before all that is below it and before all
that is to the right of it.
-/

namespace Remedy.Node

/-! ### Addresses -/

/-- Which child to go to, from the root on. -/
abbrev Address := List Nat

/-- What stands at an address, if the tree has it. -/
def at? (n : Node) : Address → Option Node
  | [] => some n
  | i :: rest =>
    match n.children[i]? with
    | some c => c.at? rest
    | none => none

/-- An address of what is below another one. -/
def IsAbove (p q : Address) : Prop := ∃ i rest, q = p ++ i :: rest

/-- The paths to two addresses part, and the one to the first of them goes to an earlier child. -/
def IsLeftOf (p q : Address) : Prop := ∃ front i j p' q', i < j ∧ p = front ++ i :: p' ∧ q = front ++ j :: q'

/-- Document order. -/
def Precedes (p q : Address) : Prop := IsAbove p q ∨ IsLeftOf p q

/-- It is the order of the addresses as words. -/
theorem Precedes.lt {p q : Address} (h : Precedes p q) : p < q := by
  rcases h with ⟨i, rest, rfl⟩ | ⟨front, i, j, p', q', before, rfl, rfl⟩
  · have longer : p ++ [] < p ++ i :: rest := List.append_left_lt (List.nil_lt_cons i rest)
    rwa [List.append_nil] at longer
  · exact List.append_left_lt (List.cons_lt_cons_iff.mpr (.inl before))

theorem Precedes.asymm {p q : Address} (h : Precedes p q) : ¬ Precedes q p := by
  intro back
  exact List.lt_asymm h.lt back.lt

mutual

/-- The addresses of a tree, those of parents before those of their children and earlier siblings first. -/
def addresses : Node → List Address
  | mk _ _ _ _ _ _ _ cs => [] :: addressesFrom 0 cs

/-- The addresses in trees that are children of one node, the first of which is its child number `i`. -/
def addressesFrom (i : Nat) : List Node → List Address
  | [] => []
  | c :: rest => c.addresses.map (i :: ·) ++ addressesFrom (i + 1) rest

end

theorem mem_addressesFrom {p : Address} {i : Nat} {cs : List Node} :
    p ∈ addressesFrom i cs ↔ ∃ k c q, cs[k]? = some c ∧ q ∈ c.addresses ∧ p = (i + k) :: q := by
  induction cs generalizing i with
  | nil => simp [addressesFrom]
  | cons c rest ih =>
    rw [addressesFrom, List.mem_append, List.mem_map, ih]
    constructor
    · rintro (⟨q, here, rfl⟩ | ⟨k, d, q, child, here, rfl⟩)
      · exact ⟨0, c, q, rfl, here, rfl⟩
      · exact ⟨k + 1, d, q, child, here, by rw [Nat.add_assoc, Nat.add_comm 1]⟩
    · rintro ⟨_ | k, d, q, child, here, rfl⟩
      · obtain rfl := Option.some.inj child
        exact .inl ⟨q, here, rfl⟩
      · exact .inr ⟨k, d, q, child, here, by rw [Nat.add_assoc, Nat.add_comm 1]⟩

theorem addresses_eq (n : Node) : n.addresses = [] :: addressesFrom 0 n.children := by
  cases n with
  | mk => rw [addresses, children]

/-- A tree has no other addresses. -/
theorem mem_addresses {n : Node} {p : Address} : p ∈ n.addresses ↔ (n.at? p).isSome := by
  induction p generalizing n with
  | nil => simp [addresses_eq, at?]
  | cons i rest ih =>
    rw [addresses_eq, List.mem_cons, mem_addressesFrom, at?]
    constructor
    · rintro (empty | ⟨k, c, q, child, here, same⟩)
      · cases empty
      · obtain ⟨rfl, rfl⟩ := List.cons.inj same
        rw [Nat.zero_add, child]
        exact ih.mp here
    · intro h
      cases child : n.children[i]? with
      | none =>
        rw [child] at h
        cases h
      | some c =>
        rw [child] at h
        exact .inr ⟨i, c, rest, child, ih.mpr h, by rw [Nat.zero_add]⟩

mutual

/-- The addresses are in document order. -/
theorem pairwise_addresses : (n : Node) → n.addresses.Pairwise Precedes
  | .mk _ _ _ _ _ _ _ cs => by
    rw [addresses, List.pairwise_cons]
    refine ⟨fun p below => ?_, pairwise_addressesFrom 0 cs⟩
    obtain ⟨k, _, q, _, _, rfl⟩ := mem_addressesFrom.mp below
    exact .inl ⟨_, q, rfl⟩

theorem pairwise_addressesFrom (i : Nat) : (cs : List Node) → (addressesFrom i cs).Pairwise Precedes
  | [] => .nil
  | c :: rest => by
    rw [addressesFrom, List.pairwise_append]
    -- Within the first tree, within the later ones, and from the first one to these.
    refine ⟨?_, pairwise_addressesFrom (i + 1) rest, fun p first q later => ?_⟩
    · refine List.pairwise_map.mpr ((pairwise_addresses c).imp ?_)
      rintro p q (⟨j, more, rfl⟩ | ⟨front, j, k, p', q', before, rfl, rfl⟩)
      · exact .inl ⟨j, more, rfl⟩
      · exact .inr ⟨i :: front, j, k, p', q', before, rfl, rfl⟩
    · obtain ⟨p', _, rfl⟩ := List.mem_map.mp first
      obtain ⟨k, _, q', _, _, rfl⟩ := mem_addressesFrom.mp later
      exact .inr ⟨[], i, i + 1 + k, p', q', by omega, rfl, rfl⟩

end

mutual

/-- What stands at the addresses is what the tree has, one after the other. -/
theorem map_at?_addresses : (n : Node) → n.addresses.map n.at? = n.preorder.map some
  | .mk kind named missing hasError start stop field cs => by
    rw [addresses, List.map_cons, preorder, List.map_cons]
    exact congrArg (some _ :: ·) (map_at?_addressesFrom (.mk kind named missing hasError start stop field cs) [] cs rfl)

theorem map_at?_addressesFrom (n : Node) (front : List Node) :
    (cs : List Node) → n.children = front ++ cs → (addressesFrom front.length cs).map n.at? = (preorderAll cs).map some
  | [], _ => by simp [addressesFrom, preorderAll]
  | c :: rest, split => by
    have here : n.children[front.length]? = some c := by rw [split]; simp
    have first : n.at? ∘ (front.length :: ·) = c.at? := by
      funext p
      rw [Function.comp_apply, at?, here]
    -- The trees that are left are children of the same node, with one more in front of them.
    have later := map_at?_addressesFrom n (front ++ [c]) rest (by rw [split]; simp)
    rw [List.length_append, List.length_singleton] at later
    rw [addressesFrom, List.map_append, List.map_map, first, map_at?_addresses c, later, preorderAll, List.map_append]

end

theorem mem_preorder_iff_at? {n root : Node} : n ∈ root.preorder ↔ ∃ p, root.at? p = some n := by
  have same : some n ∈ root.preorder.map some ↔ n ∈ root.preorder := by simp
  rw [← same, ← map_at?_addresses, List.mem_map]
  refine ⟨fun ⟨p, _, here⟩ => ⟨p, here⟩, fun ⟨p, here⟩ => ⟨p, mem_addresses.mpr ?_, here⟩⟩
  rw [here]
  rfl

/-! ### Lists in document order -/

/-- What can be got from the nodes of a tree is listed in document order, once for each place that it is got from. -/
def Lists {α : Type} (root : Node) (f : Node → Option α) (xs : List α) : Prop :=
  ∃ places : List Address, places.Pairwise Precedes ∧
    (∀ p, p ∈ places ↔ ∃ n, root.at? p = some n ∧ (f n).isSome) ∧
    places.map (fun p => (root.at? p).bind f) = xs.map some

theorem map_filter_isSome {α β : Type} (g : α → Option β) (xs : List α) :
    (xs.filter fun x => (g x).isSome).map g = (xs.filterMap g).map some := by
  induction xs with
  | nil => rfl
  | cons x rest ih =>
    rw [List.filter_cons, List.filterMap_cons]
    cases got : g x with
    | none => exact ih
    | some y => exact congrArg₂ List.cons got ih

theorem lists_filterMap {α : Type} (root : Node) (f : Node → Option α) : Lists root f (root.preorder.filterMap f) := by
  refine ⟨root.addresses.filter fun p => ((root.at? p).bind f).isSome, (pairwise_addresses root).filter _, fun p => ?_, ?_⟩
  · rw [List.mem_filter, mem_addresses]
    cases root.at? p <;> simp
  · rw [map_filter_isSome]
    congr 1
    calc root.addresses.filterMap (fun p => (root.at? p).bind f)
        = (root.addresses.map root.at?).filterMap (·.bind f) := by rw [List.filterMap_map]; rfl
      _ = (root.preorder.map some).filterMap (·.bind f) := by rw [map_at?_addresses]
      _ = root.preorder.filterMap f := by rw [List.filterMap_map]; rfl

theorem lists_filter (root : Node) (test : Node → Bool) : Lists root (Option.guard test) (root.preorder.filter test) := by
  rw [← List.filterMap_eq_filter]
  exact lists_filterMap root _

/-- Of the places whose nodes pass a test the one that comes first; so it is not below any of them. -/
structure IsFirst (root : Node) (test : Node → Bool) (q : Address) (e : Node) : Prop where
  here : root.at? q = some e
  passes : test e = true
  first : ∀ p n, root.at? p = some n → test n = true → p = q ∨ Precedes q p
  outermost : ∀ p n, root.at? p = some n → test n = true → ¬ IsAbove p q

section

variable {root e : Node} {test : Node → Bool} {q : Address}

theorem isFirst_of_precedes (here : root.at? q = some e) (passes : test e = true)
    (first : ∀ p n, root.at? p = some n → test n = true → p = q ∨ Precedes q p) : IsFirst root test q e := by
  refine ⟨here, passes, first, ?_⟩
  intro p n there also above
  rcases first p n there also with rfl | before
  · exact Precedes.asymm (.inl above) (.inl above)
  · exact before.asymm (.inl above)

theorem IsFirst.unique {e' : Node} {q' : Address} (h : IsFirst root test q e) (h' : IsFirst root test q' e') : e = e' := by
  have same : q' = q := by
    rcases h.first q' e' h'.here h'.passes with same | before
    · exact same
    · rcases h'.first q e h.here h.passes with same | after
      · exact same.symm
      · exact absurd after before.asymm
  subst same
  exact Option.some.inj (h.here.symm.trans h'.here)

theorem guard_isSome_iff (n : Node) : (Option.guard test n).isSome ↔ test n = true := by
  simp [Option.guard]

/-- What is listed first is outermost. -/
theorem Lists.head?_eq_some_iff {es : List Node} (order : Lists root (Option.guard test) es) :
    es.head? = some e ↔ ∃ q, IsFirst root test q e := by
  obtain ⟨places, sorted, complete, same⟩ := order
  simp only [guard_isSome_iff] at complete
  -- The first entry stands at the first of the places, which precedes all others.
  cases places with
  | nil =>
    obtain rfl : es = [] := by simpa using same.symm
    refine ⟨nofun, fun ⟨q, first⟩ => ?_⟩
    exact absurd ((complete q).mpr ⟨e, first.here, first.passes⟩) List.not_mem_nil
  | cons q rest =>
    obtain ⟨least, _⟩ := List.pairwise_cons.mp sorted
    obtain ⟨n, here, passes⟩ := (complete q).mp List.mem_cons_self
    have head : es.head? = some n := by
      have front := congrArg List.head? same
      simpa [here, Option.guard, passes] using front.symm
    have first : IsFirst root test q n := by
      refine isFirst_of_precedes here passes ?_
      intro p m there also
      exact (List.mem_cons.mp ((complete p).mpr ⟨m, there, also⟩)).imp id (least p)
    rw [head, Option.some.injEq]
    constructor
    · rintro rfl
      exact ⟨q, first⟩
    · rintro ⟨q', first'⟩
      exact first.unique first'

end

/-! ### The walk -/

theorem countAll_reverse (ns : List Node) : countAll ns.reverse = countAll ns := by
  induction ns with
  | nil => rfl
  | cons n rest ih => rw [List.reverse_cons, countAll_append, ih, countAll, countAll, countAll, Nat.add_zero, Nat.add_comm]

/-- One node less is left to go to once its children are on the stack in its place. -/
theorem countAll_exchange_lt {stack : List Node} {n : Node} (top : stack.getLast? = some n) :
    countAll (stack.dropLast ++ n.children.reverse) < countAll stack := by
  obtain ⟨below, rfl⟩ := List.getLast?_eq_some_iff.mp top
  have fewer : countAll n.children < n.count := countAll_entered_lt (fun _ => true) n
  rw [List.dropLast_concat, countAll_append, countAll_append, countAll_reverse, countAll, countAll]
  omega

/-- The walk: the last node of the stack is taken off it and reported if it passes the test, and its children are put on the
stack, the first one last. -/
def visits (test : Node → Bool) (stack : List Node) : List Node :=
  match _top : stack.getLast? with
  | none => []
  | some n => (if test n then [n] else []) ++ visits test (stack.dropLast ++ n.children.reverse)
termination_by countAll stack
decreasing_by exact countAll_exchange_lt _top

/-- The nodes a walk reports: all, or those of some kinds. -/
def passes (kinds : Option (List String)) (n : Node) : Bool :=
  match kinds with
  | none => true
  | some kinds => kinds.contains n.kind

theorem preorderAll_eq (ns : List Node) : preorderAll ns = ns.flatMap preorder := by
  induction ns with
  | nil => rfl
  | cons n rest ih => rw [preorderAll, ih, List.flatMap_cons]

theorem preorder_eq (n : Node) : n.preorder = n :: n.children.flatMap preorder := by
  cases n with
  | mk => rw [preorder, preorderAll_eq, children]

/-- What is still to be reported is what the trees on the stack have, the last one first. -/
theorem visits_eq (test : Node → Bool) (stack : List Node) :
    visits test stack = (stack.reverse.flatMap preorder).filter test := by
  -- The induction is on the walk; the children of the node at the top are reported where that node itself was to be.
  fun_induction visits test stack with
  | case1 stack empty =>
    obtain rfl := List.getLast?_eq_none_iff.mp empty
    rfl
  | case2 stack n top ih =>
    obtain ⟨below, rfl⟩ := List.getLast?_eq_some_iff.mp top
    rw [ih, List.dropLast_concat, List.reverse_append, List.reverse_append, List.reverse_reverse, List.flatMap_append,
      List.reverse_singleton, List.singleton_append, List.flatMap_cons, preorder_eq, List.cons_append, List.filter_cons]
    split <;> rfl

end Remedy.Node
