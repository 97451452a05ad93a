import Mathlib.Data.List.Basic
import Remedy.Proofs.Node.Layout

/-!
Walks through a tree with a stack of the nodes that are still to be gone to. What such a walk comes across does not depend
on the stack: it is told by where each node stands in the tree.

Nodes that look alike may stand in several places of a tree, so what is counted is where they stand: `occurrences` has one
entry for each place, in document order, with all the nodes that this place is in.
-/

namespace Remedy.Node

/-- A node where it stands in a tree, with the nodes around it, the outermost one first. -/
structure Occurrence where
  around : List Node
  node : Node

/-- The same place in a tree that is itself inside of other nodes. -/
def Occurrence.inside (above : List Node) (o : Occurrence) : Occurrence := ⟨above ++ o.around, o.node⟩

mutual

/-- All places of a tree, in document order; `above` are the nodes around it. -/
def occurrencesIn (above : List Node) : Node → List Occurrence
  | .mk kind named missing hasError start stop field children =>
    let n := Node.mk kind named missing hasError start stop field children
    ⟨above, n⟩ :: occurrencesInAll (above ++ [n]) children

def occurrencesInAll (above : List Node) : List Node → List Occurrence
  | [] => []
  | n :: rest => occurrencesIn above n ++ occurrencesInAll above rest

end

def occurrences (root : Node) : List Occurrence := occurrencesIn [] root

/-- Whether a node that passes the test stands at a place, all around which lets in. -/
def Occurrence.isReached (report enter : Node → Bool) (o : Occurrence) : Bool := report o.node && o.around.all enter

/-- The nodes that pass the test, of all places that one comes to by going into nodes that let in. -/
def reached (report enter : Node → Bool) (root : Node) : List Node :=
  (root.occurrences.filter (·.isReached report enter)).map (·.node)

theorem countAll_append (ms ns : List Node) : countAll (ms ++ ns) = countAll ms + countAll ns := by
  induction ms with
  | nil => simp [countAll]
  | cons m rest ih => rw [List.cons_append, countAll, countAll, ih, Nat.add_assoc]

/-- The children of a node that lets in. -/
def entered (enter : Node → Bool) (n : Node) : List Node := if enter n then n.children else []

theorem countAll_entered_lt (enter : Node → Bool) (n : Node) : countAll (entered enter n) < n.count := by
  cases n with
  | mk =>
    rw [entered]
    split
    · rw [children, count]
      omega
    · rw [countAll, count]
      omega

/-- A walk with a stack, whose top comes first: a node that passes the test is reported, and the children of one that lets in
come to the top of the stack, the first one uppermost. -/
def walk (report enter : Node → Bool) : List Node → List Node
  | [] => []
  | n :: stack => (if report n then [n] else []) ++ walk report enter (entered enter n ++ stack)
termination_by stack => countAll stack
decreasing_by
  rw [countAll_append, countAll]
  have fewer := countAll_entered_lt enter n
  omega

/-! ### Places of a tree -/

theorem occurrencesInAll_eq (above : List Node) (ns : List Node) :
    occurrencesInAll above ns = ns.flatMap (occurrencesIn above) := by
  induction ns with
  | nil => simp [occurrencesInAll]
  | cons n rest ih => rw [occurrencesInAll, ih, List.flatMap_cons]

theorem occurrencesIn_eq (above : List Node) (n : Node) :
    occurrencesIn above n = ⟨above, n⟩ :: n.children.flatMap (occurrencesIn (above ++ [n])) := by
  cases n with
  | mk => rw [occurrencesIn, occurrencesInAll_eq, children]

mutual

theorem occurrencesIn_append (more above : List Node) :
    (n : Node) → occurrencesIn (more ++ above) n = (occurrencesIn above n).map (.inside more)
  | .mk kind named missing hasError start stop field cs => by
    rw [occurrencesIn, occurrencesIn, List.map_cons, List.append_assoc, occurrencesInAll_append more _ cs]
    rfl

theorem occurrencesInAll_append (more above : List Node) :
    (ns : List Node) → occurrencesInAll (more ++ above) ns = (occurrencesInAll above ns).map (.inside more)
  | [] => by simp [occurrencesInAll]
  | n :: rest => by
    rw [occurrencesInAll, occurrencesInAll, List.map_append, occurrencesIn_append more above n,
      occurrencesInAll_append more above rest]

end

/-- The places of a tree: the one of its root, and inside of this those of the trees below. -/
theorem occurrences_eq (n : Node) :
    n.occurrences = ⟨[], n⟩ :: n.children.flatMap fun c => c.occurrences.map (.inside [n]) := by
  have below : (fun c => occurrencesIn [n] c) = fun c : Node => c.occurrences.map (.inside [n]) := by
    funext c
    exact occurrencesIn_append [n] [] c
  rw [occurrences, occurrencesIn_eq, List.nil_append]
  exact congrArg (_ :: n.children.flatMap ·) below

mutual

/-- The nodes of all places are the nodes of the tree, in document order. -/
theorem map_node_occurrencesIn (above : List Node) : (n : Node) → (occurrencesIn above n).map (·.node) = n.preorder
  | .mk kind named missing hasError start stop field cs => by
    rw [occurrencesIn, List.map_cons, map_node_occurrencesInAll _ cs, preorder]

theorem map_node_occurrencesInAll (above : List Node) :
    (ns : List Node) → (occurrencesInAll above ns).map (·.node) = preorderAll ns
  | [] => by simp [occurrencesInAll, preorderAll]
  | n :: rest => by
    rw [occurrencesInAll, List.map_append, map_node_occurrencesIn above n, map_node_occurrencesInAll above rest, preorderAll]

end

theorem map_node_occurrences (root : Node) : root.occurrences.map (·.node) = root.preorder :=
  map_node_occurrencesIn [] root

mutual

theorem around_occurrencesIn {above : List Node} {o : Occurrence} :
    (n : Node) → o ∈ occurrencesIn above n →
      o.node ∈ n.preorder ∧ ∃ inner, o.around = above ++ inner ∧ ∀ m ∈ inner, m ∈ n.preorder ∧ o.node ∈ m.preorder
  | .mk kind named missing hasError start stop field cs, h => by
    rw [occurrencesIn, List.mem_cons] at h
    rcases h with rfl | below
    · exact ⟨mem_preorder_self _, [], (List.append_nil _).symm, fun _ none => absurd none List.not_mem_nil⟩
    · obtain ⟨member, inner, around, each⟩ := around_occurrencesInAll cs below
      have inside : o.node ∈ (Node.mk kind named missing hasError start stop field cs).preorder :=
        List.mem_cons_of_mem _ member
      refine ⟨inside, _ :: inner, by rw [around, List.append_assoc, List.singleton_append], fun m hm => ?_⟩
      rcases List.mem_cons.mp hm with rfl | hm
      · exact ⟨mem_preorder_self _, inside⟩
      · exact ⟨List.mem_cons_of_mem _ (each m hm).1, (each m hm).2⟩

theorem around_occurrencesInAll {above : List Node} {o : Occurrence} :
    (ns : List Node) → o ∈ occurrencesInAll above ns →
      o.node ∈ preorderAll ns ∧ ∃ inner, o.around = above ++ inner ∧ ∀ m ∈ inner, m ∈ preorderAll ns ∧ o.node ∈ m.preorder
  | [], h => by simp [occurrencesInAll] at h
  | n :: rest, h => by
    rw [occurrencesInAll, List.mem_append] at h
    rw [preorderAll]
    rcases h with first | later
    · obtain ⟨member, inner, around, each⟩ := around_occurrencesIn n first
      exact ⟨List.mem_append_left _ member, inner, around, fun m hm => ⟨List.mem_append_left _ (each m hm).1, (each m hm).2⟩⟩
    · obtain ⟨member, inner, around, each⟩ := around_occurrencesInAll rest later
      exact ⟨List.mem_append_right _ member, inner, around, fun m hm => ⟨List.mem_append_right _ (each m hm).1, (each m hm).2⟩⟩

end

/-- The nodes around a place are nodes of the tree, and have what stands there below them. -/
theorem mem_around {root m : Node} {o : Occurrence} (h : o ∈ root.occurrences) (around : m ∈ o.around) :
    m ∈ root.preorder ∧ o.node ∈ m.preorder := by
  obtain ⟨_, inner, same, each⟩ := around_occurrencesIn root h
  rw [List.nil_append] at same
  exact each m (same ▸ around)

/-! ### What is reached -/

section

variable (report enter : Node → Bool)

theorem isReached_inside (above : List Node) (o : Occurrence) :
    (o.inside above).isReached report enter = (above.all enter && o.isReached report enter) := by
  rw [Occurrence.isReached, Occurrence.inside, List.all_append, Occurrence.isReached, Bool.and_left_comm]

/-- What is reached in a tree that is inside of a node: nothing, if that does not let in. -/
theorem reached_inside (n c : Node) :
    ((c.occurrences.map (Occurrence.inside [n])).filter (·.isReached report enter)).map (·.node) =
      if enter n then c.reached report enter else [] := by
  have test : ((·.isReached report enter) ∘ Occurrence.inside [n]) = fun o => enter n && o.isReached report enter := by
    funext o
    simp [isReached_inside]
  rw [List.filter_map, test, List.map_map]
  cases enter n with
  | true => simp only [Bool.true_and, if_true]; rfl
  | false => simp

theorem reached_eq (n : Node) :
    n.reached report enter = (if report n then [n] else []) ++ (entered enter n).flatMap (reached report enter) := by
  have here : ([⟨[], n⟩] : List Occurrence).filter (·.isReached report enter) = if report n then [⟨[], n⟩] else [] := by
    simp [List.filter_cons, Occurrence.isReached]
  rw [reached, occurrences_eq, ← List.singleton_append, List.filter_append, List.map_append, here, List.filter_flatMap,
    List.map_flatMap]
  congr 1
  · split <;> rfl
  · simp only [reached_inside, entered]
    split
    · rfl
    · simp

/-- **A walk with a stack comes to what is reached from the nodes on it**, from one after the other. -/
theorem walk_eq (stack : List Node) : walk report enter stack = stack.flatMap (reached report enter) := by
  fun_induction walk report enter stack with
  | case1 => rfl
  | case2 n stack ih => rw [ih, List.flatMap_append, List.flatMap_cons, reached_eq, List.append_assoc]

end

end Remedy.Node
