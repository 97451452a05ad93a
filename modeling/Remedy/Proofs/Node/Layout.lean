import Mathlib.Data.List.Pairwise
import Remedy.Node.Basic

/-!
How the nodes of a syntax tree lie in its text: each of them ends no sooner than it begins, has its children inside, and
these follow one another.
-/

namespace Remedy.Node

/-- The children of a node lie within it, one after the other. -/
structure Laid (n : Node) : Prop where
  forward : n.start ≤ n.stop
  within : ∀ c ∈ n.children, n.start ≤ c.start ∧ c.stop ≤ n.stop
  follows : n.children.Pairwise fun a b => a.stop ≤ b.start

instance (n : Node) : Decidable n.Laid :=
  decidable_of_iff (n.start ≤ n.stop ∧ (∀ c ∈ n.children, n.start ≤ c.start ∧ c.stop ≤ n.stop) ∧
      n.children.Pairwise fun a b => a.stop ≤ b.start)
    ⟨fun ⟨forward, within, follows⟩ => ⟨forward, within, follows⟩,
      fun ⟨forward, within, follows⟩ => ⟨forward, within, follows⟩⟩

/-- A tree over a text of so many bytes. -/
structure IsTreeOver (root : Node) (size : Nat) : Prop where
  inside : root.stop ≤ size
  laid : ∀ n ∈ root.preorder, n.Laid

instance (root : Node) (size : Nat) : Decidable (root.IsTreeOver size) :=
  decidable_of_iff (root.stop ≤ size ∧ ∀ n ∈ root.preorder, n.Laid)
    ⟨fun ⟨inside, laid⟩ => ⟨inside, laid⟩, fun ⟨inside, laid⟩ => ⟨inside, laid⟩⟩

/-! ### Going through a tree -/

theorem mem_preorderAll {n : Node} {ns : List Node} : n ∈ preorderAll ns ↔ ∃ m ∈ ns, n ∈ m.preorder := by
  induction ns with
  | nil => simp [preorderAll]
  | cons m rest ih => simp [preorderAll, ih]

theorem mem_preorder_iff {n root : Node} : n ∈ root.preorder ↔ n = root ∨ ∃ c ∈ root.children, n ∈ c.preorder := by
  cases root with
  | mk => rw [preorder, List.mem_cons, mem_preorderAll, children]

theorem mem_preorder_self (n : Node) : n ∈ n.preorder := mem_preorder_iff.mpr (Or.inl rfl)

mutual

/-- What is below a node is below all that the node is below. -/
theorem mem_preorder_trans {n m : Node} : (root : Node) → m ∈ root.preorder → n ∈ m.preorder → n ∈ root.preorder
  | .mk k named missing hasError start stop field cs, below, here => by
    rw [preorder, List.mem_cons] at below ⊢
    rcases below with rfl | below
    · rwa [preorder, List.mem_cons] at here
    · exact Or.inr (mem_preorderAll_trans cs below here)

theorem mem_preorderAll_trans {n m : Node} :
    (ns : List Node) → m ∈ preorderAll ns → n ∈ m.preorder → n ∈ preorderAll ns
  | [], below, _ => by simp [preorderAll] at below
  | root :: rest, below, here => by
    rw [preorderAll, List.mem_append] at below ⊢
    rcases below with below | below
    · exact Or.inl (mem_preorder_trans root below here)
    · exact Or.inr (mem_preorderAll_trans rest below here)

end

theorem mem_preorder_of_child {n c root : Node} (h : n ∈ root.preorder) (child : c ∈ n.children) : c ∈ root.preorder :=
  mem_preorder_trans root h (mem_preorder_iff.mpr (Or.inr ⟨c, child, mem_preorder_self c⟩))

theorem mem_preorder_of_select {n root : Node} {kinds : List String} (h : n ∈ root.select kinds) : n ∈ root.preorder :=
  (List.mem_filter.mp h).1

/-! ### Parts of a tree over a text -/

namespace IsTreeOver

variable {n c root : Node} {size : Nat}

theorem laid_self (h : n.IsTreeOver size) : n.Laid := h.laid n (mem_preorder_self n)

theorem forward (h : n.IsTreeOver size) : n.start ≤ n.stop := h.laid_self.forward

theorem child (h : n.IsTreeOver size) (member : c ∈ n.children) : c.IsTreeOver size where
  inside := Nat.le_trans (h.laid_self.within c member).2 h.inside
  laid m below := h.laid m (mem_preorder_iff.mpr (Or.inr ⟨c, member, below⟩))

mutual

/-- All that is below the root of a tree is itself a tree over the text. -/
theorem below {n : Node} : (root : Node) → root.IsTreeOver size → n ∈ root.preorder → n.IsTreeOver size
  | .mk k named missing hasError start stop field cs, h, member => by
    rw [preorder, List.mem_cons] at member
    rcases member with rfl | member
    · exact h
    · exact belowAll cs (fun c hc => h.child hc) member

theorem belowAll {n : Node} :
    (ns : List Node) → (∀ c ∈ ns, c.IsTreeOver size) → n ∈ preorderAll ns → n.IsTreeOver size
  | [], _, member => by simp [preorderAll] at member
  | c :: rest, h, member => by
    rw [preorderAll, List.mem_append] at member
    rcases member with member | member
    · exact below c (h c List.mem_cons_self) member
    · exact belowAll rest (fun d hd => h d (List.mem_cons_of_mem c hd)) member

end

end IsTreeOver

/-! ### Children by kind and role -/

variable {n c : Node}

theorem mem_of_child? {kinds : List String} (h : n.child? kinds = some c) : c ∈ n.children ∧ c.kind ∈ kinds := by
  refine ⟨List.mem_of_find?_eq_some h, ?_⟩
  simpa using List.find?_some h

theorem mem_of_childInRole? {role : String} (h : n.childInRole? role = some c) :
    c ∈ n.children ∧ c.field = some role := by
  refine ⟨List.mem_of_find?_eq_some h, ?_⟩
  simpa using List.find?_some h

theorem mem_of_childrenOf {kind : String} (h : c ∈ n.childrenOf kind) : c ∈ n.children ∧ c.kind = kind := by
  simpa [childrenOf] using h

theorem mem_of_namedChildren (h : c ∈ n.namedChildren) : c ∈ n.children := (List.mem_filter.mp h).1

/-- Of two children one ends before the other begins. -/
theorem Laid.apart (h : n.Laid) {a b : Node} (ha : a ∈ n.children) (hb : b ∈ n.children) (other : a ≠ b) :
    a.stop ≤ b.start ∨ b.stop ≤ a.start := by
  have either : n.children.Pairwise fun x y => x.stop ≤ y.start ∨ y.stop ≤ x.start := h.follows.imp Or.inl
  have : Std.Symm fun x y : Node => x.stop ≤ y.start ∨ y.stop ≤ x.start := ⟨fun _ _ => Or.symm⟩
  exact either.forall ha hb other

end Remedy.Node
