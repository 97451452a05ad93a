import Remedy.Check.Validate
import Remedy.Proofs.Node.Walk

/-!
What is told of a text that does not parse. Where errors are marked all the way up in its tree, nothing is told if and only if
parsing failed nowhere, and otherwise just the outermost nodes are told of at which it failed, each place once, in document
order. So nothing is lost by passing over what is not marked.
-/

namespace Remedy.Check

open Text (Bytes)

/-- Whether parsing failed at a node: no rule explains its text, or it was made up. -/
def failed (n : Node) : Bool := n.isMissing || n.kind == "ERROR"

/-- Errors are marked all the way up: a node has one if parsing failed at it or a child has one, and only then. -/
def Marked (root : Node) : Prop := ∀ n ∈ root.preorder, n.hasError = (failed n || n.children.any Node.hasError)

instance (root : Node) : Decidable (Marked root) := by
  unfold Marked
  infer_instance

/-- The nodes that are gone into: those that are marked, as long as parsing did not fail at them. -/
def searched (n : Node) : Bool := !failed n && n.hasError

/-! ### The walk -/

mutual

theorem failures_eq : (n : Node) → failures n = n.reached failed searched
  | .mk kind named missing hasError start stop field cs => by
    rw [Node.reached_eq, failures, failuresAll_eq cs]
    cases bad : missing || kind == "ERROR" with
    | true => simp [failed, searched, Node.entered, Node.isMissing, Node.kind, bad]
    | false => cases hasError <;>
        simp [failed, searched, Node.entered, Node.isMissing, Node.kind, Node.hasError, Node.children, bad]

theorem failuresAll_eq : (ns : List Node) → failuresAll ns = ns.flatMap (Node.reached failed searched)
  | [] => rfl
  | n :: rest => by rw [failuresAll, failures_eq n, failuresAll_eq rest, List.flatMap_cons]

end

/-! ### Marks -/

theorem Marked.below {root n : Node} (h : Marked root) (member : n ∈ root.preorder) : Marked n :=
  fun m hm => h m (Node.mem_preorder_trans root member hm)

mutual

theorem hasError_iff : (root : Node) → Marked root → (root.hasError = true ↔ ∃ n ∈ root.preorder, failed n = true)
  | .mk kind named missing hasError start stop field cs, marked => by
    have children := any_hasError_iff cs fun c hc => marked.below (Node.mem_preorder_iff.mpr (Or.inr ⟨c, hc, Node.mem_preorder_self c⟩))
    rw [marked _ (Node.mem_preorder_self _), Bool.or_eq_true, Node.children, children, Node.preorder]
    simp

theorem any_hasError_iff :
    (ns : List Node) → (∀ n ∈ ns, Marked n) → (ns.any Node.hasError = true ↔ ∃ n ∈ Node.preorderAll ns, failed n = true)
  | [], _ => by simp [Node.preorderAll]
  | n :: rest, marked => by
    have first := hasError_iff n (marked n List.mem_cons_self)
    have others := any_hasError_iff rest fun m hm => marked m (List.mem_cons_of_mem n hm)
    rw [List.any_cons, Bool.or_eq_true, first, others, Node.preorderAll]
    simp only [List.mem_append, or_and_right, exists_or]

end

/-- Where errors are marked, going into nodes that are not marked makes no difference. -/
theorem reached_of_marked {root : Node} (marked : Marked root) :
    root.reached failed searched = root.reached failed fun n => !failed n := by
  have same : ∀ o ∈ root.occurrences, o.isReached failed searched = o.isReached failed fun n => !failed n := by
    intro o place
    rw [Node.Occurrence.isReached, Node.Occurrence.isReached]
    cases bad : failed o.node with
    | false => rfl
    | true =>
      -- All that is around a node at which parsing failed is marked.
      rw [Bool.true_and, Bool.true_and]
      rw [Bool.eq_iff_iff, List.all_eq_true, List.all_eq_true]
      refine forall₂_congr fun n around => ?_
      obtain ⟨member, inside⟩ := Node.mem_around place around
      have mark : n.hasError = true := (hasError_iff n (marked.below member)).mpr ⟨o.node, inside, bad⟩
      rw [searched, mark, Bool.and_true]
  rw [Node.reached, Node.reached, List.filter_congr same]

mutual

/-- From a node that is marked one comes to a place where parsing failed. -/
theorem reached_ne_nil : (root : Node) → Marked root → root.hasError = true → root.reached failed searched ≠ []
  | .mk kind named missing hasError start stop field cs, marked, mark => by
    rw [Node.reached_eq]
    cases bad : failed (.mk kind named missing hasError start stop field cs) with
    | true => simp
    | false =>
      have below : cs.any Node.hasError = true := by
        have here := marked _ (Node.mem_preorder_self _)
        rwa [mark, bad, Bool.false_or, eq_comm] at here
      have entered : Node.entered searched (.mk kind named missing hasError start stop field cs) = cs := by
        rw [Node.entered, searched, bad, mark]
        rfl
      rw [entered]
      exact flatMap_reached_ne_nil cs (fun c hc =>
        marked.below (Node.mem_preorder_iff.mpr (Or.inr ⟨c, hc, Node.mem_preorder_self c⟩))) below

theorem flatMap_reached_ne_nil :
    (ns : List Node) → (∀ n ∈ ns, Marked n) → ns.any Node.hasError = true → ns.flatMap (Node.reached failed searched) ≠ []
  | [], _, mark => by simp at mark
  | n :: rest, marked, mark => by
    rw [List.any_cons, Bool.or_eq_true] at mark
    rw [List.flatMap_cons, Ne, List.append_eq_nil_iff, not_and_or]
    rcases mark with first | later
    · exact Or.inl (reached_ne_nil n (marked n List.mem_cons_self) first)
    · exact Or.inr (flatMap_reached_ne_nil rest (fun m hm => marked m (List.mem_cons_of_mem n hm)) later)

end

/-- From a node that is not marked one comes to nothing. -/
theorem reached_of_clean {root : Node} (marked : Marked root) (clean : root.hasError = false) :
    root.reached failed searched = [] := by
  have here := marked root (Node.mem_preorder_self root)
  rw [clean, eq_comm, Bool.or_eq_false_iff] at here
  have closed : searched root = false := by rw [searched, clean, Bool.and_false]
  rw [Node.reached_eq, here.1, Node.entered, closed]
  rfl

/-! ### What is told -/

/-- A diagnostic, moved if it is one of a block that begins at some place of its file. -/
def Diagnostic.placed (start : Option Position) (d : Diagnostic) : Diagnostic :=
  match start with
  | none => d
  | some p => d.shift p

/-- What is told of a node at which parsing failed. -/
def failureText (label : String) (source : Bytes) (start : Option Position) (n : Node) : String :=
  ((diagnosticOf source n).placed start).text label

/-- All that is told of a text, by its tree. -/
def treeErrors (label : String) (source : Bytes) (start : Option Position) (root : Node) : List String :=
  (treeDiagnostics source root).map fun d => (d.placed start).text label

/-- That nothing is told of a tree without a mark is no exception: there is nothing to come to. -/
theorem treeErrors_eq (label : String) (source : Bytes) (start : Option Position) {root : Node} (marked : Marked root) :
    treeErrors label source start root = (root.reached failed searched).map (failureText label source start) := by
  rw [treeErrors, treeDiagnostics, failures_eq]
  cases mark : root.hasError with
  | true =>
    rw [if_pos rfl, List.map_map]
    rfl
  | false =>
    rw [reached_of_clean marked mark]
    rfl

/-- A script file is checked by its tree. -/
theorem validate_script {path : String} {kind : Script.Kind}
    (script : grammarOfExtension? (Path.ofString path).extension = some kind) (content : String) :
    validate path content = .ok (treeErrors path (Text.encode content.toList) none (Script.parse kind content)) := by
  unfold validate treeErrors scriptDiagnostics
  simp only [script]
  exact congrArg Except.ok (List.map_congr_left fun _ _ => rfl)

/-- So is each script of a component, from where it begins. -/
theorem scriptBlock_errors (label : String) (b : Component.Block) :
    (scriptBlockDiagnostics b).map (Diagnostic.text label) =
      treeErrors label (Text.encode b.content.toList) (some b.start) (Script.parse (grammarOfLanguage b.language?) b.content) := by
  rw [scriptBlockDiagnostics, scriptDiagnostics, treeErrors, List.map_map]
  exact List.map_congr_left fun _ _ => rfl

/-- **The outermost failures are told, each once and in order.** Take any tree in which errors are marked all the way up.
Nothing is told if and only if parsing failed at none of its nodes. What is told is told of just those places at which it failed
and around which it failed nowhere, one after the other, and the places of a tree are listed in document order. Walks with a
stack come to the same nodes, whether they pass over what is not marked or not. -/
theorem outermost_failures_told (label : String) (source : Bytes) (start : Option Position) {root : Node} (marked : Marked root) :
    (treeErrors label source start root = [] ↔ ∀ n ∈ root.preorder, failed n = false) ∧
      treeErrors label source start root =
        (root.occurrences.filter fun o => failed o.node && o.around.all fun n => !failed n).map
          (fun o => failureText label source start o.node) ∧
      root.occurrences.map (·.node) = root.preorder ∧
      treeErrors label source start root = (Node.walk failed searched [root]).map (failureText label source start) ∧
      treeErrors label source start root =
        (Node.walk failed (fun n => !failed n) [root]).map (failureText label source start) := by
  have told := treeErrors_eq label source start marked
  have marks : treeErrors label source start root = [] ↔ root.hasError = false := by
    rw [told, List.map_eq_nil_iff]
    constructor
    · intro nothing
      by_contra mark
      exact reached_ne_nil root marked (by simpa using mark) nothing
    · exact reached_of_clean marked
  refine ⟨?_, ?_, Node.map_node_occurrences root, ?_, ?_⟩
  · rw [marks, ← Bool.not_eq_true, hasError_iff root marked]
    simp
  · rw [told, reached_of_marked marked, Node.reached, List.map_map]
    rfl
  · rw [told, Node.walk_eq, List.flatMap_singleton]
  · rw [told, reached_of_marked marked, Node.walk_eq, List.flatMap_singleton]

namespace Unfinished

def source : Bytes := Text.encode "f(;\nx y".toList

def part (kind : String) (missing hasError : Bool) (start stop : Nat) (children : List Node) : Node :=
  .mk kind true missing hasError start stop none children

/-- What a parser makes up at the end of a line. -/
def semicolon : Node := part ";" true true 7 7 []

/-- A failure inside of another one, and two in one place that look alike. -/
def tree : Node :=
  part "program" false true 0 7 [
    part "ERROR" false true 0 3 [part "identifier" false false 0 1 [], part "ERROR" false true 1 2 []],
    part "expression_statement" false false 4 5 [part "identifier" false false 4 5 []],
    part "expression_statement" false true 6 7 [part "identifier" false false 6 7 [], semicolon, semicolon]]

end Unfinished

/-- The inner failure is not told of, and each of the two others is. -/
theorem unfinished_script_told :
    Marked Unfinished.tree ∧
      treeErrors "a.js" Unfinished.source none Unfinished.tree =
        ["a.js(1,1): unexpected 'f(;'", "a.js(2,4): missing ';'", "a.js(2,4): missing ';'"] ∧
      (Node.walk failed searched [Unfinished.tree]).map (failureText "a.js" Unfinished.source none) =
        ["a.js(1,1): unexpected 'f(;'", "a.js(2,4): missing ';'", "a.js(2,4): missing ';'"] := by
  have marked : Marked Unfinished.tree := by decide +kernel
  have told : treeErrors "a.js" Unfinished.source none Unfinished.tree =
      ["a.js(1,1): unexpected 'f(;'", "a.js(2,4): missing ';'", "a.js(2,4): missing ';'"] := by decide +kernel
  obtain ⟨_, _, _, walked, _⟩ := outermost_failures_told "a.js" Unfinished.source none marked
  exact ⟨marked, told, walked.symm.trans told⟩

end Remedy.Check
