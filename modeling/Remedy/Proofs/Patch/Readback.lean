import Remedy.Proofs.Component.Places
import Remedy.Proofs.Patch.Placement
import Remedy.Proofs.Patch.Values
import Remedy.Proofs.Script.Literal

/-!
Attributes that are there more than once. The one that is found by its name, and set, is the first of them; the value that is
reported under the name is that of the last one. So a value that is set is reported exactly where no other attribute of the
name comes behind.
-/

namespace Remedy

namespace Json

variable {α : Type} {fields : List (String × α)} {key : String}

theorem lookup_put (fields : List (String × α)) (key : String) (value : α) (other : String) :
    (put fields key value).lookup other = if other == key then some value else fields.lookup other := by
  induction fields with
  | nil =>
    rw [put, List.lookup_cons, List.lookup_nil]
    split <;> simp_all
  | cons kv rest ih =>
    obtain ⟨k, v⟩ := kv
    rw [put]
    split
    next same =>
      obtain rfl := beq_iff_eq.mp same
      rw [List.lookup_cons, List.lookup_cons]
      split <;> simp_all
    next different =>
      rw [List.lookup_cons, List.lookup_cons, ih]
      split
      next here =>
        obtain rfl := beq_iff_eq.mp here
        rw [if_neg (by simpa using different)]
      next => rfl

/-- Of what is put under a key the last value counts. -/
theorem lookup_foldl_put (added fields : List (String × α)) (key : String) :
    (added.foldl (fun fields kv => put fields kv.1 kv.2) fields).lookup key =
      ((added.filter fun kv => kv.1 == key).getLast?.map (·.2)).or (fields.lookup key) := by
  induction added generalizing fields with
  | nil => rfl
  | cons kv rest ih =>
    rw [List.foldl_cons, ih, lookup_put, List.filter_cons]
    by_cases same : kv.1 = key
    · subst same
      simp only [beq_self_eq_true, if_true, List.getLast?_cons]
      cases (rest.filter fun kv' => kv'.1 == kv.1).getLast? <;> rfl
    · rw [if_neg (by simpa using Ne.symm same), if_neg (by simpa using same)]

/-- Under the key that is put there is the new value first, and behind it what was there but for the first. -/
theorem filter_put (fields : List (String × α)) (key : String) (value : α) :
    ((put fields key value).filter fun kv => kv.1 == key) = (key, value) :: (fields.filter fun kv => kv.1 == key).drop 1 := by
  induction fields with
  | nil => simp [put]
  | cons kv rest ih =>
    rw [put]
    split
    next same => simp [beq_iff_eq.mp same]
    next other => simp [other, ih]

theorem map_put {β : Type} (read : α → β) (fields : List (String × α)) (key : String) (value : α) :
    (put fields key value).map (fun kv => (kv.1, read kv.2)) =
      put (fields.map fun kv => (kv.1, read kv.2)) key (read value) := by
  induction fields with
  | nil => rfl
  | cons kv rest ih =>
    rw [put, List.map_cons, put]
    split
    next => rfl
    next => rw [List.map_cons, ih]

end Json

/-! ### Pages -/

namespace Html

open Text (Bytes)

/-- The attributes of a name, small and capital letters alike. -/
def named (source : Bytes) (tag : Node) (name : String) : List Node :=
  (attributes tag).filter fun a => Text.lower (attributeName source a) == Text.lower name

/-- What is read of the last attribute of a name, if it is not the first. -/
def later? (source : Bytes) (tag : Node) (name : String) : Option String :=
  ((named source tag name).drop 1).getLast?.map (attributeValue source)

variable {source out : Bytes} {tag tag' : Node}

theorem findAttribute?_eq (source : Bytes) (tag : Node) (name : String) :
    findAttribute? source tag name = (named source tag name).head? := List.head?_filter.symm

theorem filter_reads (source : Bytes) (tag : Node) (name : String) :
    ((reads source tag).filter fun kv => kv.1 == Text.lower name) = (named source tag name).map (readAttribute source) := by
  rw [reads, List.filter_map]
  rfl

/-- What is reported under a name. -/
theorem lookup_readAttributes (source : Bytes) (tag : Node) (name : String) :
    (readAttributes source tag true).lookup (Text.lower name) =
      (named source tag name).getLast?.map (attributeValue source) := by
  rw [readAttributes_eq, Json.lookup_foldl_put, filter_reads, List.getLast?_map, Option.map_map]
  simp only [List.lookup_nil, Option.or_none]
  rfl

/-- It is what is read of the attribute that is found, unless another one of the name comes behind. -/
theorem reported (source : Bytes) (tag : Node) (name : String) :
    (readAttributes source tag true).lookup (Text.lower name) =
      (findAttribute? source tag name).map fun a => (later? source tag name).getD (attributeValue source a) := by
  rw [lookup_readAttributes, findAttribute?_eq, later?]
  cases named source tag name with
  | nil => rfl
  | cons a rest =>
    rw [List.getLast?_cons, List.drop_one, List.tail_cons, List.head?_cons]
    cases rest.getLast? <;> rfl

/-- Where a value is put in place of what is read of the first attribute of a name. -/
theorem reported_of_put {name value : String} (read : reads out tag' = Json.put (reads source tag) (Text.lower name) value) :
    (readAttributes out tag' true).lookup (Text.lower name) = some ((later? source tag name).getD value) := by
  rw [readAttributes_eq, Json.lookup_foldl_put, read, Json.filter_put, filter_reads, List.getLast?_cons, ← List.map_drop,
    List.getLast?_map, later?]
  cases ((named source tag name).drop 1).getLast? <;> rfl

end Html

/-! ### Markup in scripts -/

namespace Jsx

open Text (Bytes)

/-- The attributes of a name. -/
def named (source : Bytes) (tag : Node) (name : String) : List Node :=
  (attributes tag).filter fun a => attributeName source a == name

/-- The name of an attribute, and the kind and the text of its value. -/
def written (source : Bytes) (a : Node) : String × Option (String × String) :=
  (attributeName source a, (valueNode? a).map fun v => (v.kind, v.textIn source))

/-- How each attribute of a tag is written, one after another. -/
def writes (source : Bytes) (tag : Node) : List (String × Option (String × String)) :=
  (attributes tag).map (written source)

/-- What is read of a value: of a string the text between its quotes, and nothing of an expression. -/
def plain? : Option (String × String) → Option String
  | none => some ""
  | some (kind, text) =>
    if kind == "string" then some (Text.unescape (String.ofList (text.toList.drop 1).dropLast)) else none

/-- What is read of each attribute of a tag. -/
def reads (source : Bytes) (tag : Node) : List (String × Option String) :=
  (writes source tag).map fun kv => (kv.1, plain? kv.2)

/-- What is read of an attribute that has no value or a plain one. -/
def plainValue? (source : Bytes) (a : Node) : Option String := plain? (written source a).2

/-- What is read of the last attribute of a name that has no value or a plain one, if it is not the first. -/
def later? (source : Bytes) (tag : Node) (name : String) : Option String :=
  (((named source tag name).drop 1).filterMap (plainValue? source)).getLast?

/-- A value that has been set, by its kind and its text. -/
def setValue (value : String) : String × String :=
  (if Patch.Jsx.isBraced value then "jsx_expression" else "string", Patch.Jsx.literal value)

/-- What is read where a value has been set: nothing of an expression. -/
def readBack? (value : String) : Option String :=
  if Patch.Jsx.isBraced value then none else some (Text.unescape value)

/-- What has a value. -/
def valued (read : List (String × Option String)) : List (String × String) :=
  read.filterMap fun kv => kv.2.map fun value => (kv.1, value)

variable {source out : Bytes} {tag tag' : Node}

theorem findAttribute?_eq (source : Bytes) (tag : Node) (name : String) :
    findAttribute? source tag name = (named source tag name).head? := List.head?_filter.symm

theorem plain?_setValue (value : String) : plain? (some (setValue value)) = readBack? value := by
  cases braced : Patch.Jsx.isBraced value with
  | true => simp [setValue, readBack?, plain?, braced]
  | false =>
    simp only [setValue, readBack?, plain?, braced, Patch.Jsx.literal_plain braced, List.drop_one, List.tail_cons,
      List.dropLast_concat, String.ofList_toList]
    rfl

theorem readAttributes_eq (source : Bytes) (tag : Node) :
    readAttributes source tag = (valued (reads source tag)).foldl (fun kvs kv => Json.put kvs kv.1 kv.2) [] := by
  rw [readAttributes, reads, writes, valued, List.map_map, List.filterMap_map]
  generalize ([] : List (String × String)) = fields
  induction attributes tag generalizing fields with
  | nil => rfl
  | cons a rest ih =>
    rw [List.foldl_cons, List.filterMap_cons, ih]
    simp only [Function.comp_apply, written]
    cases valueNode? a with
    | none => rfl
    | some v =>
      simp only [Option.map_some, plain?, unquoted]
      split <;> rfl

/-- What has a value under a name. -/
theorem filter_valued (read : List (String × Option String)) (name : String) :
    ((valued read).filter fun kv => kv.1 == name).map (·.2) = (read.filter fun kv => kv.1 == name).filterMap (·.2) := by
  rw [valued, List.filter_filterMap, List.map_filterMap, List.filterMap_filter]
  congr 1
  funext ⟨key, value⟩
  cases value with
  | none => simp
  | some value => by_cases same : key = name <;> simp [Option.filter, same]

/-- What is reported under a name. -/
theorem lookup_readAttributes (source : Bytes) (tag : Node) (name : String) :
    (readAttributes source tag).lookup name =
      (((reads source tag).filter fun kv => kv.1 == name).filterMap (·.2)).getLast? := by
  rw [readAttributes_eq, Json.lookup_foldl_put, ← List.getLast?_map, filter_valued, List.lookup_nil, Option.or_none]

theorem filter_reads (source : Bytes) (tag : Node) (name : String) :
    ((reads source tag).filter fun kv => kv.1 == name) =
      (named source tag name).map fun a => (attributeName source a, plainValue? source a) := by
  rw [reads, writes, List.map_map, List.filter_map]
  rfl

theorem later?_eq (source : Bytes) (tag : Node) (name : String) :
    later? source tag name =
      ((((reads source tag).filter fun kv => kv.1 == name).drop 1).filterMap (·.2)).getLast? := by
  rw [filter_reads, ← List.map_drop, List.filterMap_map]
  rfl

theorem getLast?_filterMap_cons (kv : String × Option String) (rest : List (String × Option String)) :
    ((kv :: rest).filterMap (·.2)).getLast? = (rest.filterMap (·.2)).getLast?.or kv.2 := by
  rw [List.filterMap_cons]
  cases kv.2 with
  | none => simp
  | some value =>
    simp only [List.getLast?_cons]
    cases (rest.filterMap (·.2)).getLast? <;> rfl

/-- It is what is read of the attribute that is found, unless another one of the name that has no value or a plain one comes
behind. -/
theorem reported (source : Bytes) (tag : Node) (name : String) :
    (readAttributes source tag).lookup name =
      (findAttribute? source tag name).bind fun a => (later? source tag name).or (plainValue? source a) := by
  rw [lookup_readAttributes, later?_eq, filter_reads, findAttribute?_eq]
  -- What is found is the head of the attributes of the name, what is reported their last.
  cases named source tag name with
  | nil => rfl
  | cons a rest =>
    rw [List.map_cons, getLast?_filterMap_cons]
    rfl

/-- Where a value is written in place of that of the first attribute of a name. -/
theorem reported_of_put {name value : String}
    (rewritten : writes out tag' = Json.put (writes source tag) name (some (setValue value))) :
    (readAttributes out tag').lookup name = (later? source tag name).or (readBack? value) := by
  have read : reads out tag' = Json.put (reads source tag) name (readBack? value) := by
    rw [reads, rewritten, Json.map_put plain?, plain?_setValue]
    rfl
  rw [lookup_readAttributes, later?_eq, read, Json.filter_put, getLast?_filterMap_cons]

end Jsx

/-! ### Passes over scripts -/

namespace Patch.Jsx

open Text (encode IsBoundary)

/-- A fix sets an attribute in the tag of an element of a script. -/
structure Sets (source : String) (root : Node) (f : Fix) (tag : Node) (name value : String) : Prop where
  meant : ∃ l element, f.location = some l ∧
    elementAt? (encode source.toList) (targets root) l.start = some element ∧ Remedy.Jsx.opening? element = some tag
  change : ∃ overwrite, f.change? = some (.setAttribute overwrite name value)

theorem mem_preorder_of_opening? {element tag : Node} (h : Remedy.Jsx.opening? element = some tag) :
    tag ∈ element.preorder := by
  have part (child : tag ∈ element.children) := Node.mem_preorder_of_child (Node.mem_preorder_self element) child
  rw [Remedy.Jsx.opening?] at h
  split at h
  · obtain rfl := Option.some.inj h
    exact Node.mem_preorder_self element
  · rcases Option.or_eq_some_iff.mp h with inRole | ⟨_, ofKind⟩
    · exact part (Node.mem_of_childInRole? inRole).1
    · exact part (Node.mem_of_child? ofKind).1

/-- An attribute is set between ends of nodes. -/
theorem setAttribute_boundaries {source : String} {tag : Node} (cuts : tag.CutsAtCharacters source) (name value : String) :
    IsBoundary source.toList (setAttribute (encode source.toList) tag name value).start ∧
      IsBoundary source.toList (setAttribute (encode source.toList) tag name value).stop := by
  have below {n : Node} (child : n ∈ tag.children) := cuts n (Node.mem_preorder_of_child (Node.mem_preorder_self tag) child)
  have anchored : IsBoundary source.toList (anchor tag) := by
    rw [anchor]
    split
    next c last =>
      exact (below (Node.mem_of_namedChildren (List.mem_filter.mp (List.mem_of_getLast? last)).1)).2
    next => exact (cuts tag (Node.mem_preorder_self tag)).2
  rw [setAttribute]
  split
  next a found =>
    have child := (mem_of_findAttribute? found).1
    split
    next => exact ⟨(below child).2, (below child).2⟩
    next v valued =>
      have part := Node.mem_of_namedChildren (List.mem_of_getElem? valued)
      have inside := Node.mem_preorder_of_child (Node.mem_preorder_of_child (Node.mem_preorder_self tag) child) part
      exact cuts v inside
  next => exact ⟨anchored, anchored⟩

/-- A pass with one such fix makes its edit. -/
theorem Sets.text {source : String} {root tag : Node} {f : Fix} {name value : String}
    (sets : Sets source root f tag name value) (cuts : root.CutsAtCharacters source) :
    ∃ out, (applyTo source root [f]).text = .ok out ∧
      encode out.toList = (setAttribute (encode source.toList) tag name value).applyTo (encode source.toList) := by
  obtain ⟨⟨l, element, location, found, opened⟩, overwrite, change⟩ := sets
  let q : Proposal := ⟨element.start, [], [(name, value)], setAttribute (encode source.toList) tag⟩
  -- The fix proposes one attribute, which nothing claims yet, in a batch that meets no other.
  have proposed : proposal? (encode source.toList) f element = some q := by
    simp only [proposal?, opened, change]
    rfl
  have read : reading (encode source.toList) (targets root) f = .ok (some q) := by
    simp only [reading, location, Option.bind_some, found, proposed]
  have edits : (EditPlan.empty.consider q).edits = [setAttribute (encode source.toList) tag name value] := by
    rw [EditPlan.edits_consider_taken _ _ (by simp [EditPlan.conflicts, EditPlan.empty])]
    rfl
  have inside : tag ∈ root.preorder :=
    Node.mem_preorder_trans root (Node.mem_preorder_of_select (List.mem_filter.mp (mem_of_elementAt? found)).1)
      (mem_preorder_of_opening? opened)
  have ends := setAttribute_boundaries (fun n hn => cuts n (Node.mem_preorder_trans root inside hn)) name value
  obtain ⟨out, text, bytes⟩ := Html.finish_replacement ends.1 ends.2 (EditPlan.empty.consider q).claims
  refine ⟨out, ?_, bytes⟩
  rw [text_applyTo, planOf_eq, Reading.pass_singleton, Reading.step_some _ read]
  change finish source (encode source.toList) (EditPlan.empty.consider q) = .ok out
  rw [← text]
  exact finish_congr source _ edits

end Patch.Jsx

/-! ### A link with two titles -/

namespace Patch

open Text (Bytes encode)
open Remedy.Html (Lexed)
open Patch.Html (Lookup Takes)

namespace Twice

/-- The tag of `<a title='a' title=b>`. -/
def tag : Node :=
  .mk "start_tag" true false false 0 21 none
    [Retitled.leaf "tag_name" none 1 2,
     .mk "attribute" true false false 3 12 none
      [Retitled.leaf "attribute_name" none 3 8,
       .mk "quoted_attribute_value" true false false 9 12 none [Retitled.leaf "attribute_value" none 10 11]],
     .mk "attribute" true false false 13 20 none
      [Retitled.leaf "attribute_name" none 13 18, Retitled.leaf "attribute_value" none 19 20]]

/-- The tag of the link with one title, in a script. -/
def opening : Node :=
  .mk "jsx_opening_element" true false false 0 13 (some "open_tag")
    [Retitled.leaf "identifier" (some "name") 1 2,
     .mk "jsx_attribute" true false false 3 12 none
      [Retitled.leaf "property_identifier" none 3 8, Retitled.leaf "string" none 9 12]]

def script : Node :=
  .mk "program" true false false 0 18 none
    [.mk "jsx_element" true false false 0 18 none
      [opening, Retitled.leaf "jsx_text" none 13 14,
       .mk "jsx_closing_element" true false false 14 18 (some "close_tag")
        [Retitled.leaf "identifier" (some "name") 16 17]]]

end Twice

/-- **The first attribute of a name is found, and the last is reported.** Under a name the value of the attribute that is
found is reported, unless another one of the name comes behind; in a script only those count that have no value or a plain
one. After an attribute has been set, its value is reported unless there is such another one; in a script, the value that is
reported has its references resolved, and one that is written in braces is not reported. -/
theorem first_found_last_reported (source : String) (root tag : Node) (lookup : Lookup) (f : Fix) (name value : String) :
    (Remedy.Html.readAttributes (encode source.toList) tag true).lookup (Text.lower name) =
      (Remedy.Html.findAttribute? (encode source.toList) tag name).map (fun a =>
        (Remedy.Html.later? (encode source.toList) tag name).getD (Remedy.Html.attributeValue (encode source.toList) a)) ∧
    (Html.Sets source root lookup f tag name value → Takes (encode source.toList) tag name →
      ∃ out, (Html.applyTo source root lookup [f]).text = .ok out ∧
        ∀ tag' : Node, tag'.start = tag.start → Lexed (encode out.toList) tag' →
          (Remedy.Html.readAttributes (encode out.toList) tag' true).lookup (Text.lower name) =
            some ((Remedy.Html.later? (encode source.toList) tag name).getD value)) ∧
    (Remedy.Jsx.readAttributes (encode source.toList) tag).lookup name =
      (Remedy.Jsx.findAttribute? (encode source.toList) tag name).bind (fun a =>
        (Remedy.Jsx.later? (encode source.toList) tag name).or (Remedy.Jsx.plainValue? (encode source.toList) a)) ∧
    (Jsx.Sets source root f tag name value → root.CutsAtCharacters source →
      ∃ out, (Jsx.applyTo source root [f]).text = .ok out ∧
        encode out.toList = (Jsx.setAttribute (encode source.toList) tag name value).applyTo (encode source.toList) ∧
        ∀ tag' : Node, Remedy.Jsx.writes (encode out.toList) tag' =
            Json.put (Remedy.Jsx.writes (encode source.toList) tag) name (some (Remedy.Jsx.setValue value)) →
          (Remedy.Jsx.readAttributes (encode out.toList) tag').lookup name =
            (Remedy.Jsx.later? (encode source.toList) tag name).or (Remedy.Jsx.readBack? value)) := by
  refine ⟨Remedy.Html.reported _ tag name, fun sets takes => ?_, Remedy.Jsx.reported _ tag name, fun sets cuts => ?_⟩
  · obtain ⟨out, text, bytes, given⟩ := sets.text takes
    refine ⟨out, text, fun tag' start lexed => ?_⟩
    rw [bytes] at lexed ⊢
    exact Remedy.Html.reported_of_put (given.read tag' start lexed)
  · obtain ⟨out, text, bytes⟩ := sets.text cuts
    exact ⟨out, text, bytes, fun tag' rewritten => Remedy.Jsx.reported_of_put rewritten⟩

/-- The one title of a link is read back as it has been set, in a page and in a script. -/
theorem single_title_reported :
    (∃ out, (Html.applyTo Quoted.single Quoted.page Retitled.lookup [Quoted.fix "V"]).text = .ok out ∧
      ∀ tag' : Node, tag'.start = 0 → Lexed (encode out.toList) tag' →
        (Remedy.Html.readAttributes (encode out.toList) tag' true).lookup (Text.lower "title") = some "V") ∧
    ∃ out, (Jsx.applyTo Quoted.single Twice.script [Quoted.fix "V"]).text = .ok out ∧
      (Remedy.Jsx.readAttributes (encode out.toList) Twice.opening).lookup "title" = some "V" := by
  constructor
  · obtain ⟨_, page, _, _⟩ := first_found_last_reported Quoted.single Quoted.page Quoted.tag Retitled.lookup (Quoted.fix "V")
      "title" "V"
    exact page (Quoted.sets_single _) Quoted.takes_single
  · obtain ⟨_, _, _, script⟩ := first_found_last_reported Quoted.single Twice.script Twice.opening Retitled.lookup
      (Quoted.fix "V") "title" "V"
    obtain ⟨out, text, bytes, read⟩ := script ⟨⟨_, _, rfl, rfl, rfl⟩, true, rfl⟩ (by decide +kernel)
    refine ⟨out, text, ?_⟩
    rw [read Twice.opening (by rw [bytes]; decide +kernel)]
    decide +kernel

/-- Of two titles the first one is found and the second one is reported. -/
theorem second_title_reported :
    ¬ ∀ (source : Bytes) (tag a : Node) (name : String), Lexed source tag →
      Remedy.Html.findAttribute? source tag name = some a →
        (Remedy.Html.readAttributes source tag true).lookup (Text.lower name) =
          some (Remedy.Html.attributeValue source a) := by
  intro same
  have read := same (encode "<a title='a' title=b>t</a>".toList) Twice.tag _ "title" (by decide +kernel) rfl
  exact absurd read (by decide +kernel)

end Patch

end Remedy
