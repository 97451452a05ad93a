/-!
What is wrong with a value that should have a given shape, and where.

Checks go on past the first fault: `Checked.and` collects the issues of all parts in the order of the parts.
-/

namespace Remedy.Schema

inductive Fault where
  | missing
  | notString
  | notBool
  | unreadableBool
  | notObject
  | notList
  | notTuple
  | notSet
  /-- Not an object where the named record should stand. -/
  | notRecord (name : String)
  | notInteger
  | unreadableInteger
  | fractional
  | tooLarge
  | notFinite
  /-- None of the words allowed. -/
  | notOneOf (words : List String)
  /-- A rule of the domain is broken. -/
  | rule (text : String)
  deriving DecidableEq, Repr

/-- Words as a sentence lists them. -/
def listed : List String → String
  | [] => ""
  | [w] => s!"'{w}'"
  | [v, w] => s!"'{v}' or '{w}'"
  | w :: rest => s!"'{w}', {listed rest}"

namespace Fault

def code : Fault → String
  | missing => "missing"
  | notString => "string_type"
  | notBool => "bool_type"
  | unreadableBool => "bool_parsing"
  | notObject => "dict_type"
  | notList => "list_type"
  | notTuple => "tuple_type"
  | notSet => "frozen_set_type"
  | notRecord _ => "model_type"
  | notInteger => "int_type"
  | unreadableInteger => "int_parsing"
  | fractional => "int_from_float"
  | tooLarge => "int_parsing_size"
  | notFinite => "finite_number"
  | notOneOf _ => "literal_error"
  | rule _ => "value_error"

def message : Fault → String
  | missing => "Field required"
  | notString => "Input should be a valid string"
  | notBool => "Input should be a valid boolean"
  | unreadableBool => "Input should be a valid boolean, unable to interpret input"
  | notObject => "Input should be a valid dictionary"
  | notList => "Input should be a valid list"
  | notTuple => "Input should be a valid tuple"
  | notSet => "Input should be a valid frozenset"
  | notRecord name => s!"Input should be a valid dictionary or instance of {name}"
  | notInteger => "Input should be a valid integer"
  | unreadableInteger => "Input should be a valid integer, unable to parse string as an integer"
  | fractional => "Input should be a valid integer, got a number with a fractional part"
  | tooLarge => "Unable to parse input string as an integer, exceeded maximum size"
  | notFinite => "Input should be a finite number"
  | notOneOf words => s!"Input should be {listed words}"
  | rule text => s!"Value error, {text}"

end Fault

/-- A fault at the end of a path of field names and list indices. -/
structure Issue where
  path : List String
  fault : Fault
  deriving DecidableEq, Repr

def Issue.text (i : Issue) : String := ".".intercalate i.path ++ s!" [{i.fault.code}] {i.fault.message}"

/-- A value, or what is wrong with what it should have been read from. -/
abbrev Checked (α : Type) := Except (List Issue) α

namespace Checked

def fail (f : Fault) : Checked α := .error [⟨[], f⟩]

/-- A function that waits for its arguments. -/
def of (f : α) : Checked α := .ok f

/-- The same below a field or an index. -/
def under (step : String) : Checked α → Checked α
  | .ok a => .ok a
  | .error issues => .error (issues.map fun i => ⟨step :: i.path, i.fault⟩)

/-- Gives a function its next argument; the issues of both are kept. -/
def and (f : Checked (α → β)) (a : Checked α) : Checked β :=
  match f, a with
  | .ok f, .ok a => .ok (f a)
  | .ok _, .error e => .error e
  | .error e, .ok _ => .error e
  | .error e, .error e' => .error (e ++ e')

/-- Checks a list item by item under its indices, the first of which is given. -/
def items (read : α → Checked β) : Nat → List α → Checked (List β)
  | _, [] => .ok []
  | n, a :: rest => ((Checked.of List.cons).and ((read a).under (toString n))).and (items read (n + 1) rest)

end Checked

end Remedy.Schema
