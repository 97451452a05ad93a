import Remedy.Text.Blank

/-!
CSS selectors.

A compound selector tests one element. Its relation, if it has one, asks for another element that fits: one around or
before it, or, inside `:has`, one within or after it. A list fits if one of its compounds does.
-/

namespace Remedy.Css

inductive Combinator where
  | descendant
  | child
  | sibling
  | adjacent
  deriving DecidableEq, Repr

/-- How an attribute's value is compared. -/
inductive Comparison where
  | equal
  | startsWith
  | endsWith
  | contains
  | hasWord
  | hasLead
  deriving DecidableEq, Repr

structure AttributeTest where
  name : String
  /-- What the value is compared with; without it any value will do. -/
  value : Option (Comparison × String)
  caseless : Bool
  deriving DecidableEq, Repr

structure TagTest where
  space : Option String
  name : String
  deriving DecidableEq, Repr

/-- The places `step * n + offset` among siblings, or `offset` alone. -/
structure Places where
  step : Int
  offset : Int
  deriving DecidableEq, Repr

/-- Which siblings are counted. -/
structure Counting where
  places : Places
  ofType : Bool
  fromEnd : Bool
  deriving DecidableEq, Repr

/-- Conditions on an element that its name and attributes do not settle. -/
inductive Condition where
  | root
  | scope
  | defined
  | empty
  | noContent
  | firstSubmit
  | noneChecked
  | inRange
  | outOfRange
  | leftToRight
  | rightToLeft
  deriving DecidableEq, Repr

structure ContainsTest where
  texts : List String
  own : Bool
  deriving DecidableEq, Repr

mutual

inductive Compound where
  /-- Fits no element. -/
  | never
  | mk (tag : Option TagTest) (ids classes : List String) (attributes : List AttributeTest)
      (nth : List (Counting × SelectorList)) (subs : List SelectorList) (relation : Relation)
      (contains : List ContainsTest) (languages : List (List String)) (conditions : List Condition)

inductive Relation where
  | none
  /-- An element around or before this one. -/
  | past (c : Combinator) (other : Compound)
  /-- An element within or after this one. -/
  | future (c : Combinator) (other : Compound)

inductive SelectorList where
  /-- `negated` turns the answer round; `html` lets the prefix `html` stand for the language of the page. -/
  | mk (alternatives : List Compound) (negated html : Bool)

end

instance : Inhabited SelectorList := ⟨.mk [] false false⟩

/-- Why a text is no selector that can be used. -/
inductive SelectorError where
  | invalid
  | atRule (offset : Nat)
  | pseudoElement (offset : Nat)
  deriving DecidableEq, Repr

end Remedy.Css
