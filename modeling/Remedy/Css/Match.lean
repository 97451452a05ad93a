import Remedy.Css.Condition
import Remedy.Css.Parser

/-!
Which elements of a page fit a selector.
-/

namespace Remedy.Css

/-- The elements that a relation asks about, seen from one element. -/
def around (p : Page) (html : Bool) (i : Nat) : Combinator → List Nat
  | .descendant => insideFrame p html (p.ancestors i)
  | .child => (insideFrame p html (p.ancestors i)).take 1
  | .sibling => (p.siblings i).1
  | .adjacent => (p.siblings i).1.take 1

def ahead (p : Page) (html : Bool) (i : Nat) : Combinator → List Nat
  | .descendant => if html && isFrame p i then [] else p.within (fun j => html && isFrame p j) i
  | .child => if html && isFrame p i then [] else p.childrenOf i
  | .sibling => (p.siblings i).2
  | .adjacent => (p.siblings i).2.take 1

/-- The elements counted together with an element: those before it, or after it. -/
def countedBeside (p : Page) (c : Counting) (i : Nat) : List Nat :=
  let (before, after) := p.siblings i
  let side := if c.fromEnd then after else before
  if c.ofType then side.filter fun j => lowerAscii (p.element j).name == lowerAscii (p.element i).name else side

mutual

def fits (p : Page) (html : Bool) : SelectorList → Nat → Bool
  | .mk alternatives negated asHtml, i =>
    !alternatives.isEmpty && anyFits p (html || asHtml) alternatives i != negated

def anyFits (p : Page) (html : Bool) : List Compound → Nat → Bool
  | [], _ => false
  | c :: rest, i => compoundFits p html c i || anyFits p html rest i

def allFit (p : Page) (html : Bool) : List SelectorList → Nat → Bool
  | [], _ => true
  | l :: rest, i => fits p html l i && allFit p html rest i

/-- Whether an element has the places counted; where a list is given, only elements that fit it count. -/
def nthFit (p : Page) (html : Bool) : List (Counting × SelectorList) → Nat → Bool
  | [], _ => true
  | (c, .mk alternatives negated asHtml) :: rest, i =>
    let counts (j : Nat) : Bool :=
      alternatives.isEmpty || anyFits p (html || asHtml) alternatives j != negated
    counts i && c.places.has (1 + ((countedBeside p c i).filter counts).length) && nthFit p html rest i

def relationFits (p : Page) (html : Bool) : Relation → Nat → Bool
  | .none, _ => true
  | .past c other, i => (around p html i c).any fun j => compoundFits p html other j
  | .future c other, i => (ahead p html i c).any fun j => compoundFits p html other j

def compoundFits (p : Page) (html : Bool) : Compound → Nat → Bool
  | .never, _ => false
  | .mk tag ids classes attributes nth subs relation contains languages conditions, i =>
    let e := p.element i
    (tag.all (tagFits html e)) && (conditions.all (conditionFits p i)) && nthFit p html nth i &&
      (ids.all fun id => (attributeNamed e "id").getD "" == id) &&
      (classes.all fun c => (classesOf e).contains c) && attributes.all (attributeFits e) &&
      languages.all (languagesFit p i) && allFit p html subs i && relationFits p html relation i &&
      contains.all (containsFits p i)

end

/-- The first element of a page, in document order, that fits. -/
def select? (p : Page) (l : SelectorList) : Option Page.Element := (p.all.find? fun i => fits p false l i).map p.element

end Remedy.Css
