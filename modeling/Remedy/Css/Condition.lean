import Remedy.Css.InputValue
import Remedy.Css.Token
import Remedy.Page.Basic
import Remedy.Text.Blank
import Remedy.Text.Case

/-!
Tests on the elements of a page that no other selector takes part in.
-/

namespace Remedy.Css

/-- Whether a text stands somewhere in another. -/
def isWithin (part : List Char) : List Char → Bool
  | [] => part.isEmpty
  | c :: rest => part.isPrefixOf (c :: rest) || isWithin part rest

def wordsFrom (word : List Char) : List Char → List (List Char)
  | [] => [word.reverse]
  | c :: rest => if isSpace c then word.reverse :: wordsFrom [] rest else wordsFrom (c :: word) rest

/-- Whether two texts are one, a line feed at the end of the first aside. -/
def equalsLine (value expected : List Char) : Bool := value == expected || value == expected ++ ['\n']

def compareText (c : Comparison) (value expected : List Char) : Bool :=
  match c with
  | .equal => equalsLine value expected
  | .startsWith => expected.isPrefixOf value
  | .endsWith => expected.isSuffixOf value || (expected ++ ['\n']).isSuffixOf value
  | .contains => isWithin expected value
  | .hasWord => !expected.isEmpty && !expected.any isSpace && (wordsFrom [] value).contains expected
  | .hasLead => equalsLine value expected || (expected ++ ['-']).isPrefixOf value

def attributeFits (e : Page.Element) (t : AttributeTest) : Bool :=
  match e.attributes.find? fun (k, _) => lowerAscii k == lowerAscii t.name with
  | none => false
  | some (_, value) =>
    match t.value with
    | none => true
    | some (c, expected) =>
      let fold (s : String) : List Char := if t.caseless then s.toList.map Text.lowerChar else s.toList
      compareText c (fold value) (fold expected)

def attributeNamed (e : Page.Element) (name : String) : Option String :=
  (e.attributes.find? fun (k, _) => lowerAscii k == name).map (·.2)

def classesOf (e : Page.Element) : List String := Text.words ((attributeNamed e "class").getD "")

/-- Elements of a page have no prefix but the language of the page itself. -/
def tagFits (html : Bool) (e : Page.Element) (t : TagTest) : Bool :=
  (match t.space with
    | none => true
    | some "*" => true
    | some s => html && s == "html") &&
  (t.name == "*" || lowerAscii t.name == lowerAscii e.name)

def isFrame (p : Page) (i : Nat) : Bool := lowerAscii (p.element i).name == "iframe"

/-- Whether a text is more than blanks. -/
def hasContent (s : String) : Bool := s.toList.any fun c => !isSpace c

def isEmptyElement (p : Page) (i : Nat) : Bool :=
  isFrame p i || (p.itemsOf i).all fun item => match item with
    | .element _ => false
    | .text s => !hasContent s
    | .section => true
    | .aside => true

/-- Whether an element stands first at the top of the page, or of a frame. -/
def isRootElement (p : Page) (i : Nat) : Bool :=
  p.root? == some i || (match p.parent? i with
    | some j => isFrame p j
    | none => false)

/-- The root has no element and no text beside it. -/
def isRoot (p : Page) (i : Nat) : Bool :=
  isRootElement p i && (match p.parent? i with
    | none => true
    | some j => (p.itemsOf j).all fun item => match item with
      | .element k => k == i
      | .text s => s.toList.all Text.isBlank
      | .section => false
      | .aside => true)

/-- Names with a hyphen are of elements that the page would have to define. -/
def isDefined (e : Page.Element) : Bool := !e.name.toList.contains '-' || e.name.toList.contains ':'

def containsFits (p : Page) (i : Nat) (t : ContainsTest) : Bool :=
  if t.own then
    let own := if isFrame p i then [] else p.ownTexts i
    t.texts.any fun s => own.any fun text => isWithin s.toList text.toList
  else
    let text := (String.join (p.texts (isFrame p) i)).toList
    t.texts.any fun s => isWithin s.toList text

/-- Whether a place, counted from one, is among those described. -/
def Places.has (places : Places) (place : Nat) : Bool :=
  let d := (place : Int) - places.offset
  if places.step == 0 then d == 0 else d % places.step == 0 && 0 ≤ d / places.step

/-- Around an element, up to the frame it is in. -/
def insideFrame (p : Page) (html : Bool) (ancestors : List Nat) : List Nat :=
  if html then ancestors.takeWhile fun i => !isFrame p i else ancestors

/-! ### Languages and directions -/

def splitAtHyphens (cs : List Char) : List (List Char) :=
  match cs with
  | [] => [[]]
  | c :: rest =>
    if c == '-' then [] :: splitAtHyphens rest
    else match splitAtHyphens rest with
      | [] => [[c]]
      | part :: more => (c :: part) :: more

/-- Whether the parts of a language follow those of a range, any others between them but no single letters. -/
def rangeFits : List (List Char) → List (List Char) → Bool
  | [], _ => true
  | _ :: _, [] => false
  | r :: range, s :: tags =>
    if r.isEmpty then false
    else if r == s then rangeFits range tags
    else if s.length == 1 then false
    else rangeFits (r :: range) tags

def languageFits (range tag : String) : Bool :=
  let parts (s : String) := splitAtHyphens (Text.lower s).toList
  match parts range, parts tag with
  | r :: range, s :: tags =>
    if range.isEmpty && tags.isEmpty && r.isEmpty && s.isEmpty then true
    else if (r != ['*'] && r != s) || (r == ['*'] && tags.isEmpty && s.isEmpty) then false
    else rangeFits (range.filter (· != ['*'])) tags
  | _, _ => false

/-- The language that the page itself names in its head. -/
def pageLanguage? (p : Page) : Option String := do
  let html ← (p.childrenOf 0).find? fun i => lowerAscii (p.element i).name == "html"
  let head ← (p.childrenOf html).find? fun i => lowerAscii (p.element i).name == "head"
  (p.childrenOf head).findSome? fun i =>
    let e := p.element i
    if lowerAscii e.name == "meta" && (attributeNamed e "http-equiv").map lowerAscii == some "content-language" then
      (attributeNamed e "content").filter fun s => !s.isEmpty
    else none

/-- The language of an element: its own or that of the nearest element around it that has one. -/
def language? (p : Page) (i : Nat) : Option String :=
  let named := (i :: insideFrame p true (p.ancestors i)).filterMap fun j => attributeNamed (p.element j) "lang"
  match named.find? fun s => !s.isEmpty with
  | some s => some s
  | none => if named.isEmpty then pageLanguage? p else some ""

def languagesFit (p : Page) (i : Nat) (ranges : List String) : Bool :=
  match language? p i with
  | some tag => ranges.any fun r => languageFits r tag
  | none => false

/-- Letters written from right to left. -/
def isRightToLeft (c : Char) : Bool :=
  let n := c.toNat
  (0x590 ≤ n && n ≤ 0x8FF) || (0xFB1D ≤ n && n ≤ 0xFDFF) || (0xFE70 ≤ n && n ≤ 0xFEFF)

def isLetter (c : Char) : Bool := c.isAlpha || 0xAA ≤ c.toNat

/-- The direction of the first letter of a text; `true` is from left to right. -/
def textDirection? (cs : List Char) : Option Bool :=
  (cs.find? fun c => isRightToLeft c || isLetter c).map fun c => !isRightToLeft c

/-- The direction of an element: its own, or what its text has, or that of the elements around it. -/
def directionFrom? (p : Page) : List Nat → Option Bool
  | [] => none
  | i :: around =>
    let e := p.element i
    let own := (attributeNamed e "dir").map lowerAscii
    let kind := lowerAscii ((attributeNamed e "type").getD "")
    if own == some "ltr" then some true
    else if own == some "rtl" then some false
    else
      let auto := own == some "auto"
      let unset := !auto
      if isRootElement p i && unset then some true
      else if e.name == "input" && kind == "tel" && unset then some true
      else if auto || (e.name == "bdi" && unset) then
        let isField := e.name == "input" && ["text", "search", "tel", "url", "email"].contains kind
        let text := if isField then (attributeNamed e "value").getD "" else String.join (p.texts (isFrame p) i)
        match textDirection? text.toList with
        | some d => some d
        | none =>
          if (isField || e.name == "textarea") && !text.isEmpty then some true
          else if isRootElement p i then some true
          else directionFrom? p around
      else directionFrom? p around

def direction? (p : Page) (i : Nat) : Option Bool := directionFrom? p (i :: insideFrame p true (p.ancestors i))

/-! ### Forms -/

def form? (p : Page) (i : Nat) : Option Nat :=
  (insideFrame p true (p.ancestors i)).find? fun j => lowerAscii (p.element j).name == "form"

/-- Whether an element is the first button of its form that submits it. -/
def isFirstSubmit (p : Page) (i : Nat) : Bool :=
  match form? p i with
  | none => false
  | some f =>
    let before := (p.within (isFrame p) f).takeWhile fun j => lowerAscii (p.element j).name != "form"
    (before.find? fun j =>
      ["input", "button"].contains (lowerAscii (p.element j).name) &&
        (attributeNamed (p.element j) "type").map lowerAscii == some "submit") == some i

/-- The form of an element, or else all that is around it. -/
def group (p : Page) (i : Nat) : Nat :=
  (form? p i).getD ((insideFrame p true (p.ancestors i)).getLastD i)

/-- Whether no button of an element's group is chosen. -/
def isNoneChecked (p : Page) (i : Nat) : Bool :=
  let name := attributeNamed (p.element i) "name"
  let g := group p i
  !(p.within (isFrame p) g).any fun j =>
    let e := p.element j
    j != i && lowerAscii e.name == "input" && (attributeNamed e "type").map lowerAscii == some "radio" &&
      attributeNamed e "name" == name && (attributeNamed e "checked").isSome && group p j == g

/-- Whether a field has bounds and a value that does, or does not, lie between them. -/
def rangeIs (inside : Bool) (e : Page.Element) : Bool :=
  let kind := lowerAscii ((attributeNamed e "type").getD "")
  let read? (name : String) := (attributeNamed e name).bind (InputValue.read? kind)
  let low := read? "min"
  let high := read? "max"
  if low.isNone && high.isNone then false
  else match read? "value" with
    | none => inside
    | some v => InputValue.isInRange kind low high v == inside

def conditionFits (p : Page) (i : Nat) : Condition → Bool
  | .root => isRoot p i
  | .scope => p.root? == some i
  | .defined => isDefined (p.element i)
  | .empty => isEmptyElement p i
  | .noContent => ["", "\n"].contains (String.join (p.texts (fun _ => false) i))
  | .firstSubmit => isFirstSubmit p i
  | .noneChecked => isNoneChecked p i
  | .inRange => rangeIs true (p.element i)
  | .outOfRange => rangeIs false (p.element i)
  | .leftToRight => direction? p i == some true
  | .rightToLeft => direction? p i == some false

end Remedy.Css
