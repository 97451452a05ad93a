import Remedy.Json.Value
import Remedy.Schema.Issue
import Remedy.Text.Case

/-!
Reading texts, truth values, numbers, lists and records out of JSON.

Texts are taken only from strings. Numbers and truth values are also taken from strings that spell them, and from each
other where nothing is lost.
-/

namespace Remedy.Schema

open Json (Binary64)

def asText : Json → Checked String
  | .str s => .ok s
  | _ => .fail .notString

/-- Nothing, or what the reader makes of something. -/
def nullable (read : Json → Checked α) : Json → Checked (Option α)
  | .null => .ok none
  | v => (read v).map some

/-! ### Integers -/

/-- Blanks around a number: as in texts, but not the separators of files and records. -/
def isPadding (c : Char) : Bool :=
  let n := c.toNat
  (9 ≤ n && n ≤ 13) || n == 0x20 || n == 0x85 || n == 0xA0 || n == 0x1680 ||
    (0x2000 ≤ n && n ≤ 0x200A) || n == 0x2028 || n == 0x2029 || n == 0x202F || n == 0x205F || n == 0x3000

def unpadded (cs : List Char) : List Char := ((cs.dropWhile isPadding).reverse.dropWhile isPadding).reverse

/-- The value of digits without needless zeros in front. -/
def natural? (cs : List Char) : Option Nat :=
  match cs with
  | [] => none
  | ['0'] => some 0
  | '0' :: _ => none
  | _ => if cs.all Char.isDigit then some (cs.foldl (fun n c => n * 10 + (c.toNat - 48)) 0) else none

def plainInteger? : List Char → Option Int
  | '-' :: cs => (natural? cs).map fun n => -(n : Int)
  | cs => (natural? cs).map Int.ofNat

/-- What follows the zeros at the front, a point keeping the last of them. Underscores may stand among the zeros. -/
def afterZeros (last : Char) : List Char → Option (List Char)
  | [] => some [last]
  | c :: rest =>
    if c == '0' || c == '_' then afterZeros c rest
    else if c.isDigit then some (c :: rest)
    else if c == '.' then some (last :: c :: rest)
    else none

def withoutZeros : List Char → Option (List Char)
  | '0' :: rest => afterZeros '0' rest
  | c :: rest => if c.isDigit || c == '-' then some (c :: rest) else none
  | [] => none

/-- Drops a fraction of zeros. -/
def withoutFraction (cs : List Char) : List Char :=
  match cs.dropWhile (· != '.') with
  | _ :: fraction => if fraction.all (· == '0') then cs.takeWhile (· != '.') else cs
  | [] => cs

def hasDoubled (c : Char) : List Char → Bool
  | a :: b :: rest => (a == c && b == c) || hasDoubled c (b :: rest)
  | _ => false

/-- Drops the underscores that group digits: one at a time, and none at either end. -/
def withoutGroups (cs : List Char) : List Char :=
  if cs.head? == some '_' || cs.getLast? == some '_' || hasDoubled '_' cs then cs else cs.filter (· != '_')

/-- The integer that a text spells, perhaps padded, with a sign, zeros in front, grouped digits or a fraction of
zeros. -/
def spelledInteger? (cs : List Char) : Option Int := do
  let unsigned ← match unpadded cs with
    | '+' :: '-' :: _ => none
    | '+' :: rest => some rest
    | rest => some rest
  plainInteger? (withoutGroups (withoutFraction (← withoutZeros unsigned)))

/-- The most digits that an integer may be spelled with. -/
def digitLimit : Nat := 4300

def integerOfText (s : String) : Checked Int :=
  let cs := s.toList
  match plainInteger? cs with
  | some n => if cs.length > digitLimit then .fail .tooLarge else .ok n
  | none => match spelledInteger? cs with
    | some n => .ok n
    | none => .fail .unreadableInteger

/-- Two to the power of 63, which signed words of 64 bits do not reach. -/
def wordBound : Int := 0x8000000000000000

/-- Whole reals between the bounds of 64-bit words are taken. -/
def integerOfReal (x : Binary64) : Checked Int :=
  match x with
  | .nan => .fail .notFinite
  | .infinite _ => .fail .notFinite
  | _ => match x.toInt? with
    | none => .fail .fractional
    | some n => if -wordBound < n && n < wordBound then .ok n else .fail .tooLarge

def asInteger : Json → Checked Int
  | .int n => .ok n
  | .bool b => .ok (if b then 1 else 0)
  | .real x => integerOfReal x
  | .str s => integerOfText s
  | _ => .fail .notInteger

/-! ### Truth values -/

def trueWords : List String := ["1", "on", "t", "true", "y", "yes"]

def falseWords : List String := ["0", "off", "f", "false", "n", "no"]

def lowerAscii (s : String) : String := String.ofList (s.toList.map Char.toLower)

def boolOfInteger (n : Int) : Checked Bool :=
  if n == 0 then .ok false else if n == 1 then .ok true else .fail .unreadableBool

def asBool : Json → Checked Bool
  | .bool b => .ok b
  | .str s =>
    let word := lowerAscii s
    if trueWords.contains word then .ok true
    else if falseWords.contains word then .ok false
    else .fail .unreadableBool
  | .int n => if -wordBound ≤ n && n < wordBound then boolOfInteger n else .fail .notBool
  | .real x => match integerOfReal x with
    | .ok n => boolOfInteger n
    | .error _ => .fail .notBool
  | _ => .fail .notBool

/-! ### Lists and records -/

/-- The items of an array; anything else is at fault. -/
def asList (fault : Fault) (read : Json → Checked α) : Json → Checked (List α)
  | .arr vs => Checked.items read 0 vs
  | _ => .fail fault

/-- The texts of an object, in its order. -/
def asTexts : Json → Checked (List (String × String))
  | .obj fields =>
    fields.foldr (fun (k, v) rest =>
      ((Checked.of fun s kvs => (k, s) :: kvs).and ((asText v).under k)).and rest) (.ok [])
  | _ => .fail .notObject

/-- The fields of a record. -/
def record (name : String) : Json → Checked (List (String × Json))
  | .obj fields => .ok fields
  | _ => .fail (.notRecord name)

/-- A field under the first of its names that is there, with that name. -/
def present? (fields : List (String × Json)) (names : List String) : Option (String × Json) :=
  names.findSome? fun n => (fields.lookup n).map fun v => (n, v)

def required (fields : List (String × Json)) (names : List String) (read : Json → Checked α) : Checked α :=
  match present? fields names with
  | some (name, v) => (read v).under name
  | none => (Checked.fail .missing).under (names.headD "")

def defaulted (fields : List (String × Json)) (names : List String) (default : α) (read : Json → Checked α) :
    Checked α :=
  match present? fields names with
  | some (name, v) => (read v).under name
  | none => .ok default

end Remedy.Schema
