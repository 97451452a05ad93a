import Remedy.Json.Shown

/-!
Parts of a value that came from elsewhere and may have any shape: a part is had, or it is said why it cannot be.
-/

namespace Remedy.Json

inductive AccessFault where
  /-- A key is asked of what is no object. -/
  | notObject
  /-- Items are asked of what has none. -/
  | notItems
  /-- The first item is asked of an object, which has keys only. -/
  | notNumbered
  /-- The first item is asked of an empty list. -/
  | noItem
  /-- A text is to be put together from what is no text. -/
  | notJoinable
  /-- What should be a text is none. -/
  | notText
  deriving DecidableEq, Repr

def AccessFault.message : AccessFault → String
  | notObject => "a key of something that is not an object"
  | notItems => "items of something that has none"
  | notNumbered => "an item of an object"
  | noItem => "an item of an empty list"
  | notJoinable => "a part of a text that is not a text"
  | notText => "a text that is not a text"

/-- Whether a value says nothing: it is null, false, zero or empty. -/
def isVoid : Json → Bool
  | null => true
  | bool b => !b
  | int n => n == 0
  | real (.finite _ m _) => m == 0
  | real _ => false
  | str s => s.isEmpty
  | arr items => items.isEmpty
  | obj fields => fields.isEmpty

/-- The value of a key, or another one if the object lacks it. -/
def member (v : Json) (key : String) (default : Json) : Except AccessFault Json :=
  match v with
  | obj fields => .ok ((fields.lookup key).getD default)
  | _ => .error .notObject

/-- The items of a list, the characters of a text or the keys of an object. -/
def items : Json → Except AccessFault (List Json)
  | arr vs => .ok vs
  | str s => .ok (s.toList.map fun c => str (String.ofList [c]))
  | obj fields => .ok (fields.map fun (k, _) => str k)
  | _ => .error .notItems

def firstItem (v : Json) : Except AccessFault Json :=
  match v with
  | obj _ => .error .notNumbered
  | v => do
    match ← v.items with
    | first :: _ => .ok first
    | [] => .error .noItem

def asText : Json → Except AccessFault String
  | str s => .ok s
  | _ => .error .notText

/-- One text of many, with something between them. -/
def joinTexts (between : String) (vs : List Json) : Except AccessFault String := do
  let texts ← vs.mapM fun v => match v with
    | str s => .ok s
    | _ => .error .notJoinable
  .ok (between.intercalate texts)

end Remedy.Json
