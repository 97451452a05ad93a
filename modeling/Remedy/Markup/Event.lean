import Remedy.Markup.Tag
import Remedy.Text.Position
import Remedy.Text.Quotation

/-!
A markup text as a sequence of events: tags, texts, comments and declarations, each with its place.

The reader is lenient. Only a malformed marked section makes it reject a text. It goes over the text twice: a first
pass stops where more of the text might change the meaning, and a second pass takes what is left as it is.
-/

namespace Remedy.Markup

inductive Event where
  | start (tag : StartTag)
  | stop (name : String)
  | text (content : String)
  /-- A reference by name or by number, without its marks. -/
  | namedReference (name : String)
  | numericReference (digits : String)
  | comment (content : String)
  | doctype (content : String)
  /-- A marked section or another declaration. -/
  | declaration (content : String)
  | instruction (content : String)
  deriving DecidableEq, Repr

structure Placed where
  position : Position
  event : Event
  deriving DecidableEq, Repr

/-- Where a reader stands; `raw` is the element whose content is read as mere text. -/
structure Reader where
  rest : List Char
  position : Position
  raw : Option (List Char)

/-- The reader after so many characters. -/
def Reader.skip (r : Reader) : Nat → Reader
  | 0 => r
  | n + 1 =>
    match r.rest with
    | [] => r
    | c :: rest =>
      let p := r.position
      let position : Position := if c == '\n' then ⟨p.line + 1, 0⟩ else ⟨p.line, p.column + 1⟩
      Reader.skip { r with rest, position } n

/-- The reader at a tail of its text. -/
def Reader.at (r : Reader) (tail : List Char) : Reader := r.skip (r.rest.length - tail.length)

/-- One step: events, and either a reader that goes on or one that has to wait for more. -/
structure Step where
  events : List Placed
  next : Reader
  waits : Bool := false

/-- Why a text is rejected: a marked section without a word, with how it begins, or with a word not known. -/
inductive Rejection where
  | unnamedSection (beginning : String)
  | unknownSection (word : String)
  deriving DecidableEq, Repr

def Rejection.message : Rejection → String
  | unnamedSection beginning => s!"expected name token at {Text.quotation beginning}"
  | unknownSection word => s!"unknown status keyword {Text.quotation word} in marked section"

def rawElements : List String := ["script", "style"]

/-- Whether an end tag of the element stands at the front. -/
def closesRaw (element : List Char) (cs : List Char) : Bool :=
  match cs with
  | '<' :: '/' :: rest =>
    let body := rest.dropWhile Text.isBlank
    (body.take element.length).map Char.toLower == element &&
      (((body.drop element.length).dropWhile Text.isBlank).head? == some '>')
  | _ => false

/-- The first tail that passes a test. -/
def firstTail? (test : List Char → Bool) : List Char → Option (List Char)
  | [] => if test [] then some [] else none
  | c :: rest => if test (c :: rest) then some (c :: rest) else firstTail? test rest

/-- Closes a comment: two hyphens, blanks and a `>`. -/
def closesComment : List Char → Bool
  | '-' :: '-' :: rest => (rest.dropWhile Text.isBlank).head? == some '>'
  | _ => false

/-- Closes a marked section; `double` asks for two brackets. -/
def closesSection (double : Bool) : List Char → Bool
  | ']' :: rest =>
    match rest.dropWhile Text.isBlank with
    | '>' :: _ => !double
    | ']' :: more => double && (more.dropWhile Text.isBlank).head? == some '>'
    | _ => false
  | _ => false

def dropThrough (c : Char) (cs : List Char) : List Char := (cs.dropWhile (· != c)).drop 1

/-- What begins with `<!`, from the text after these: its event and the text after it, or nothing if it has no
end. -/
def declaration? (cs : List Char) : Except Rejection (Option (Option Event × List Char)) :=
  match cs with
  | '-' :: '-' :: body =>
    .ok ((firstTail? closesComment body).map fun tail =>
      (some (.comment (String.ofList (body.take (body.length - tail.length)))), dropThrough '>' tail))
  | '[' :: body =>
    match body with
    | [] => .ok none
    | c :: _ =>
      if !c.isAlpha then .error (.unnamedSection (String.ofList (('<' :: '!' :: '[' :: body).take 20))) else
        let isWordPart (d : Char) := d.isAlphanum || d == '-' || d == '_' || d == '.'
        let word := body.takeWhile isWordPart
        let after := (body.dropWhile isWordPart).dropWhile Text.isBlank
        if after.isEmpty then .ok none else
          let name := Text.lower (String.ofList word)
          let close? (double : Bool) := (firstTail? (closesSection double) body).map fun tail =>
            (some (Event.declaration (String.ofList (body.take (body.length - tail.length)))), dropThrough '>' tail)
          if ["temp", "cdata", "ignore", "include", "rcdata"].contains name then .ok (close? true)
          else if ["if", "else", "endif"].contains name then .ok (close? false)
          else .error (.unknownSection (String.ofList (body.take (body.length - after.length))))
  | _ =>
    if (cs.take 7).map Char.toLower == "doctype".toList then
      .ok ((cutAt? '>' (cs.drop 7)).map fun (before, rest) =>
        (some (.doctype (String.ofList (cs.take 7 ++ before))), rest))
    else .ok ((cutAt? '>' cs).map fun (before, rest) => (some (.comment (String.ofList before)), rest))

/-- What begins with `</`, from the text after these. -/
def endTag? (raw : Option (List Char)) (cs : List Char) : Option (Option Event × List Char × Option (List Char)) :=
  match cutAt? '>' cs with
  | none => none
  | some (before, rest) =>
    let asText := some (Event.text (String.ofList ('<' :: '/' :: (before ++ ['>']))))
    match plainEndTag? cs with
    | some (name, after) =>
      let lowered := Text.lower (String.ofList name)
      match raw with
      | some element =>
        if lowered == String.ofList element then some (some (.stop lowered), after, none)
        else some (asText, rest, raw)
      | none => some (some (.stop lowered), after, none)
    | none =>
      if raw.isSome then some (asText, rest, raw)
      else match cs with
        | '>' :: after => some (none, after, raw)
        | c :: _ =>
          if c.isAlpha then
            let name := cs.takeWhile fun d => !endsTagName d
            some (some (.stop (Text.lower (String.ofList name))), dropThrough '>' (skipGap (cs.drop name.length)), raw)
          else some (some (.comment (String.ofList before)), rest, raw)
        | [] => none

/-- How texts are read: with references resolved in place, or told apart. -/
inductive Mode where
  | resolved
  | separate
  deriving DecidableEq, Repr

/-- A stretch of text as an event. -/
def Mode.textEvent (mode : Mode) (raw : Option (List Char)) (cs : List Char) : Event :=
  match mode, raw with
  | .resolved, none => .text (Text.unescape (String.ofList cs))
  | _, _ => .text (String.ofList cs)

/-- Where a construct is taken to end that never does, from the text after its first character: past the next `>`,
else before the next `<`, else at once. -/
def unfinishedEnd (body : List Char) : List Char :=
  match cutAt? '>' body with
  | some (_, rest) => rest
  | none =>
    let tail := body.dropWhile (· != '<')
    if tail.isEmpty then body else tail

/-- The construct at a `<`. -/
def atAngle (mode : Mode) (final : Bool) (r : Reader) : Except Rejection Step := do
  let place (e : Event) : Placed := ⟨r.position, e⟩
  let finish (found : Option (Option Event × List Char × Option (List Char))) : Step :=
    match found with
    | some (event, rest, raw) => ⟨(event.map place).toList, { r.at rest with raw }, false⟩
    | none =>
      if final then
        let rest := unfinishedEnd (r.rest.drop 1)
        let skipped := r.rest.take (r.rest.length - rest.length)
        ⟨[place (mode.textEvent r.raw skipped)], r.at rest, false⟩
      else ⟨[], r, true⟩
  match r.rest.drop 1 with
  | [] => return ⟨[], r, true⟩
  | c :: body =>
    if c.isAlpha then
      match startTag (c :: body) with
      | .unfinished => return finish none
      | .stray rest =>
        let skipped := r.rest.take (r.rest.length - rest.length)
        return ⟨[place (.text (String.ofList skipped))], r.at rest, false⟩
      | .tag t rest =>
        let raw := if !t.selfClosing && rawElements.contains t.name then some t.name.toList else r.raw
        return finish (some (some (.start t), rest, raw))
    else if c == '/' then return finish (endTag? r.raw body)
    else if c == '?' then
      return finish ((cutAt? '>' body).map fun (before, rest) =>
        (some (.instruction (String.ofList before)), rest, r.raw))
    else if c == '!' then
      return finish ((← declaration? body).map fun (event, rest) => (event, rest, r.raw))
    else return ⟨[place (.text "<")], r.at (c :: body), false⟩

/-- The longest name a reference may have here: a run of letters, digits, points and hyphens with one more character
after it that is neither a letter nor a digit. -/
def referenceName? (cs : List Char) : Option (List Char) :=
  match cs with
  | [] => none
  | c :: _ =>
    if !c.isAlpha then none else
      let run := cs.takeWhile fun d => d.isAlphanum || d == '-' || d == '.'
      if run.length < cs.length then some run
      else
        let shorter := (run.reverse.dropWhile Char.isAlphanum).drop 1
        if shorter.isEmpty then none else some shorter.reverse

def numberDigits? (cs : List Char) : Option (List Char) :=
  let isHex (c : Char) := c.isDigit || ('a' ≤ c && c ≤ 'f') || ('A' ≤ c && c ≤ 'F')
  let digits := match cs with
    | 'x' :: rest => if (rest.takeWhile isHex).isEmpty then [] else 'x' :: rest.takeWhile isHex
    | 'X' :: rest => if (rest.takeWhile isHex).isEmpty then [] else 'X' :: rest.takeWhile isHex
    | _ => cs.takeWhile Char.isDigit
  match cs.drop digits.length with
  | [] => none
  | c :: _ => if digits.isEmpty || isHex c then none else some digits

def dropSemicolon : List Char → List Char
  | ';' :: rest => rest
  | cs => cs

/-- The construct at a `&`, where references are told apart. -/
def atAmpersand (final : Bool) (r : Reader) : Step :=
  let place (e : Event) : Placed := ⟨r.position, e⟩
  match r.rest.drop 1 with
  | '#' :: body =>
    match numberDigits? body with
    | some digits =>
      ⟨[place (.numericReference (String.ofList digits))], r.at (dropSemicolon (body.drop digits.length)), false⟩
    | none => if body.contains ';' then ⟨[place (.text "&#")], r.at body, true⟩ else ⟨[], r, true⟩
  | [] => ⟨[], r, true⟩
  | c :: body =>
    match referenceName? (c :: body) with
    | some name =>
      ⟨[place (.namedReference (String.ofList name))], r.at (dropSemicolon ((c :: body).drop name.length)), false⟩
    | none =>
      if c.isAlpha then
        if final && body.isEmpty then ⟨[], r.skip 1, true⟩ else ⟨[], r, true⟩
      else ⟨[place (.text "&")], r.skip 1, false⟩

/-- The tail at which something other than text begins, if that can be told. -/
def nextMarkup? (mode : Mode) (r : Reader) : Option (List Char) :=
  match r.raw with
  | some element => firstTail? (closesRaw element) r.rest
  | none =>
    match mode with
    | .separate => some (r.rest.dropWhile fun c => c != '<' && c != '&')
    | .resolved =>
      let tail := r.rest.dropWhile (· != '<')
      if tail.isEmpty then
        -- A reference near the end may still be going on.
        let near := r.rest.drop (r.rest.length - 34)
        let lastReference := (near.reverse.takeWhile (· != '&')).reverse
        if near.contains '&' && !lastReference.any (fun c => Text.isBlank c || c == ';') then none else some []
      else some tail

/-- Takes steps until the text ends or the reader has to wait. -/
def run (mode : Mode) (final : Bool) : Nat → Reader → Except Rejection (List Placed × Reader)
  | 0, r => .ok ([], r)
  | fuel + 1, r =>
    if r.rest.isEmpty then .ok ([], r) else
      match nextMarkup? mode r with
      | none => .ok ([], r)
      | some tail =>
        let content := r.rest.take (r.rest.length - tail.length)
        let before := if content.isEmpty then [] else [⟨r.position, mode.textEvent r.raw content⟩]
        let r := r.at tail
        match tail with
        | [] => .ok (before, r)
        | c :: _ => do
          let step ← if c == '<' then atAngle mode final r else .ok (atAmpersand final r)
          if step.waits then return (before ++ step.events, step.next)
          let (more, last) ← run mode final fuel step.next
          return (before ++ step.events ++ more, last)

/-- The events of a text. Raw text that is never closed is left out. -/
def events (mode : Mode) (text : String) : Except Rejection (List Placed) := do
  let cs := text.toList
  let (first, r) ← run mode false (cs.length + 1) ⟨cs, ⟨1, 0⟩, none⟩
  let (second, r) ← run mode true (r.rest.length + 1) r
  let left := if r.raw.isNone && !r.rest.isEmpty then [⟨r.position, mode.textEvent r.raw r.rest⟩] else []
  return first ++ second ++ left

end Remedy.Markup
