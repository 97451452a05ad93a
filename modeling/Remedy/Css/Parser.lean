import Remedy.Css.Token

/-!
Reading selectors.

A list of compounds is read token by token. A combinator ends a compound and makes it the relation of the next one;
inside `:has` it is the other way round, and each compound becomes a relation of the element asked about. Only `:is`
and `:where` forgive an empty place in their lists. Pseudo-classes that other selectors can express are read as those.
-/

namespace Remedy.Css

/-- Where a list stands. -/
inductive Context where
  | top
  | argument (negated : Bool)
  | forgiving
  | relative
  deriving DecidableEq, Repr

def Context.isOpen (c : Context) : Bool := c != .top

/-- A compound being read. -/
structure Draft where
  tag : Option TagTest := none
  ids : List String := []
  classes : List String := []
  attributes : List AttributeTest := []
  nth : List (Counting × SelectorList) := []
  subs : List SelectorList := []
  contains : List ContainsTest := []
  languages : List (List String) := []
  conditions : List Condition := []
  isNever : Bool := false

def Draft.compound (d : Draft) (relation : Relation) : Compound :=
  if d.isNever then .never
  else .mk d.tag d.ids d.classes d.attributes d.nth d.subs relation d.contains d.languages d.conditions

/-- The state of reading a list. -/
structure ListState where
  draft : Draft := {}
  /-- Whether the compound being read has anything in it. -/
  filled : Bool := false
  /-- What the compound being read relates to. -/
  relation : Relation := .none
  done : List Compound := []
  /-- Inside `:has`: the compounds of the place being read, and how the next one relates to them. -/
  chain : List (Combinator × Draft) := []
  lead : Combinator := .descendant
  html : Bool := false

/-- The element asked about, for whom a chain of others is looked up, each from the one before. -/
def chainCompound (chain : List (Combinator × Draft)) : Compound :=
  ({} : Draft).compound (relationOf chain)
where
  relationOf : List (Combinator × Draft) → Relation
    | [] => .none
    | (c, d) :: rest => .future c (d.compound (relationOf rest))

/-! ### Tokens -/

def comparison? : List Char → Option (Comparison × Bool × List Char)
  | '=' :: rest => some (.equal, false, rest)
  | '!' :: '=' :: rest => some (.equal, true, rest)
  | '~' :: '=' :: rest => some (.hasWord, false, rest)
  | '^' :: '=' :: rest => some (.startsWith, false, rest)
  | '|' :: '=' :: rest => some (.hasLead, false, rest)
  | '*' :: '=' :: rest => some (.contains, false, rest)
  | '$' :: '=' :: rest => some (.endsWith, false, rest)
  | _ => none

/-- A name that may have a prefix, a star or nothing at all before a bar. -/
def prefixed? (star : Bool) (cs : List Char) : Option (Option String × String × List Char) :=
  let nameOrStar? (cs : List Char) : Option (String × List Char) :=
    match cs with
    | '*' :: rest => if star then some ("*", rest) else none
    | _ => name? cs
  let space : Option (String × List Char) :=
    match cs with
    | '|' :: rest => some ("", rest)
    | '*' :: '|' :: rest => some ("*", rest)
    | _ => match name? cs with
      | some (s, '|' :: rest) => some (s, rest)
      | _ => none
  match space with
  | some (s, rest) =>
    match nameOrStar? rest with
    | some (n, after) => some (some s, n, after)
    | none => (nameOrStar? cs).map fun (n, after) => (none, n, after)
  | none => (nameOrStar? cs).map fun (n, after) => (none, n, after)

/-- An attribute test after its bracket, and whether it is to fail. -/
def attribute? (cs : List Char) : Option (AttributeTest × Bool × List Char) := do
  let (_, name, rest) ← prefixed? false (blanks cs)
  match closed? ']' rest with
  | some after => some (⟨name, none, false⟩, false, after)
  | none =>
    let (c, negated, rest) ← comparison? (blanks rest)
    let (value, rest) ← value? (blanks rest)
    match closed? ']' rest with
    | some after => some (⟨name, some (c, value), lowerAscii name == "type"⟩, negated, after)
    | none =>
      match blanks rest with
      | flag :: more =>
        let flag := flag.toLower
        if flag == 'i' || flag == 's' then
          (closed? ']' more).map fun after => (⟨name, some (c, value), flag == 'i'⟩, negated, after)
        else none
      | [] => none

/-- A combinator, with the blanks around it. -/
def combinator? (cs : List Char) : Option (Char × List Char) :=
  let (spaced, rest) := skipBlanks (cs.length + 1) cs
  match rest with
  | c :: after =>
    if ",+>~".contains c then some (c, blanks after)
    else if spaced then some (' ', rest) else none
  | [] => none

/-- The word `of` between blanks. -/
def afterOf? (cs : List Char) : Option (List Char) :=
  let (spaced, rest) := skipBlanks (cs.length + 1) cs
  if !spaced then none else do
    let after ← word? "of" rest
    let (spaced, body) := skipBlanks (after.length + 1) after
    if spaced then some body else none

/-! ### Pseudo-classes -/

/-- Pseudo-classes that nothing fits here, since nothing happens to a page that is only read. -/
def idlePseudos : List String :=
  ["active", "autofill", "buffering", "current", "focus", "focus-visible", "focus-within", "fullscreen", "future",
   "host", "hover", "local-link", "modal", "past", "paused", "picture-in-picture", "playing", "popover-open", "seeking",
   "stalled", "target", "target-within", "user-invalid", "visited", "volume-locked"]

def idleFunctions : List String := ["current", "host", "host-context"]

def listFunctions : List String :=
  ["contains", "-soup-contains", "-soup-contains-own", "has", "is", "matches", "not", "where"]

/-- Pseudo-classes that stand for a selector, which is read with the prefix `html` known. -/
def standsFor? (name : String) : Option (String × Option Condition) :=
  let disabled := "html|*:is(input:not([type=hidden]), button, select, textarea, fieldset, optgroup, option, fieldset)"
    ++ "[disabled], html|optgroup[disabled] > html|option, html|fieldset[disabled] > "
    ++ "html|*:is(input:not([type=hidden]), button, select, textarea, fieldset), html|fieldset[disabled] > "
    ++ "html|*:not(legend:nth-of-type(1)) html|*:is(input:not([type=hidden]), button, select, textarea, fieldset)"
  let ranged := "html|input:is([type=\"date\"], [type=\"month\"], [type=\"week\"], [type=\"time\"], "
    ++ "[type=\"datetime-local\"], [type=\"number\"], [type=\"range\"]):is([min], [max])"
  match name with
  | "link" => some ("html|*:is(a, area)[href]", none)
  | "any-link" => some ("html|*:is(a, area)[href]", none)
  | "checked" =>
    some ("html|*:is(input[type=checkbox], input[type=radio])[checked], html|option[selected]", none)
  | "default" => some (":checked, html|form html|*:is(button, input)[type=\"submit\"]", some .firstSubmit)
  | "indeterminate" =>
    some ("html|input[type=\"checkbox\"][indeterminate], html|input[type=\"radio\"]:is(:not([name]), [name=\"\"])"
      ++ ":not([checked]), html|progress:not([value]), "
      ++ "html|input[type=\"radio\"][name]:not([name='']):not([checked])", some .noneChecked)
  | "disabled" => some (disabled, none)
  | "enabled" =>
    some ("html|*:is(input:not([type=hidden]), button, select, textarea, fieldset, optgroup, option, fieldset)"
      ++ ":not(:disabled)", none)
  | "required" => some ("html|*:is(input, select, textarea)[required]", none)
  | "optional" => some ("html|*:is(input, select, textarea):not([required])", none)
  | "open" => some ("html|*:is(details, dialog)[open]", none)
  | "muted" => some ("html|*:is(video, audio)[muted]", none)
  | "placeholder-shown" =>
    some ("html|input:is(:not([type]), [type=\"\"], [type=text], [type=search], [type=url], [type=tel], [type=email], "
      ++ "[type=password], [type=number])[placeholder]:not([placeholder='']):is(:not([value]), [value=\"\"]), "
      ++ "html|textarea[placeholder]:not([placeholder=''])", some .noContent)
  | "read-write" =>
    some ("html|*:is(textarea, input:is(:not([type]), [type=\"\"], [type=date], [type=datetime-local], [type=email], "
      ++ "[type=month], [type=number], [type=password], [type=search], [type=tel], [type=text], [type=time], "
      ++ "[type=url], [type=week])):not([readonly], :disabled), "
      ++ "html|*:is([contenteditable=\"\"], [contenteditable=\"true\" i])", none)
  | "read-only" => some ("html|*:not(:read-write)", none)
  | "in-range" => some (ranged, some .inRange)
  | "out-of-range" => some (ranged, some .outOfRange)
  | _ => none

/-- Pseudo-classes that test a condition of their own. -/
def condition? : String → Option Condition
  | "root" => some .root
  | "scope" => some .scope
  | "defined" => some .defined
  | "empty" => some .empty
  | _ => none

/-- The first or the last sibling; an empty list asks nothing of the siblings counted. -/
def counted (ofType fromEnd : Bool) : Counting × SelectorList := (⟨⟨0, 1⟩, ofType, fromEnd⟩, .mk [] false false)

/-- Pseudo-classes that count siblings. -/
def counting? : String → Option (List (Counting × SelectorList))
  | "first-child" => some [counted false false]
  | "last-child" => some [counted false true]
  | "first-of-type" => some [counted true false]
  | "last-of-type" => some [counted true true]
  | "only-child" => some [counted false false, counted false true]
  | "only-of-type" => some [counted true false, counted true true]
  | _ => none

/-- Adds a condition to the last compound of a list, in place of all others it has. -/
def withCondition (c : Condition) : SelectorList → SelectorList
  | .mk alternatives negated html =>
    .mk (match alternatives.reverse with
      | .mk tag ids classes attributes nth subs relation contains languages _ :: before =>
        (Compound.mk tag ids classes attributes nth subs relation contains languages [c] :: before).reverse
      | _ => alternatives) negated html

/-- Ends a place in a list: at a comma or at the end. -/
def ListState.endPlace (s : ListState) (context : Context) : Option ListState :=
  match context with
  | .relative =>
    if s.filled then
      some { s with done := s.done ++ [chainCompound (s.chain ++ [(s.lead, s.draft)])], chain := [], lead := .descendant,
                    draft := {}, filled := false }
    else none
  | .forgiving =>
    if s.filled then
      some { s with done := s.done ++ [s.draft.compound s.relation], relation := .none, draft := {}, filled := false }
    else some { s with done := s.done ++ [.never], relation := .none, draft := {}, filled := false }
  | _ =>
    if s.filled then
      some { s with done := s.done ++ [s.draft.compound s.relation], relation := .none, draft := {}, filled := false }
    else none

def combinatorOf : Char → Combinator
  | '>' => .child
  | '~' => .sibling
  | '+' => .adjacent
  | _ => .descendant

/-- Takes a combinator other than a comma. -/
def ListState.relate (s : ListState) (context : Context) (c : Combinator) : Option ListState :=
  match context with
  | .relative =>
    if s.filled then
      some { s with chain := s.chain ++ [(s.lead, s.draft)], lead := c, draft := {}, filled := false }
    else if s.lead == .descendant then some { s with lead := c, draft := {}, filled := false }
    else none
  | _ =>
    if s.filled then
      some { s with relation := .past c (s.draft.compound s.relation), draft := {}, filled := false }
    else none

/-- The list once it has ended. -/
def ListState.finish? (s : ListState) (context : Context) : Option SelectorList :=
  let negated := context == .argument true
  if s.filled then (s.endPlace context).map fun t => .mk t.done negated s.html
  else if context == .forgiving && (s.done.isEmpty || s.relation matches .none) then
    some (.mk (s.done ++ [.never]) negated s.html)
  else none

mutual

/-- Reads a list up to its end, or past the bracket that closes it. `size` is the length of the whole text. -/
def readList (size : Nat) : Nat → Context → ListState → List Char → Except SelectorError (SelectorList × List Char)
  | 0, _, _, _ => .error .invalid
  | fuel + 1, context, s, cs =>
    match closed? ')' cs with
    | some rest =>
      if !context.isOpen || (!s.filled && context != .forgiving) then .error .invalid
      else match s.finish? context with
        | some l => .ok (l, rest)
        | none => .error .invalid
    | none =>
      -- Blanks at the end of a text mean nothing.
      match if (blanks cs).isEmpty then [] else cs with
      | [] =>
        if context.isOpen then .error .invalid
        else match s.finish? context with
          | some l => .ok (l, [])
          | none => .error .invalid
      | c :: body =>
        if c == ':' then do
          let (next, rest) ← readPseudo size fuel s body
          readList size fuel context next rest
        else if c == '&' then
          let draft := { s.draft with conditions := s.draft.conditions ++ [.scope] }
          readList size fuel context { s with draft, filled := true } body
        else if c == '@' then
          match word? "p" body with
          | some rest => if beginsName rest then .error (.atRule (size - cs.length)) else .error .invalid
          | none => .error .invalid
        else if c == '#' then
          match name? body with
          | some (name, rest) =>
            let draft := { s.draft with ids := s.draft.ids ++ [name] }
            readList size fuel context { s with draft, filled := true } rest
          | none => .error .invalid
        else if c == '.' then
          match name? body with
          | some (name, rest) =>
            let draft := { s.draft with classes := s.draft.classes ++ [name] }
            readList size fuel context { s with draft, filled := true } rest
          | none => .error .invalid
        else if c == '[' then
          match attribute? body with
          | some (test, negated, rest) =>
            let draft :=
              if negated then
                let inner : Draft := { attributes := [test] }
                { s.draft with subs := s.draft.subs ++ [.mk [inner.compound .none] true false] }
              else { s.draft with attributes := s.draft.attributes ++ [test] }
            readList size fuel context { s with draft, filled := true } rest
          | none => .error .invalid
        else match prefixed? true cs with
          | some (space, name, rest) =>
            if s.filled then .error .invalid
            else
              let draft := { s.draft with tag := some ⟨space, name⟩ }
              readList size fuel context { s with draft, filled := true } rest
          | none =>
            match combinator? cs with
            | some (',', rest) =>
              match s.endPlace context with
              | some next => readList size fuel context next rest
              | none => .error .invalid
            | some (c, rest) =>
              match s.relate context (combinatorOf c) with
              | some next => readList size fuel context next rest
              | none => .error .invalid
            | none => .error .invalid

/-- Reads a pseudo-class after its colon. -/
def readPseudo (size : Nat) : Nat → ListState → List Char → Except SelectorError (ListState × List Char)
  | 0, _, _ => .error .invalid
  | fuel + 1, s, cs =>
    match name? cs with
    | none =>
      match cs with
      | ':' :: rest => if beginsName rest then .error (.pseudoElement (size - cs.length - 1)) else .error .invalid
      | _ => .error .invalid
    | some (written, afterName) =>
      let name := lowerAscii written
      let add (d : Draft) (rest : List Char) : Except SelectorError (ListState × List Char) := .ok ({ s with draft := d, filled := true }, rest)
      let d := s.draft
      match afterName with
      | '(' :: body =>
        let body := blanks body
        match readSpecial size fuel name body with
        | some result => do
          let (change, rest) ← result
          let next := change s
          return ({ next with filled := true }, rest)
        | none =>
          if listFunctions.contains name then do
            let context : Context :=
              if name == "not" then .argument true
              else if name == "has" then .relative
              else if name == "is" || name == "where" then .forgiving
              else .argument false
            let (l, rest) ← readList size fuel context {} body
            add { d with subs := d.subs ++ [l] } rest
          else if idleFunctions.contains name then do
            let (_, rest) ← readList size fuel (.argument false) {} body
            add { d with isNever := true } rest
          else .error .invalid
      | _ =>
        match condition? name with
        | some c =>
          let html := s.html || c == .defined
          .ok ({ s with draft := { d with conditions := d.conditions ++ [c] }, filled := true, html }, afterName)
        | none =>
          match counting? name with
          | some nth => add { d with nth := d.nth ++ nth } afterName
          | none =>
            if idlePseudos.contains name then add { d with isNever := true } afterName
            else match standsFor? name with
              | none => .error .invalid
              | some (text, condition) => do
                let (l, _) ← readList text.length fuel .top { html := true } text.toList
                let l := match condition with
                  | some c => withCondition c l
                  | none => l
                add { d with subs := d.subs ++ [l] } afterName

/-- Reads a function with an argument of its own form; none if the name is another or the argument has another
form. -/
def readSpecial (size : Nat) :
    Nat → String → List Char → Option (Except SelectorError ((ListState → ListState) × List Char))
  | 0, _, _ => none
  | fuel + 1, name, body =>
    let change (f : Draft → Draft) : ListState → ListState := fun s => { s with draft := f s.draft }
    if ["contains", "-soup-contains", "-soup-contains-own"].contains name then do
      let (texts, rest) ← values? (body.length + 1) body
      let after ← closed? ')' rest
      let test : ContainsTest := ⟨texts, name == "-soup-contains-own"⟩
      some (.ok (change fun d => { d with contains := d.contains ++ [test] }, after))
    else if name == "lang" then do
      let (texts, rest) ← values? (body.length + 1) body
      let after ← closed? ')' rest
      some (.ok (change fun d => { d with languages := d.languages ++ [texts] }, after))
    else if name == "dir" then do
      let (c, rest) ← match word? "ltr" body with
        | some rest => some (Condition.leftToRight, rest)
        | none => (word? "rtl" body).map fun rest => (Condition.rightToLeft, rest)
      let after ← closed? ')' rest
      some (.ok (fun s =>
        let draft := { s.draft with conditions := s.draft.conditions ++ [c] }
        { s with draft, html := true }, after))
    else if ["nth-child", "nth-last-child"].contains name then do
      let (places, rest) ← places? body
      let counting : Counting := ⟨places, false, name == "nth-last-child"⟩
      match closed? ')' rest with
      | some after => some (.ok (change fun d => { d with nth := d.nth ++ [(counting, .mk [] false false)] }, after))
      | none => do
        let inner ← afterOf? rest
        some (match readList size fuel (.argument false) {} inner with
          | .ok (l, after) => .ok (change fun d => { d with nth := d.nth ++ [(counting, l)] }, after)
          | .error e => .error e)
    else if ["nth-of-type", "nth-last-of-type"].contains name then do
      let (places, rest) ← places? body
      let after ← closed? ')' rest
      let counting : Counting := ⟨places, true, name == "nth-last-of-type"⟩
      some (.ok (change fun d => { d with nth := d.nth ++ [(counting, .mk [] false false)] }, after))
    else none

end

/-- Reads a selector. -/
def parse (text : String) : Except SelectorError SelectorList := do
  let cs := text.toList.map fun c => if c == '\x00' then '\ufffd' else c
  let body := blanks cs
  let (l, _) ← readList cs.length (4 * cs.length + 2000) .top {} body
  return l

end Remedy.Css
