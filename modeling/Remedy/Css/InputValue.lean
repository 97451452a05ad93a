/-!
Values of form fields that have an order: dates, times and numbers.
-/

namespace Remedy.Css

/-- A value as numbers of falling weight, each a fraction of a power of ten. -/
structure InputValue where
  parts : List Int
  scale : Nat
  deriving DecidableEq, Repr

namespace InputValue

def number? (cs : List Char) : Option Nat :=
  if cs.isEmpty || !cs.all Char.isDigit then none
  else some (cs.foldl (fun n c => n * 10 + (c.toNat - 48)) 0)

def twoDigits? (cs : List Char) : Option Nat := if cs.length == 2 then number? cs else none

def year? (cs : List Char) : Option Nat := if 4 ≤ cs.length then number? cs else none

/-- What stands before and after the first of a character. -/
def split? (c : Char) (cs : List Char) : Option (List Char × List Char) :=
  match cs.dropWhile (· != c) with
  | [] => none
  | _ :: rest => some (cs.takeWhile (· != c), rest)

def isLeap (year : Nat) : Bool := (year % 4 == 0 && year % 100 != 0) || year % 400 == 0

def daysIn (year month : Nat) : Nat :=
  if month == 2 then (if isLeap year then 29 else 28)
  else if [4, 6, 9, 11].contains month then 30 else 31

def month? (cs : List Char) : Option (Nat × Nat) := do
  let (y, m) ← split? '-' cs
  let year ← year? y
  let month ← twoDigits? m
  if 1 ≤ year && 1 ≤ month && month ≤ 12 then some (year, month) else none

def date? (cs : List Char) : Option (List Int) := do
  let (y, rest) ← split? '-' cs
  let (m, d) ← split? '-' rest
  let (year, month) ← month? (y ++ '-' :: m)
  let day ← twoDigits? d
  if 1 ≤ day && day ≤ daysIn year month then some [(year : Int), (month : Int), (day : Int)] else none

/-- A year has 53 weeks if it begins on a Thursday, or on a Wednesday and is a leap year. -/
def weeksIn (year : Nat) : Nat :=
  let before := year - 1
  let firstDay := (before * 365 + before / 4 - before / 100 + before / 400) % 7
  if firstDay == 3 || (isLeap year && firstDay == 2) then 53 else 52

def week? (cs : List Char) : Option (List Int) := do
  let (y, rest) ← split? '-' cs
  let year ← year? y
  match rest with
  | 'W' :: w =>
    let week ← twoDigits? w
    if 1 ≤ year && 1 ≤ week && week ≤ weeksIn year then some [(year : Int), (week : Int)] else none
  | _ => none

def time? (cs : List Char) : Option (List Int) := do
  let (h, m) ← split? ':' cs
  let hour ← twoDigits? h
  let minute ← twoDigits? m
  if hour ≤ 23 && minute ≤ 59 then some [(hour : Int), (minute : Int)] else none

def decimal? (cs : List Char) : Option InputValue := do
  let (negative, body) := match cs with
    | '-' :: rest => (true, rest)
    | _ => (false, cs)
  let whole := body.takeWhile (· != '.')
  let fraction ← match body.dropWhile (· != '.') with
    | [] => some []
    | _ :: digits => if (number? digits).isSome then some digits else none
  if whole.isEmpty && fraction.isEmpty then none else
    let n ← number? (whole ++ fraction)
    some ⟨[if negative then -(n : Int) else n], fraction.length⟩

/-- The value of a field of a kind, if the text is one. -/
def read? (kind text : String) : Option InputValue :=
  let cs := text.toList
  match kind with
  | "date" => (date? cs).map (⟨·, 0⟩)
  | "month" => (month? cs).map fun (y, m) => ⟨[(y : Int), (m : Int)], 0⟩
  | "week" => (week? cs).map (⟨·, 0⟩)
  | "time" => (time? cs).map (⟨·, 0⟩)
  | "datetime-local" => do
    let (d, t) ← split? 'T' cs
    some ⟨(← date? d) ++ (← time? t), 0⟩
  | "number" => decimal? cs
  | "range" => decimal? cs
  | _ => none

def lessParts : List Int → List Int → Bool
  | a :: as, b :: bs => a < b || (a == b && lessParts as bs)
  | [], _ :: _ => true
  | _, [] => false

def less (a b : InputValue) : Bool :=
  lessParts (a.parts.map (· * (Nat.pow 10 b.scale : Nat))) (b.parts.map (· * (Nat.pow 10 a.scale : Nat)))

/-- Whether a value of a kind lies between bounds. Times may run past midnight. -/
def isInRange (kind : String) (low high : Option InputValue) (value : InputValue) : Bool :=
  let tooLow := match low with
    | some l => value.less l
    | none => false
  let tooHigh := match high with
    | some h => h.less value
    | none => false
  let wraps := match low, high with
    | some l, some h => kind == "time" && h.less l
    | _, _ => false
  if wraps then !(tooLow && tooHigh) else !(tooLow || tooHigh)

end InputValue

end Remedy.Css
