/-!
What two sequences of lines have in common: the longest run of equal lines first, then, in the same way, what lies
before it and after it.

In a long second sequence, lines that come very often begin no run; they only prolong one.
-/

namespace Remedy.Diff

abbrev Line := List Char

/-- Equal lines: `size` of them from `start` in the first sequence and from `other` in the second. -/
structure Run where
  start : Nat
  other : Nat
  size : Nat
  deriving DecidableEq, Repr, Inhabited

/-- Part of both sequences: from `low` up to `high` of the first, and likewise of the second. -/
structure Window where
  low : Nat
  high : Nat
  otherLow : Nat
  otherHigh : Nat
  deriving DecidableEq, Repr

/-- Two sequences of lines, with the lines that begin no run. -/
structure Pair where
  first : Array Line
  second : Array Line
  frequent : List Line

/-- From how many lines on a sequence is long. -/
def longFrom : Nat := 200

/-- The lines that make up more than a hundredth of a long sequence. -/
def frequentLines (lines : Array Line) : List Line :=
  if lines.size < longFrom then []
  else lines.toList.eraseDups.filter fun l => lines.size / 100 + 1 < lines.toList.count l

def Pair.of (first second : List Line) : Pair := ⟨first.toArray, second.toArray, frequentLines second.toArray⟩

namespace Pair

def line (p : Pair) (i : Nat) : Line := p.first.getD i []

def other (p : Pair) (j : Nat) : Line := p.second.getD j []

/-- For each line of the second sequence, how long the run is that ends there and at line `i` of the first; `before` are
the lengths at the line before. -/
def runsAt (p : Pair) (w : Window) (before : Array Nat) (i : Nat) : Array Nat :=
  ((List.range p.second.size).map fun j =>
    if w.otherLow ≤ j && j < w.otherHigh && p.line i == p.other j && !p.frequent.contains (p.other j) then
      (if j == 0 then 0 else before.getD (j - 1) 0) + 1
    else 0).toArray

/-- The better of a run and those that end at line `i`; the first of equally long ones stays. -/
def better (best : Run) (i : Nat) (lengths : Array Nat) : Run :=
  (List.range lengths.size).foldl (fun best j =>
    let k := lengths.getD j 0
    if best.size < k then ⟨i + 1 - k, j + 1 - k, k⟩ else best) best

/-- The longest run of lines, frequent ones aside. -/
def longestPlain (p : Pair) (w : Window) : Run :=
  ((List.range (w.high - w.low)).foldl (fun (best, lengths) d =>
    let i := w.low + d
    let next := p.runsAt w lengths i
    (better best i next, next)) ((⟨w.low, w.otherLow, 0⟩ : Run), #[])).1

/-- Prolongs a run to the front, by so many lines at most. -/
def prolongFront (p : Pair) (w : Window) : Nat → Run → Run
  | 0, r => r
  | fuel + 1, r =>
    if w.low < r.start && w.otherLow < r.other && p.line (r.start - 1) == p.other (r.other - 1) then
      prolongFront p w fuel ⟨r.start - 1, r.other - 1, r.size + 1⟩
    else r

/-- Prolongs a run to the back, by so many lines at most. -/
def prolongBack (p : Pair) (w : Window) : Nat → Run → Run
  | 0, r => r
  | fuel + 1, r =>
    if r.start + r.size < w.high && r.other + r.size < w.otherHigh &&
        p.line (r.start + r.size) == p.other (r.other + r.size) then
      prolongBack p w fuel ⟨r.start, r.other, r.size + 1⟩
    else r

def longest (p : Pair) (w : Window) : Run :=
  let reach := w.high - w.low
  p.prolongBack w reach (p.prolongFront w reach (p.longestPlain w))

/-- The runs in a window, in order; `fuel` bounds how often it is cut. -/
def runsFrom (p : Pair) : Nat → Window → List Run
  | 0, _ => []
  | fuel + 1, w =>
    let r := p.longest w
    if r.size == 0 then []
    else
      let before := if w.low < r.start && w.otherLow < r.other then
        runsFrom p fuel ⟨w.low, r.start, w.otherLow, r.other⟩ else []
      let after := if r.start + r.size < w.high && r.other + r.size < w.otherHigh then
        runsFrom p fuel ⟨r.start + r.size, w.high, r.other + r.size, w.otherHigh⟩ else []
      before ++ r :: after

/-- Joins runs that follow each other in both sequences; `r` is the run being joined. -/
def joinRuns (r : Run) : List Run → List Run
  | [] => if r.size == 0 then [] else [r]
  | s :: rest =>
    if r.start + r.size == s.start && r.other + r.size == s.other then
      joinRuns ⟨r.start, r.other, r.size + s.size⟩ rest
    else if r.size == 0 then joinRuns s rest
    else r :: joinRuns s rest

/-- All that the two sequences have in common, in order. -/
def runs (p : Pair) : List Run :=
  joinRuns ⟨0, 0, 0⟩ (p.runsFrom (p.first.size + 1) ⟨0, p.first.size, 0, p.second.size⟩)

end Pair

end Remedy.Diff
