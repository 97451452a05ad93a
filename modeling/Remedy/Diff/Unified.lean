import Remedy.Diff.Matching
import Remedy.Text.Blank

/-!
Differences of two texts in the unified format: stretches of changed lines with three unchanged ones around them.

A line that does not end in a line feed is followed by a remark that says so.
-/

namespace Remedy.Diff

/-- A stretch of both sequences that is the same or that differs. -/
structure Stretch where
  same : Bool
  window : Window
  deriving DecidableEq, Repr

/-- How many unchanged lines are shown around a change. -/
def contextLines : Nat := 3

/-- The stretches between and at runs, from a place in both sequences on. -/
def stretchesFrom (i j high otherHigh : Nat) : List Run → List Stretch
  | [] => if i < high || j < otherHigh then [⟨false, ⟨i, high, j, otherHigh⟩⟩] else []
  | r :: rest =>
    let gap : List Stretch := if i < r.start || j < r.other then [⟨false, ⟨i, r.start, j, r.other⟩⟩] else []
    let next := stretchesFrom (r.start + r.size) (r.other + r.size) high otherHigh rest
    gap ++ ⟨true, ⟨r.start, r.start + r.size, r.other, r.other + r.size⟩⟩ :: next

def stretches (p : Pair) : List Stretch := stretchesFrom 0 0 p.first.size p.second.size p.runs

/-- Keeps the last lines of a window. -/
def Window.lastLines (w : Window) (n : Nat) : Window :=
  ⟨max w.low (w.high - n), w.high, max w.otherLow (w.otherHigh - n), w.otherHigh⟩

/-- Keeps the first lines of a window. -/
def Window.firstLines (w : Window) (n : Nat) : Window :=
  ⟨w.low, min w.high (w.low + n), w.otherLow, min w.otherHigh (w.otherLow + n)⟩

/-- Cuts the unchanged lines at the front down to the context. -/
def trimFront : List Stretch → List Stretch
  | ⟨true, w⟩ :: rest => ⟨true, w.lastLines contextLines⟩ :: rest
  | ss => ss

/-- Cuts the unchanged lines at the back down to the context. -/
def trimBack (ss : List Stretch) : List Stretch :=
  match ss.getLast? with
  | some ⟨true, w⟩ => ss.dropLast ++ [⟨true, w.firstLines contextLines⟩]
  | _ => ss

/-- Groups stretches: unchanged lines longer than twice the context part two groups. `group` is the one being made. -/
def groupsFrom (group : List Stretch) : List Stretch → List (List Stretch)
  | [] => [group]
  | s :: rest =>
    if s.same && 2 * contextLines < s.window.high - s.window.low then
      (group ++ [⟨true, s.window.firstLines contextLines⟩]) ::
        groupsFrom [⟨true, s.window.lastLines contextLines⟩] rest
    else groupsFrom (group ++ [s]) rest

/-- The groups that have a change in them. -/
def groups (ss : List Stretch) : List (List Stretch) :=
  (groupsFrom [] (trimBack (trimFront ss))).filter fun g => g.any fun s => !s.same

/-- Lines from `low` up to `high`, counted from one: the first and how many, or the one before if there are none. -/
def rangeText (low high : Nat) : String :=
  let n := high - low
  if n == 1 then toString (low + 1)
  else if n == 0 then s!"{low},0"
  else s!"{low + 1},{n}"

def slice (lines : Array Line) (low high : Nat) : List Line := (lines.toList.take high).drop low

def marked (mark : Char) (lines : List Line) : List Line := lines.map (mark :: ·)

def stretchLines (p : Pair) (s : Stretch) : List Line :=
  let w := s.window
  if s.same then marked ' ' (slice p.first w.low w.high)
  else marked '-' (slice p.first w.low w.high) ++ marked '+' (slice p.second w.otherLow w.otherHigh)

/-- A group with the line that says where it stands. -/
def groupLines (p : Pair) (g : List Stretch) : List Line :=
  let first := (g.head?.map (·.window)).getD ⟨0, 0, 0, 0⟩
  let last := (g.getLast?.map (·.window)).getD ⟨0, 0, 0, 0⟩
  let place := s!"@@ -{rangeText first.low last.high} +{rangeText first.otherLow last.otherHigh} @@\n"
  place.toList :: g.flatMap (stretchLines p)

/-- A line of a difference, with the remark if it does not end in a line feed. -/
def closedLine (l : Line) : List Char :=
  if l.getLast? == some '\n' then l else l ++ "\n\\ No newline at end of file\n".toList

/-- The lines of a difference, the names of the file on both sides first; none if there is no change. -/
def unifiedLines (p : Pair) (file : String) : List Line :=
  match groups (stretches p) with
  | [] => []
  | gs => s!"--- a/{file}\n".toList :: s!"+++ b/{file}\n".toList :: gs.flatMap (groupLines p)

/-- The difference of two texts. -/
def unified (source changed file : String) : String :=
  let p := Pair.of (Text.lines source.toList) (Text.lines changed.toList)
  String.ofList ((unifiedLines p file).flatMap closedLine)

end Remedy.Diff
