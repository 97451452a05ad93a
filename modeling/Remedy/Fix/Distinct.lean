import Remedy.Fix.Notice
import Remedy.Fix.Wire

/-!
Dropping fixes that say the same as one before them.
-/

namespace Remedy.Fix

/-- Whether a fix says the same as one of those before it. -/
def isRepeated (before : List Fix) (f : Fix) : Bool := before.any fun g => g.identity == f.identity

/-- The fixes that say something new, and a notice for each of the others; `before` holds those kept so far. -/
def distinctFrom (before : List Fix) : List Fix → List Fix × List Notice
  | [] => ([], [])
  | f :: rest =>
    if isRepeated before f then
      let (kept, notices) := distinctFrom before rest
      (kept, .duplicate f :: notices)
    else
      let (kept, notices) := distinctFrom (before ++ [f]) rest
      (f :: kept, notices)

/-- The first of all fixes that say the same, in order. -/
def distinct (fixes : List Fix) : List Fix × List Notice := distinctFrom [] fixes

end Remedy.Fix
