import Remedy.Run.Workspace

/-!
The verification of a patched text: it is checked, healed once at most if it is not valid, and checked again.
-/

namespace Remedy

inductive Verification where
  /-- The text is good as it is. -/
  | sound (content : String)
  /-- The text was not valid, and has been healed. -/
  | mended (content : String) (errors : List String)
  | refused (errors : List String)
  /-- The text cannot be checked. -/
  | rejected (r : Markup.Rejection)
  deriving Repr

namespace Verification

def accepted? : Verification → Option String
  | sound content => some content
  | mended content _ => some content
  | _ => none

/-- What was found wrong on the way. -/
def errors : Verification → List String
  | mended _ errors => errors
  | refused errors => errors
  | _ => []

def isMended : Verification → Bool
  | mended .. => true
  | _ => false

/-- What comes of a second check. -/
def ofSecond (content : String) (before : List String) : Verdict → Verification
  | .error r => .rejected r
  | .ok report => if report.isValid then .mended content before else .refused report.errors

end Verification

namespace Tools

/-- Verifies a text for a file; `s` is the state of those who check and heal. -/
def verify (tools : Tools σ) (file : Path) (content : String) (s : σ) : Verification × σ × List Event :=
  if !tools.config.patch.verify then (.sound content, s, [])
  else
    let (first, s) := tools.check file content s
    match first with
    | .error r => (.rejected r, s, [.checked content first])
    | .ok report =>
      if report.isValid then (.sound content, s, [.checked content first])
      else
        let seen : List Event := [.checked content first, .warned (.invalid file report.errors.length)]
        match tools.activeHealer? with
        | none => (.refused report.errors, s, seen)
        | some healer =>
          let (result, s) := healer.heal content report.errors file.text s
          let seen := seen ++ [.healed content result]
          match result with
          | .error e => (.refused (report.errors ++ [s!"heal failed: {e.message}"]), s, seen)
          | .ok healed =>
            let (second, s) := tools.check file healed s
            (.ofSecond healed report.errors second, s, seen ++ [.checked healed second])

end Tools

end Remedy
