import Remedy.Json.Access

/-!
What a model is told: its task, and the file to repair with the errors found in it.
-/

namespace Remedy.Repair

def systemPrompt : String := "\n".intercalate [
  "You repair front-end source files that no longer parse after an automated accessibility edit.",
  "Return the complete corrected file and nothing else.",
  "Rules:",
  "1. Fix only the reported syntax errors; keep every accessibility attribute and tag change that was applied.",
  "2. Do not reformat, reorder, or rename anything that is not part of an error.",
  "3. Do not add explanations, comments, quotes, or markdown code fences."]

/-- The file of a request and its errors, one on a line. What the request does not say is empty. -/
def userPrompt (payload : Json) : Except Json.AccessFault String := do
  let errors ← Json.joinTexts "\n" (← (← payload.member "errors" (.arr [])).items)
  let said (key : String) : Except Json.AccessFault String := do
    let value ← payload.member key (.str "")
    .ok value.plain
  let file ← said "file_path"
  let language ← said "language"
  let content ← said "content"
  .ok s!"File: {file}\nLanguage: {language}\nErrors:\n{errors}\n\nCode:\n{content}"

end Remedy.Repair
