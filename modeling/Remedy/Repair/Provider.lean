import Remedy.Repair.Prompt

/-!
The services that repair code: how each one is addressed, what it is sent, and where the text is in what it answers.
-/

namespace Remedy

inductive Provider where
  | openai
  | anthropic
  | gemini
  deriving DecidableEq, Repr

/-- Why a call for repair gives no text. -/
inductive RepairError where
  | unsupported (provider : String)
  | missingKey (p : Provider)
  | malformed (fault : Json.AccessFault)
  | notJson
  | refused (address : String) (status : Int) (detail : String)
  | unreachable (address reason : String)
  | noCandidates
  | emptyReply (p : Provider)
  deriving DecidableEq, Repr

namespace Provider

def all : List Provider := [.openai, .anthropic, .gemini]

def name : Provider → String
  | openai => "openai"
  | anthropic => "anthropic"
  | gemini => "gemini"

def named? (name : String) : Option Provider := all.find? fun p => p.name == name

/-- The variable of the environment that holds the key. -/
def keyVariable : Provider → String
  | openai => "OPENAI_API_KEY"
  | anthropic => "ANTHROPIC_API_KEY"
  | gemini => "GEMINI_API_KEY"

/-- The variable of the environment that names the model. -/
def modelVariable : Provider → String
  | openai => "OPENAI_MODEL"
  | anthropic => "ANTHROPIC_MODEL"
  | gemini => "GEMINI_MODEL"

/-- The model where none is named. -/
def standardModel : Provider → String
  | openai => "gpt-4o-mini"
  | anthropic => "claude-3-5-sonnet-latest"
  | gemini => "gemini-2.5-flash"

def address (model : String) : Provider → String
  | openai => "https://api.openai.com/v1/chat/completions"
  | anthropic => "https://api.anthropic.com/v1/messages"
  | gemini => s!"https://generativelanguage.googleapis.com/v1beta/models/{model}:generateContent"

/-- The headers of a request, each name in small letters. -/
def headers (key : String) : Provider → List (String × String)
  | openai => [("authorization", s!"Bearer {key}"), ("content-type", "application/json")]
  | anthropic => [("x-api-key", key), ("anthropic-version", "2023-06-01"), ("content-type", "application/json")]
  | gemini => [("x-goog-api-key", key), ("content-type", "application/json")]

/-- How many tokens an answer may have where that has to be said: answers carry whole files. -/
def maxTokens : Int := 8192

def turn (role prompt : String) : Json := .obj [("role", .str role), ("content", .str prompt)]

/-- A text in parts, of which there is one. -/
def parts (text : String) : String × Json := ("parts", .arr [.obj [("text", .str text)]])

def body (model prompt : String) : Provider → Json
  | openai => .obj [("model", .str model), ("temperature", .int 0),
      ("messages", .arr [turn "system" Repair.systemPrompt, turn "user" prompt])]
  | anthropic => .obj [("model", .str model), ("max_tokens", .int maxTokens), ("temperature", .int 0),
      ("system", .str Repair.systemPrompt), ("messages", .arr [turn "user" prompt])]
  | gemini => .obj [("system_instruction", .obj [parts Repair.systemPrompt]),
      ("contents", .arr [.obj [("role", .str "user"), parts prompt]]),
      ("generationConfig", .obj [("temperature", .int 0)])]

/-- The texts of the items that are objects, joined. -/
def textOfParts (parts : Json) : Except Json.AccessFault String := do
  let blocks := (← parts.items).filter fun v => match v with
    | .obj _ => true
    | _ => false
  Json.joinTexts "" (← blocks.mapM fun b => b.member "text" (.str ""))

/-- A field of an answer, empty where it is void. -/
def choices (key : String) (answer : Json) : Except Json.AccessFault (Option Json) := do
  let found ← answer.member key .null
  if found.isVoid then .ok none else .ok (some (← found.firstItem))

def liftFault (r : Except Json.AccessFault α) : Except RepairError α := r.mapError .malformed

/-- The text in an answer. -/
def replyText (answer : Json) : Provider → Except RepairError String
  | openai => liftFault do
    match ← choices "choices" answer with
    | none => .ok ""
    | some first =>
      let content ← (← first.member "message" (.obj [])).member "content" .null
      if content.isVoid then .ok "" else content.asText
  | anthropic => liftFault do textOfParts (← answer.member "content" (.arr []))
  | gemini => do
    match ← liftFault (choices "candidates" answer) with
    | none => .error .noCandidates
    | some first => liftFault do textOfParts (← (← first.member "content" (.obj [])).member "parts" (.arr []))

end Provider

def RepairError.message : RepairError → String
  | unsupported provider => s!"Unsupported LLM provider: {provider}"
  | missingKey p => s!"{p.keyVariable} is required when LLM_PROVIDER={p.name}"
  | malformed fault => fault.message
  | notJson => "The answer is not JSON"
  | refused address status detail => s!"Repair request to {address} failed with status {status}: {detail}"
  | unreachable address reason => s!"Repair request to {address} could not be completed: {reason}"
  | noCandidates => "Gemini returned no candidates"
  | emptyReply p => s!"{p.name} returned an empty response"

end Remedy
