import Remedy.Json.Reader
import Remedy.Repair.Provider
import Remedy.Text.Blank
import Remedy.Text.Case

/-!
Clients of the services that repair code.

A client sends one request for each repair. A lazy client is set up by the environment at the first call that finds a
service and a key there, and stays with that service, key and model from then on.
-/

namespace Remedy

/-- The variables of an environment and their values. -/
abbrev Environment := List (String × String)

structure HttpRequest where
  address : String
  headers : List (String × String)
  body : Json

namespace HttpRequest

def method : String := "POST"

/-- How long an answer is waited for, in seconds. -/
def timeout : Int := 120

end HttpRequest

/-- What comes of a request. -/
inductive HttpAnswer where
  | ok (body : String)
  | refused (status : Int) (detail : String)
  | unreachable (reason : String)

/-- A call for repair: what was sent, if anything was, and the text it gave. -/
structure Exchange where
  sent : Option HttpRequest
  reply : Except RepairError String

structure Client where
  provider : Provider
  key : String
  model : String
  deriving DecidableEq, Repr

namespace Client

/-- A client with the model given or, if none is, that of the environment. -/
def of (provider : Provider) (key : String) (model : Option String) (env : Environment) : Client :=
  let standard := (env.lookup provider.modelVariable).getD provider.standardModel
  let model := match model with
    | some m => if m.isEmpty then standard else m
    | none => standard
  ⟨provider, key, model⟩

/-- The name of the service that the environment asks for. -/
def namedIn (env : Environment) : String := Text.lower (Text.strip ((env.lookup "LLM_PROVIDER").getD "openai"))

/-- The client that the environment asks for, with a key that is not empty. -/
def ofEnvironment (env : Environment) : Except RepairError Client :=
  match Provider.named? (namedIn env) with
  | none => .error (.unsupported (namedIn env))
  | some p =>
    match env.lookup p.keyVariable with
    | none => .error (.missingKey p)
    | some key => if key.isEmpty then .error (.missingKey p) else .ok (of p key none env)

/-- The request that carries a prompt. -/
def request (c : Client) (prompt : String) : HttpRequest :=
  { address := c.provider.address c.model, headers := c.provider.headers c.key, body := c.provider.body c.model prompt }

/-- The text in what came of a request; it must not be blank. -/
def readAnswer (c : Client) : HttpAnswer → Except RepairError String
  | .unreachable reason => .error (.unreachable (c.provider.address c.model) reason)
  | .refused status detail => .error (.refused (c.provider.address c.model) status detail)
  | .ok body => do
    match Json.parse? body with
    | none => .error .notJson
    | some answer =>
      let text ← c.provider.replyText answer
      if Text.isBlankText text then .error (.emptyReply c.provider) else .ok text

/-- One call for repair; `answer` is what comes of the request if it is sent. -/
def repair (c : Client) (payload : Json) (answer : HttpAnswer) : Exchange :=
  match Repair.userPrompt payload with
  | .error fault => ⟨none, .error (.malformed fault)⟩
  | .ok prompt => ⟨some (c.request prompt), c.readAnswer answer⟩

end Client

structure LazyClient where
  /-- The name of the service: the one first asked for, then that of the client. -/
  provider : String
  client : Option Client
  deriving DecidableEq, Repr

namespace LazyClient

def ofEnvironment (env : Environment) : LazyClient := ⟨Client.namedIn env, none⟩

/-- One call for repair, in the environment as it is then. -/
def repair (c : LazyClient) (env : Environment) (payload : Json) (answer : HttpAnswer) : LazyClient × Exchange :=
  match c.client with
  | some client => (c, client.repair payload answer)
  | none =>
    match Client.ofEnvironment env with
    | .error e => (c, ⟨none, .error e⟩)
    | .ok client => (⟨client.provider.name, some client⟩, client.repair payload answer)

end LazyClient

end Remedy
