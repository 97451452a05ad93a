import Mathlib.Data.List.Forall2
import Remedy.Repair.Client
import Remedy.Repair.Request

/-!
A lazy client through many calls, whatever becomes of the environment and of the requests between them.

As long as the environment offers no service with a key, the client sends nothing and stays as it was made. The first
environment that offers one settles everything for good: from then on a call is a call of the client that this environment
makes, and no later environment is even looked at. What a request goes to is read off the request itself: its address, the one
header with a key, and the model, which stands in the body or is a part of the address.
-/

namespace Remedy

/-! ### What an environment offers -/

namespace Provider

end Provider

namespace Client

end Client

/-! ### Requests -/

namespace HttpRequest

/-- The headers of a request that carry a key, under any of the names that services have for them. -/
def credentials (r : HttpRequest) : List (String × String) :=
  r.headers.filter fun h => ["authorization", "x-api-key", "x-goog-api-key"].contains h.1

/-- A request goes to a service, with one key and for a model, which is named in the body or is a part of the address. -/
inductive GoesTo (r : HttpRequest) : Provider → String → String → Prop where
  | openai {key model : String} (address : r.address = "https://api.openai.com/v1/chat/completions")
      (credentials : r.credentials = [("authorization", "Bearer " ++ key)])
      (body : r.body.field? "model" = some (.str model)) : GoesTo r .openai key model
  | anthropic {key model : String} (address : r.address = "https://api.anthropic.com/v1/messages")
      (credentials : r.credentials = [("x-api-key", key)])
      (body : r.body.field? "model" = some (.str model)) : GoesTo r .anthropic key model
  | gemini {key model : String}
      (address : r.address = "https://generativelanguage.googleapis.com/v1beta/models/" ++ model ++ ":generateContent")
      (credentials : r.credentials = [("x-goog-api-key", key)]) : GoesTo r .gemini key model

/-- A request tells the service, the key and the model. -/
theorem GoesTo.unique {r : HttpRequest} {p p' : Provider} {key key' model model' : String} (h : r.GoesTo p key model)
    (h' : r.GoesTo p' key' model') : p' = p ∧ key' = key ∧ model' = model := by
  have value {name name' value value' : String} (own : r.credentials = [(name, value)])
      (own' : r.credentials = [(name', value')]) : name' = name ∧ value' = value :=
    Prod.mk.inj (List.head_eq_of_cons_eq (own'.symm.trans own))
  have named (own : r.body.field? "model" = some (.str model)) (own' : r.body.field? "model" = some (.str model')) :
      model' = model := Json.str.inj (Option.some.inj (own'.symm.trans own))
  -- Services have headers of different names, so those of one request are of one service.
  cases h with
  | openai _ own body =>
    cases h' with
    | openai _ own' body' => exact ⟨rfl, (String.append_right_inj _).mp (value own own').2, named body body'⟩
    | anthropic _ own' => exact absurd (value own own').1 (by decide)
    | gemini _ own' => exact absurd (value own own').1 (by decide)
  | anthropic _ own body =>
    cases h' with
    | openai _ own' => exact absurd (value own own').1 (by decide)
    | anthropic _ own' body' => exact ⟨rfl, (value own own').2, named body body'⟩
    | gemini _ own' => exact absurd (value own own').1 (by decide)
  | gemini address own =>
    cases h' with
    | openai _ own' => exact absurd (value own own').1 (by decide)
    | anthropic _ own' => exact absurd (value own own').1 (by decide)
    | gemini address' own' =>
      have path := (String.append_left_inj _).mp (address'.symm.trans address)
      exact ⟨rfl, (value own own').2, (String.append_right_inj _).mp path⟩

end HttpRequest

namespace Client

end Client

namespace LazyClient

/-! ### One call -/

/-- A call: the environment at that time, what is to be repaired, and what would come of a request. -/
structure Call where
  env : Environment
  payload : Json
  answer : HttpAnswer

/-- What is seen of a call: the exchange, and the client as it is left. -/
structure Turn where
  exchange : Exchange
  after : LazyClient

def turn (c : LazyClient) (call : Call) : Turn :=
  let (after, exchange) := c.repair call.env call.payload call.answer
  ⟨exchange, after⟩

end LazyClient

end Remedy
