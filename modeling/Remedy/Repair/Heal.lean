import Remedy.Repair.Client
import Remedy.Repair.Reply
import Remedy.Repair.Request

/-!
Healing: a file that does not parse is handed to a client for repair, and its reply is made a file with the same line
feeds at its end.
-/

namespace Remedy

/-- Why a file is not healed. -/
inductive HealError where
  | reply (e : Repair.ReplyError)
  | client (message : String)
  deriving DecidableEq, Repr

def HealError.message : HealError → String
  | reply e => e.message
  | client message => message

/-- The file that a reply gives, or what the client had to say instead. -/
def healed (content : String) (reply : Except String String) : Except HealError String :=
  match reply with
  | .error message => .error (.client message)
  | .ok text =>
    match Repair.Reply.code text.toList with
    | .error e => .error (.reply e)
    | .ok code => .ok (String.ofList (Repair.Reply.endedLike content.toList code))

/-- Whoever answers requests for repair, with a state of its own. -/
structure Healer (σ : Type) where
  /-- The name of the service behind it. -/
  provider : σ → String
  /-- The reply to a request, or a message that says why there is none. -/
  answer : RepairRequest → σ → Except String String × σ

namespace Healer

def heal (h : Healer σ) (content : String) (errors : List String) (file : String) (state : σ) :
    Except HealError String × σ :=
  let (reply, next) := h.answer (.of content errors file) state
  (healed content reply, next)

end Healer

/-- A lazy client as a healer, in an environment that does not change; every request comes to the same answer. -/
def LazyClient.healer (env : Environment) (answer : HttpAnswer) : Healer LazyClient where
  provider := LazyClient.provider
  answer request client :=
    let (next, exchange) := client.repair env request.toJson answer
    (exchange.reply.mapError RepairError.message, next)

end Remedy
