import LedgerClient.Client.Config
import LedgerClient.Engine.Basic
import LedgerClient.Metrics

/-!
Clients and what they run. A job is validated against the client's current ledger; if that succeeds
its envelope is submitted to the engine, once, and the answer decoded. Every call leaves one event:
a rejection if nothing was sent, else an execution.
-/

namespace LedgerClient

structure Client (σ : Type) where
  config : ClientConfig
  engine : Engine σ
  state : σ
  /-- The ledger that ids are validated against, at first that of the configuration. -/
  ledger : LedgerId := config.ledger
  keepsEvents : Bool := true
  events : List MetricsEvent := []

structure Job (ρ : Type) where
  kind : String
  validate : LedgerId → Except LedgerError Unit
  envelope : ClientConfig → String
  signers : List Signer
  response : Codec ρ

namespace Client

variable {σ ρ : Type}

def record (client : Client σ) (event : MetricsEvent) : Client σ :=
  if client.keepsEvents then { client with events := client.events ++ [event] } else client

/-- What a request of this kind returns for an outcome, and how that is counted. -/
def settle (kind : String) (response : Codec ρ) : Outcome → Except ClientError ρ × ExecutionStatus
  | .payload bytes =>
    match response.decodeBytes bytes with
    | .ok value => (.ok value, .success)
    | .error fault => (.error (.undecodable kind fault), .decodeError)
  | .failure error => (.error (.engine error), .engineError)
  | .dropped => (.error (.completionDropped kind), .completionDropped)

/-- The request of a job; without a timeout of its own that of the configuration holds. -/
def request (client : Client σ) (job : Job ρ) (timeout : Option Duration) : Request where
  kind := job.kind
  envelope := job.envelope client.config
  signers := job.signers
  timeout := timeout <|> client.config.timeout

/-- Runs a job; there is no result as long as the engine holds the request. -/
def run (client : Client σ) (job : Job ρ) (timeout : Option Duration := none) :
    Option (Except ClientError ρ) × Client σ :=
  match job.validate client.ledger with
  | .error cause => (some (.error (.rejected cause)), client.record (.rejection job.kind cause.code))
  | .ok () =>
    let (answer, state) := client.engine.submit (client.request job timeout) client.state
    let client := { client with state }
    match answer with
    | none => (none, client)
    | some answer =>
      let (result, status) := settle job.kind job.response answer.outcome
      (some result, client.record (.execution job.kind answer.elapsed status))

end Client

end LedgerClient
