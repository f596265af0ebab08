import LedgerClient.Client.Error
import LedgerClient.Signer

/-!
The boundary to the engine that signs requests, sends them to nodes of the network and repeats them
if needed. An engine answers a request at most once; it may also still hold a request, or drop it.
-/

namespace LedgerClient

structure Request where
  kind : String
  envelope : String
  signers : List Signer
  /-- How long the engine should try; it is not bound to that. -/
  timeout : Option Duration

inductive Outcome where
  | payload (bytes : Bytes)
  | failure (error : EngineError)
  | dropped
  deriving DecidableEq

structure Answer where
  outcome : Outcome
  elapsed : Duration := .ofSeconds 0
  deriving DecidableEq

/-- An engine with states `σ`. It gives no answer to a request that it still holds. -/
structure Engine (σ : Type) where
  submit : Request → σ → Option Answer × σ

end LedgerClient
