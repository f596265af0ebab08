import LedgerClient.Client.Config
import LedgerClient.Engine.Basic
import LedgerClient.Envelope
import LedgerClient.Hash.Sha512
import LedgerClient.Response.Transaction

/-!
An engine without a network. It records every request and answers by itself: with a response set
for the kind, or as a node would that accepts every transaction and knows nothing to ask for.
Dropped completions and errors can be injected a number of times; drops are used up first.
-/

namespace LedgerClient

structure RecordedRequest where
  kind : String
  envelope : String
  signers : List PublicKey
  timeout : Option Duration
  deriving DecidableEq

namespace RecordedRequest

def ofRequest (request : Request) : RecordedRequest :=
  ⟨request.kind, request.envelope, request.signers.map Signer.publicKey, request.timeout⟩

def tree? (request : RecordedRequest) : Option Json :=
  Envelope.tree? request.envelope

/-- The body in the envelope, if it has one for the kind of the request. -/
def body? (request : RecordedRequest) : Option Json :=
  request.tree?.bind (Json.member? request.kind)

end RecordedRequest

structure MockEngine where
  requests : List RecordedRequest := []
  /-- The outcomes set for kinds of operations. -/
  responses : List (String × Except EngineError Bytes) := []
  /-- The account that pays for transactions without an id. -/
  operator : Option AccountId := none
  injectedError : Option EngineError := none
  injectedErrorCount : Nat := 0
  dropCount : Nat := 0
  delay : Duration := .ofSeconds 0
  /-- The instant from which a transaction with a generated id is valid. -/
  clock : Instant := .epoch

namespace MockEngine

/-- The node that accepts transactions which name none. -/
def defaultNode : AccountId := .ofNum 3

def requestCount (engine : MockEngine) : Nat :=
  engine.requests.length

def forConfig (config : ClientConfig) : MockEngine :=
  { operator := config.operator }

/-- Sets the outcome for a kind, in place of an earlier one. -/
def setOutcome (engine : MockEngine) (kind : String) (outcome : Except EngineError Bytes) :
    MockEngine :=
  { engine with responses := (kind, outcome) :: engine.responses }

/-- Lets the next `count` requests that are not dropped fail with a code. -/
def injectError (engine : MockEngine) (code : EngineErrorCode) (count : Nat) : MockEngine :=
  { engine with
    injectedError := some ⟨code, "injected " ++ code.text⟩
    injectedErrorCount := count }

def dropCompletions (engine : MockEngine) (count : Nat) : MockEngine :=
  { engine with dropCount := count }

/-- The initial engine at the same clock. -/
def reset (engine : MockEngine) : MockEngine :=
  { clock := engine.clock }

def takeDrop (engine : MockEngine) : Bool × MockEngine :=
  match engine.dropCount with
  | 0 => (false, engine)
  | count + 1 => (true, { engine with dropCount := count })

def takeError (engine : MockEngine) : Option EngineError × MockEngine :=
  match engine.injectedErrorCount with
  | 0 => (none, engine)
  | count + 1 => (engine.injectedError, { engine with injectedErrorCount := count })

def textMember? (key : String) (body : Json) : Option String :=
  match body.member? key with
  | some (.string text) => some text
  | _ => none

def firstText? (key : String) (body : Json) : Option String :=
  match body.member? key with
  | some (.array (.string text :: _) _) => some text
  | _ => none

def parseOptional {α : Type} (parse : String → Except LedgerError α) :
    Option String → Except EngineError (Option α)
  | none => .ok none
  | some text =>
    match parse text with
    | .ok id => .ok (some id)
    | .error cause => .error ⟨.basicParse, cause.message⟩

/-- The id of a transaction: the one in its body, or one generated for the operator. -/
def transactionId (engine : MockEngine) (body : Json) : Except EngineError TransactionId := do
  match ← parseOptional TransactionId.parse (textMember? "transactionId" body), engine.operator with
  | some id, _ => return id
  | none, some account => return { account, validStart := engine.clock }
  | none, none =>
    throw ⟨.noPayerAccountOrTransactionId, "transaction id unset and no operator configured"⟩

/-- Accepts a transaction at its first node. The hash is that of the envelope. -/
def acceptTransaction (engine : MockEngine) (request : Request) (body : Json) :
    Except EngineError Bytes := do
  let transactionId ← engine.transactionId body
  let node ← parseOptional AccountId.parse (firstText? "nodeAccountIds" body)
  let response : TransactionResponse :=
    { node := node.getD defaultNode
      transactionId
      hash := Sha512.digest384 (Bytes.ofText request.envelope) }
  return Bytes.ofText (TransactionResponse.codec.encodeText response)

/-- The answer to a request that meets no injected fault. -/
def respond (engine : MockEngine) (request : Request) : Except EngineError Bytes :=
  match engine.responses.find? (·.1 = request.kind) with
  | some (_, outcome) => outcome
  | none =>
    match (RecordedRequest.ofRequest request).body? with
    | none => .error ⟨.requestParse, "malformed " ++ request.kind ++ " envelope"⟩
    | some body =>
      if request.kind = "queryCost" then .ok (Bytes.ofText "0")
      else if request.kind = "transactionReceipt" then
        .ok (Bytes.ofText "\x7b\"status\":\"SUCCESS\"\x7d")
      else if (body.member? "payment").isSome then
        .error ⟨.queryNoPaymentPreCheckStatus,
          "no scripted response for " ++ request.kind ++ " query"⟩
      else engine.acceptTransaction request body

def record (engine : MockEngine) (request : Request) : MockEngine :=
  { engine with requests := engine.requests ++ [.ofRequest request] }

/-- The outcome of a recorded request: a drop, an injected error, or an answer. -/
def settle (engine : MockEngine) (request : Request) : Outcome × MockEngine :=
  match engine.takeDrop with
  | (true, engine) => (.dropped, engine)
  | (false, engine) =>
    match engine.takeError with
    | (some error, engine) => (.failure error, engine)
    | (none, engine) =>
      match engine.respond request with
      | .ok bytes => (.payload bytes, engine)
      | .error error => (.failure error, engine)

def submit (request : Request) (engine : MockEngine) : Option Answer × MockEngine :=
  let (outcome, engine) := (engine.record request).settle request
  (some { outcome, elapsed := engine.delay }, engine)

def toEngine : Engine MockEngine := ⟨submit⟩

end MockEngine

end LedgerClient
