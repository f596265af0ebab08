import LedgerClient.Client.Config
import LedgerClient.Envelope
import LedgerClient.Signer
import LedgerClient.Transaction.Approval
import LedgerClient.Transaction.Contract
import LedgerClient.Transaction.Token
import LedgerClient.Transaction.Topic

/-!
Transactions of all kinds. A transaction holds the data of its kind, the fields that all kinds share,
and its signers. It can be changed until it is frozen, which happens at the latest when it is
executed.
-/

namespace LedgerClient

inductive TransactionKind where
  | accountAllowanceApprove
  | contractUpdate
  | tokenBurn
  | tokenFreeze
  | tokenRevokeKyc
  | tokenUnpause
  | tokenWipe
  | topicCreate
  | topicMessageSubmit
  | topicUpdate
  deriving DecidableEq

namespace TransactionKind

def all : List TransactionKind :=
  [accountAllowanceApprove, contractUpdate, tokenBurn, tokenFreeze, tokenRevokeKyc, tokenUnpause,
    tokenWipe, topicCreate, topicMessageSubmit, topicUpdate]

def name : TransactionKind → String
  | accountAllowanceApprove => "accountAllowanceApprove"
  | contractUpdate => "contractUpdate"
  | tokenBurn => "tokenBurn"
  | tokenFreeze => "tokenFreeze"
  | tokenRevokeKyc => "tokenRevokeKyc"
  | tokenUnpause => "tokenUnpause"
  | tokenWipe => "tokenWipe"
  | topicCreate => "topicCreate"
  | topicMessageSubmit => "topicMessageSubmit"
  | topicUpdate => "topicUpdate"

def Data : TransactionKind → Type
  | accountAllowanceApprove => AllowanceApproval
  | contractUpdate => ContractUpdate
  | tokenBurn => TokenBurn
  | tokenFreeze | tokenRevokeKyc => TokenRelation
  | tokenUnpause => TokenUnpause
  | tokenWipe => TokenWipe
  | topicCreate => TopicCreate
  | topicMessageSubmit => TopicMessageSubmit
  | topicUpdate => TopicUpdate

def DataCall : TransactionKind → Type
  | accountAllowanceApprove => AllowanceApproval.Call
  | contractUpdate => ContractUpdate.Call
  | tokenBurn => TokenBurn.Call
  | tokenFreeze | tokenRevokeKyc => TokenRelation.Call
  | tokenUnpause => TokenUnpause.Call
  | tokenWipe => TokenWipe.Call
  | topicCreate => TopicCreate.Call
  | topicMessageSubmit => TopicMessageSubmit.Call
  | topicUpdate => TopicUpdate.Call

def operation : (kind : TransactionKind) → OperationData kind.Data kind.DataCall
  | accountAllowanceApprove => AllowanceApproval.operation
  | contractUpdate => ContractUpdate.operation
  | tokenBurn => TokenBurn.operation
  | tokenFreeze => TokenRelation.operation
  | tokenRevokeKyc => TokenRelation.operation
  | tokenUnpause => TokenUnpause.operation
  | tokenWipe => TokenWipe.operation
  | topicCreate => TopicCreate.operation
  | topicMessageSubmit => TopicMessageSubmit.operation
  | topicUpdate => TopicUpdate.operation

end TransactionKind

structure TransactionBody (kind : TransactionKind) where
  data : kind.Data
  nodes : Option (List AccountId) := none
  id : Option TransactionId := none
  maxFee : Option Hbar := none
  memo : String := ""
  validDuration : Option Duration := none

namespace TransactionBody

variable {kind : TransactionKind}

def common : Record (TransactionBody kind) where
  initial := { data := kind.operation.record.initial }
  slots :=
    [ .optional "nodeAccountIds" AccountId.codec.list (·.nodes) fun nodes b => { b with nodes },
      .optional "transactionId" TransactionId.codec (·.id) fun id b => { b with id },
      .optional "maxTransactionFee" Hbar.codec (·.maxFee) fun maxFee b => { b with maxFee },
      .memo "transactionMemo" (·.memo) fun memo b => { b with memo },
      .optional "transactionValidDuration" Duration.codec (·.validDuration) fun validDuration b =>
        { b with validDuration } ]

def encode (body : TransactionBody kind) : Json :=
  Json.ofMembers (kind.operation.record.members body.data ++ common.members body)

/-- Reads a body from an object: first the shared fields, then those of the data. -/
def decode : Json → Decoded (TransactionBody kind)
  | .object members ending => do
    let body : TransactionBody kind ← common.decodeMembers members ending
    let data ← kind.operation.record.decodeMembers members ending
    return { body with data }
  | _ => .error .malformed

def checkedIds (body : TransactionBody kind) : List CheckedId :=
  kind.operation.checkedIds body.data ++ (body.nodes.getD []).map AccountId.checked ++
    checkedOf TransactionId.checked body.id

def validate (body : TransactionBody kind) (ledger : LedgerId) : Except LedgerError Unit := do
  body.validDuration.toList.forM Duration.checkValid
  kind.operation.validate body.data
  CheckedId.validateAll body.checkedIds ledger

def withDefaults (body : TransactionBody kind) (config : ClientConfig) : TransactionBody kind :=
  { body with
    maxFee := body.maxFee <|> config.maxTransactionFee
    validDuration := body.validDuration <|> some config.validDuration }

end TransactionBody

structure Transaction (kind : TransactionKind) where
  body : TransactionBody kind
  signers : List Signer := []
  isFrozen : Bool := false

namespace Transaction

variable {kind : TransactionKind}

inductive Call (kind : TransactionKind) where
  | data (call : kind.DataCall)
  | setNodes (nodes : List AccountId)
  | setId (id : TransactionId)
  | setMaxFee (fee : Hbar)
  | setMemo (memo : String)
  | setValidDuration (duration : Duration)

def Call.field : Call kind → String
  | data call => kind.operation.field call
  | setNodes _ => "node_account_ids"
  | setId _ => "transaction_id"
  | setMaxFee _ => "max_transaction_fee"
  | setMemo _ => "transaction_memo"
  | setValidDuration _ => "transaction_valid_duration"

def new : Transaction kind :=
  { body := { data := kind.operation.new } }

def applyCall (body : TransactionBody kind) : Call kind → Except LedgerError (TransactionBody kind)
  | .data call => do
    let data ← kind.operation.apply call body.data
    return { body with data }
  | .setNodes nodes => .ok { body with nodes }
  | .setId id => .ok { body with id }
  | .setMaxFee fee => .ok { body with maxFee := fee }
  | .setMemo memo => .ok { body with memo }
  | .setValidDuration duration => do
    duration.checkValid
    return { body with validDuration := duration }

def call (transaction : Transaction kind) (c : Call kind) :
    Except LedgerError (Transaction kind) :=
  if transaction.isFrozen then .error (.frozenMutation c.field)
  else do
    let body ← applyCall transaction.body c
    return { transaction with body }

def freeze (transaction : Transaction kind) : Transaction kind :=
  { transaction with isFrozen := true }

/-- Adds a signer; a frozen transaction can still be signed. -/
def sign (transaction : Transaction kind) (signer : Signer) : Transaction kind :=
  { transaction with signers := transaction.signers ++ [signer] }

def envelope (transaction : Transaction kind) : String :=
  Envelope.text kind.name transaction.body.encode

/-- An unfrozen transaction without signers, from its envelope. -/
def ofEnvelope (text : String) : Except ClientError (Transaction kind) := do
  let body ← Envelope.decode kind.name TransactionBody.decode text
  return { body }

end Transaction

end LedgerClient
