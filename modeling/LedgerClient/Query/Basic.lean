import LedgerClient.Client.Config
import LedgerClient.Envelope
import LedgerClient.Response.Account
import LedgerClient.Response.Transaction

/-!
Queries of all kinds. A query holds the data of its kind and how it is paid for. It can be changed
until it is frozen, which happens at the latest when it is executed.
-/

namespace LedgerClient

/-- Asks for the balance of an account or of a contract: setting one clears the other. -/
structure AccountBalanceQuery where
  account : Option AccountId := none
  contract : Option ContractId := none
  deriving DecidableEq

namespace AccountBalanceQuery

inductive Call where
  | setAccount (account : AccountId)
  | setContract (contract : ContractId)

def record : Record AccountBalanceQuery where
  initial := {}
  slots :=
    [ .optional "accountId" AccountId.codec (·.account) fun account q => { q with account },
      .optional "contractId" EntityId.codec (·.contract) fun contract q => { q with contract } ]

def operation : OperationData AccountBalanceQuery Call where
  record := record
  checkedIds query :=
    checkedOf AccountId.checked query.account ++ checkedOf EntityId.checked query.contract
  field
    | .setAccount _ => "account_id"
    | .setContract _ => "contract_id"
  apply
    | .setAccount account, _ => .ok { account }
    | .setContract contract, _ => .ok { contract }

end AccountBalanceQuery

structure AccountInfoQuery where
  account : Option AccountId := none
  deriving DecidableEq

namespace AccountInfoQuery

inductive Call where
  | setAccount (account : AccountId)

def record : Record AccountInfoQuery where
  initial := {}
  slots := [.optional "accountId" AccountId.codec (·.account) fun account _ => { account }]

def operation : OperationData AccountInfoQuery Call where
  record := record
  checkedIds query := checkedOf AccountId.checked query.account
  field | .setAccount _ => "account_id"
  apply | .setAccount account, _ => .ok { account }

end AccountInfoQuery

structure TransactionReceiptQuery where
  id : Option TransactionId := none
  includeChildren : Bool := false
  includeDuplicates : Bool := false
  deriving DecidableEq

namespace TransactionReceiptQuery

inductive Call where
  | setId (id : TransactionId)
  | setIncludeChildren (value : Bool)
  | setIncludeDuplicates (value : Bool)

def record : Record TransactionReceiptQuery where
  initial := {}
  slots :=
    [ .optional "transactionId" TransactionId.codec (·.id) fun id q => { q with id },
      .defaulted "includeChildren" Codec.bool (·.includeChildren) fun includeChildren q =>
        { q with includeChildren },
      .defaulted "includeDuplicates" Codec.bool (·.includeDuplicates) fun includeDuplicates q =>
        { q with includeDuplicates } ]

def operation : OperationData TransactionReceiptQuery Call where
  record := record
  checkedIds query := checkedOf TransactionId.checked query.id
  field
    | .setId _ => "transaction_id"
    | .setIncludeChildren _ => "include_children"
    | .setIncludeDuplicates _ => "include_duplicates"
  apply
    | .setId id, query => .ok { query with id }
    | .setIncludeChildren value, query => .ok { query with includeChildren := value }
    | .setIncludeDuplicates value, query => .ok { query with includeDuplicates := value }

end TransactionReceiptQuery

inductive QueryKind where
  | accountBalance
  | accountInfo
  | transactionReceipt
  deriving DecidableEq

namespace QueryKind

def all : List QueryKind := [accountBalance, accountInfo, transactionReceipt]

def name : QueryKind → String
  | accountBalance => "accountBalance"
  | accountInfo => "accountInfo"
  | transactionReceipt => "transactionReceipt"

def Data : QueryKind → Type
  | accountBalance => AccountBalanceQuery
  | accountInfo => AccountInfoQuery
  | transactionReceipt => TransactionReceiptQuery

def DataCall : QueryKind → Type
  | accountBalance => AccountBalanceQuery.Call
  | accountInfo => AccountInfoQuery.Call
  | transactionReceipt => TransactionReceiptQuery.Call

def Response : QueryKind → Type
  | accountBalance => AccountBalance
  | accountInfo => AccountInfo
  | transactionReceipt => TransactionReceipt

def operation : (kind : QueryKind) → OperationData kind.Data kind.DataCall
  | accountBalance => AccountBalanceQuery.operation
  | accountInfo => AccountInfoQuery.operation
  | transactionReceipt => TransactionReceiptQuery.operation

def responseCodec : (kind : QueryKind) → Codec kind.Response
  | accountBalance => AccountBalance.codec
  | accountInfo => AccountInfo.codec
  | transactionReceipt => TransactionReceipt.codec

end QueryKind

/-- The transaction that pays for a query. -/
structure Payment where
  nodes : Option (List AccountId) := none
  amount : Option Hbar := none
  maxAmount : Option Hbar := none
  maxFee : Option Hbar := none
  memo : Option String := none
  payer : Option AccountId := none
  id : Option TransactionId := none
  validDuration : Option Duration := none
  deriving DecidableEq

namespace Payment

def record : Record Payment where
  initial := {}
  slots :=
    [ .optional "nodeAccountIds" AccountId.codec.list (·.nodes) fun nodes p => { p with nodes },
      .optional "amount" Hbar.codec (·.amount) fun amount p => { p with amount },
      .optional "maxAmount" Hbar.codec (·.maxAmount) fun maxAmount p => { p with maxAmount },
      .optional "maxTransactionFee" Hbar.codec (·.maxFee) fun maxFee p => { p with maxFee },
      .optional "transactionMemo" Codec.string (·.memo) fun memo p => { p with memo },
      .optional "payerAccountId" AccountId.codec (·.payer) fun payer p => { p with payer },
      .optional "transactionId" TransactionId.codec (·.id) fun id p => { p with id },
      .optional "transactionValidDuration" Duration.codec (·.validDuration) fun validDuration p =>
        { p with validDuration } ]

def codec : Codec Payment := record.codec

def checkedIds (payment : Payment) : List CheckedId :=
  (payment.nodes.getD []).map AccountId.checked ++ checkedOf AccountId.checked payment.payer ++
    checkedOf TransactionId.checked payment.id

/-- Fills a limit or duration that is not set from the configuration. -/
def withDefaults (payment : Payment) (config : ClientConfig) : Payment :=
  { payment with
    maxAmount := payment.maxAmount <|> config.maxQueryPayment
    maxFee := payment.maxFee <|> config.maxTransactionFee
    validDuration := payment.validDuration <|> some config.validDuration }

end Payment

structure QueryBody (kind : QueryKind) where
  data : kind.Data
  payment : Payment := {}

namespace QueryBody

variable {kind : QueryKind}

/-- The field that all kinds share; it follows those of the data. -/
def common : Record (QueryBody kind) where
  initial := { data := kind.operation.record.initial }
  slots := [.defaulted "payment" Payment.codec (·.payment) fun payment b => { b with payment }]

def encode (body : QueryBody kind) : Json :=
  Json.ofMembers (kind.operation.record.members body.data ++ common.members body)

/-- Reads a body from an object: first the payment, then the fields of the data. -/
def decode : Json → Decoded (QueryBody kind)
  | .object members ending => do
    let body : QueryBody kind ← common.decodeMembers members ending
    let data ← kind.operation.record.decodeMembers members ending
    return { body with data }
  | _ => .error .malformed

def checkedIds (body : QueryBody kind) : List CheckedId :=
  kind.operation.checkedIds body.data ++ body.payment.checkedIds

def validate (body : QueryBody kind) (ledger : LedgerId) : Except LedgerError Unit := do
  body.payment.validDuration.toList.forM Duration.checkValid
  kind.operation.validate body.data
  CheckedId.validateAll body.checkedIds ledger

def withDefaults (body : QueryBody kind) (config : ClientConfig) : QueryBody kind :=
  { body with payment := body.payment.withDefaults config }

end QueryBody

structure Query (kind : QueryKind) where
  body : QueryBody kind
  isFrozen : Bool := false

namespace Query

variable {kind : QueryKind}

inductive Call (kind : QueryKind) where
  | data (call : kind.DataCall)
  | setNodes (nodes : List AccountId)
  | setAmount (amount : Hbar)
  | setMaxAmount (amount : Hbar)
  | setMaxFee (fee : Hbar)
  | setMemo (memo : String)
  | setPayer (payer : AccountId)
  | setId (id : TransactionId)
  | setValidDuration (duration : Duration)

def Call.field : Call kind → String
  | data call => kind.operation.field call
  | setNodes _ => "node_account_ids"
  | setAmount _ => "amount"
  | setMaxAmount _ => "max_amount"
  | setMaxFee _ => "max_transaction_fee"
  | setMemo _ => "transaction_memo"
  | setPayer _ => "payer_account_id"
  | setId _ => "transaction_id"
  | setValidDuration _ => "transaction_valid_duration"

def new : Query kind :=
  { body := { data := kind.operation.new } }

def applyPayment (payment : Payment) : Call kind → Except LedgerError Payment
  | .data _ => .ok payment
  | .setNodes nodes => .ok { payment with nodes }
  | .setAmount amount => .ok { payment with amount }
  | .setMaxAmount amount => .ok { payment with maxAmount := amount }
  | .setMaxFee fee => .ok { payment with maxFee := fee }
  | .setMemo memo => .ok { payment with memo }
  | .setPayer payer => .ok { payment with payer }
  | .setId id => .ok { payment with id }
  | .setValidDuration duration => do
    duration.checkValid
    return { payment with validDuration := duration }

def applyCall (body : QueryBody kind) (c : Call kind) : Except LedgerError (QueryBody kind) :=
  match c with
  | .data call => do
    let data ← kind.operation.apply call body.data
    return { body with data }
  | _ => do
    let payment ← applyPayment body.payment c
    return { body with payment }

def call (query : Query kind) (c : Call kind) : Except LedgerError (Query kind) :=
  if query.isFrozen then .error (.frozenMutation c.field)
  else do
    let body ← applyCall query.body c
    return { query with body }

def freeze (query : Query kind) : Query kind :=
  { query with isFrozen := true }

def envelope (query : Query kind) : String :=
  Envelope.text kind.name query.body.encode

def ofEnvelope (text : String) : Except ClientError (Query kind) := do
  let body ← Envelope.decode kind.name QueryBody.decode text
  return { body }

end Query

end LedgerClient
