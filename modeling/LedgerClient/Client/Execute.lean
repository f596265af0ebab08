import LedgerClient.Client.Basic
import LedgerClient.Query.Basic
import LedgerClient.Transaction.Basic

/-!
Executing operations on a client. An execution freezes its operation first. A successful transaction
keeps the id and the node of the response where it had none; a query keeps nothing.
-/

namespace LedgerClient

namespace Transaction

variable {σ : Type} {kind : TransactionKind}

def job (transaction : Transaction kind) : Job TransactionResponse where
  kind := kind.name
  validate := transaction.body.validate
  envelope config := Envelope.text kind.name (transaction.body.withDefaults config).encode
  signers := transaction.signers
  response := TransactionResponse.codec

/-- Fills an id or a node list that is not set. -/
def complete (transaction : Transaction kind) (response : TransactionResponse) :
    Transaction kind :=
  { transaction with
    body :=
      { transaction.body with
        id := transaction.body.id <|> some response.transactionId
        nodes := transaction.body.nodes <|> some [response.node] } }

def execute (transaction : Transaction kind) (client : Client σ)
    (timeout : Option Duration := none) :
    Option (Except ClientError TransactionResponse) × Transaction kind × Client σ :=
  let transaction := transaction.freeze
  match client.run transaction.job timeout with
  | (some (.ok response), client) => (some (.ok response), transaction.complete response, client)
  | (result, client) => (result, transaction, client)

end Transaction

namespace Query

variable {σ : Type} {kind : QueryKind}

def job (query : Query kind) : Job kind.Response where
  kind := kind.name
  validate := query.body.validate
  envelope config := Envelope.text kind.name (query.body.withDefaults config).encode
  signers := []
  response := kind.responseCodec

def costKind : String := "queryCost"

/-- Asks what the query costs; the request holds the query as it would be sent. -/
def costJob (query : Query kind) : Job Hbar where
  kind := costKind
  validate := query.body.validate
  envelope config :=
    Envelope.text costKind
      (Json.ofMembers [("query", Envelope.wrap kind.name (query.body.withDefaults config).encode)])
  signers := []
  response := Hbar.codec

def execute (query : Query kind) (client : Client σ) (timeout : Option Duration := none) :
    Option (Except ClientError kind.Response) × Query kind × Client σ :=
  let query := query.freeze
  let (result, client) := client.run query.job timeout
  (result, query, client)

def cost (query : Query kind) (client : Client σ) : Option (Except ClientError Hbar) × Client σ :=
  client.run query.costJob

end Query

def TransactionResponse.receiptQuery (response : TransactionResponse) :
    Query .transactionReceipt :=
  { body := { data := ({ id := response.transactionId } : TransactionReceiptQuery) } }

def TransactionResponse.receipt {σ : Type} (response : TransactionResponse) (client : Client σ) :
    Option (Except ClientError TransactionReceipt) × Client σ :=
  let (result, _, client) := response.receiptQuery.execute client
  (result, client)

end LedgerClient
