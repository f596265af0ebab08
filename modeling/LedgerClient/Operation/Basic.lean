import LedgerClient.Query.Basic
import LedgerClient.Transaction.Basic

/-!
Operations: transactions and queries of all kinds in one type, for callers that learn the kind of an
operation only when they run.
-/

namespace LedgerClient

inductive OperationKind where
  | transaction (kind : TransactionKind)
  | query (kind : QueryKind)
  deriving DecidableEq

namespace OperationKind

def all : List OperationKind :=
  TransactionKind.all.map transaction ++ QueryKind.all.map query

def name : OperationKind → String
  | transaction kind => kind.name
  | query kind => kind.name

def ofName? (name : String) : Option OperationKind :=
  all.find? (·.name = name)

theorem ofName?_name (kind : OperationKind) : ofName? kind.name = some kind := by
  rcases kind with kind | kind <;> cases kind <;> rfl

end OperationKind

inductive Operation where
  | transaction {kind : TransactionKind} (transaction : Transaction kind)
  | query {kind : QueryKind} (query : Query kind)

namespace Operation

def kind : Operation → OperationKind
  | @transaction kind _ => .transaction kind
  | @query kind _ => .query kind

def new : OperationKind → Operation
  | .transaction kind => transaction (Transaction.new : Transaction kind)
  | .query kind => query (Query.new : Query kind)

def isFrozen : Operation → Bool
  | transaction t => t.isFrozen
  | query q => q.isFrozen

def freeze : Operation → Operation
  | transaction t => transaction t.freeze
  | query q => query q.freeze

def envelope : Operation → String
  | transaction t => t.envelope
  | query q => q.envelope

/-- An unfrozen operation, from the envelope of its kind. -/
def ofEnvelope (kind : OperationKind) (text : String) : Except ClientError Operation :=
  match kind with
  | .transaction kind =>
    (transaction : Transaction kind → Operation) <$> Transaction.ofEnvelope text
  | .query kind => (query : Query kind → Operation) <$> Query.ofEnvelope text

/-- What must hold before the operation is sent to a ledger. -/
def validate (ledger : LedgerId) : Operation → Except LedgerError Unit
  | transaction t => t.body.validate ledger
  | query q => q.body.validate ledger

end Operation

end LedgerClient
