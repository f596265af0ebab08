import LedgerClient.Client.Execute
import LedgerClient.Operation.Basic

/-!
Calls on a client in one type: an operation is executed, the cost of a query is asked for, or the
receipt of a response is fetched. Each of them runs one job. What a call submits is read off an
engine that keeps its requests and answers as the engine inside it does.
-/

namespace LedgerClient

theorem Transaction.execute_run {σ : Type} {kind : TransactionKind} (transaction : Transaction kind)
    (client : Client σ) (timeout : Option Duration) :
    ((transaction.execute client timeout).1, (transaction.execute client timeout).2.2) =
      client.run transaction.job timeout := by
  have job : transaction.freeze.job = transaction.job := rfl
  rw [Transaction.execute, job]
  split <;> next ran => rw [ran]

/-- A call on a client that may submit a request. -/
inductive Attempt where
  | execute (operation : Operation) (timeout : Option Duration)
  | cost {kind : QueryKind} (query : Query kind)
  | receipt (response : TransactionResponse)

namespace Attempt

variable {σ : Type}

def operation : Attempt → Operation
  | execute operation _ => operation
  | cost query => .query query
  | receipt response => .query response.receiptQuery

/-- The kind under which the call is sent and counted. -/
def kind : Attempt → String
  | execute operation _ => operation.kind.name
  | cost _ => "queryCost"
  | receipt _ => "transactionReceipt"

def Response : Attempt → Type
  | execute (.transaction _) _ => TransactionResponse
  | execute (@Operation.query kind _) _ => kind.Response
  | cost _ => Hbar
  | receipt _ => TransactionReceipt

def signers : Attempt → List Signer
  | execute (.transaction transaction) _ => transaction.signers
  | _ => []

def timeout : Attempt → Option Duration
  | execute _ timeout => timeout
  | _ => none

def run : (attempt : Attempt) → Client σ → Option (Except ClientError attempt.Response) × Client σ
  | execute (.transaction transaction) timeout, client =>
    ((transaction.execute client timeout).1, (transaction.execute client timeout).2.2)
  | execute (.query query) timeout, client =>
    ((query.execute client timeout).1, (query.execute client timeout).2.2)
  | cost query, client => query.cost client
  | receipt response, client => response.receipt client

def job : (attempt : Attempt) → Job attempt.Response
  | execute (.transaction transaction) _ => transaction.job
  | execute (.query query) _ => query.job
  | cost query => query.costJob
  | receipt response => response.receiptQuery.job

theorem run_eq (attempt : Attempt) (client : Client σ) :
    attempt.run client = client.run attempt.job attempt.timeout := by
  cases attempt with
  | execute operation timeout =>
    cases operation with
    | transaction transaction => exact transaction.execute_run client timeout
    | query query => rfl
  | cost query => rfl
  | receipt response => rfl

@[simp] theorem job_kind (attempt : Attempt) : attempt.job.kind = attempt.kind := by
  cases attempt with
  | execute operation timeout => cases operation <;> rfl
  | cost query => rfl
  | receipt response => rfl

@[simp] theorem job_signers (attempt : Attempt) : attempt.job.signers = attempt.signers := by
  cases attempt with
  | execute operation timeout => cases operation <;> rfl
  | cost query => rfl
  | receipt response => rfl

@[simp] theorem job_validate (attempt : Attempt) (ledger : LedgerId) :
    attempt.job.validate ledger = attempt.operation.validate ledger := by
  cases attempt with
  | execute operation timeout => cases operation <;> rfl
  | cost query => rfl
  | receipt response => rfl

def request (attempt : Attempt) (client : Client σ) : Request where
  kind := attempt.kind
  envelope := attempt.job.envelope client.config
  signers := attempt.signers
  timeout := attempt.timeout <|> client.config.timeout

theorem request_eq (attempt : Attempt) (client : Client σ) :
    client.request attempt.job attempt.timeout = attempt.request client := by
  simp only [Client.request, request, job_kind, job_signers]

end Attempt

/-- The engine that keeps every request before it passes it on. -/
def Engine.logging {σ : Type} (engine : Engine σ) : Engine (σ × List Request) where
  submit request state :=
    ((engine.submit request state.1).1, (engine.submit request state.1).2, state.2 ++ [request])

namespace Client

variable {σ ρ : Type}

def withLog (client : Client σ) (log : List Request) : Client (σ × List Request) :=
  { client with engine := client.engine.logging, state := (client.state, log) }

theorem record_withLog (client : Client σ) (log : List Request) (event : MetricsEvent) :
    (client.withLog log).record event = (client.record event).withLog log := by
  unfold record
  split <;> next keeps => simp only [withLog] at keeps ⊢; simp [keeps]

theorem run_withLog (client : Client σ) (log : List Request) (job : Job ρ)
    (timeout : Option Duration) :
    ((client.withLog log).run job timeout).1 = (client.run job timeout).1 ∧
      ((client.withLog log).run job timeout).2 =
        (client.run job timeout).2.withLog
          (log ++
            if (job.validate client.ledger).isOk then [client.request job timeout] else []) := by
  have ledger : (client.withLog log).ledger = client.ledger := rfl
  have request : (client.withLog log).request job timeout = client.request job timeout := rfl
  unfold run
  rw [ledger]
  cases valid : job.validate client.ledger with
  | error cause => simp [record_withLog, Except.isOk, Except.toBool]
  | ok _ =>
    have submitted : (client.withLog log).engine.submit (client.request job timeout)
          (client.withLog log).state =
        ((client.engine.submit (client.request job timeout) client.state).1,
          (client.engine.submit (client.request job timeout) client.state).2,
          log ++ [client.request job timeout]) := rfl
    simp only [request, submitted, Except.isOk, Except.toBool, if_true]
    cases answered : (client.engine.submit (client.request job timeout) client.state).1 with
    | none => exact ⟨rfl, rfl⟩
    | some answer =>
      exact ⟨rfl, record_withLog
        { client with state := (client.engine.submit (client.request job timeout) client.state).2 }
        (log ++ [client.request job timeout])
        (.execution job.kind answer.elapsed (settle job.kind job.response answer.outcome).2)⟩

end Client

namespace Attempt

variable {σ : Type}

/-- The requests that reach the client's engine during a call. -/
def submitted (attempt : Attempt) (client : Client σ) : List Request :=
  (attempt.run (client.withLog [])).2.state.2

theorem submitted_eq (attempt : Attempt) (client : Client σ) :
    attempt.submitted client =
      if (attempt.operation.validate client.ledger).isOk then [attempt.request client] else [] := by
  rw [submitted, run_eq, (client.run_withLog [] attempt.job attempt.timeout).2, request_eq,
    job_validate]
  rfl

theorem submitted_congr (attempt : Attempt) {τ : Type} {client : Client σ} {other : Client τ}
    (config : other.config = client.config) (ledger : other.ledger = client.ledger) :
    attempt.submitted other = attempt.submitted client := by
  rw [submitted_eq, submitted_eq, ledger, request, request, config]

end Attempt

end LedgerClient
