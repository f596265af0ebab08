import LedgerClient.Proofs.Client.Attempt

/-!
What a run of calls leaves behind. Each call either is rejected, with one recorded rejection and no
request, or submits one request, and once that is answered one execution is recorded whose status
tells how the call returned. So the requests of a run, its calls that are not rejected, and its
recorded executions together with the calls that the engine still holds are equal in number.
-/

namespace LedgerClient

namespace Client

variable {σ : Type}

def after (client : Client σ) (state : σ) (events : List MetricsEvent) : Client σ :=
  { client with
    state
    events := if client.keepsEvents then client.events ++ events else client.events }

theorem after_nil (client : Client σ) (state : σ) :
    client.after state [] = { client with state } := by
  simp [after]

theorem record_eq_after (client : Client σ) (state : σ) (event : MetricsEvent) :
    ({ client with state } : Client σ).record event = client.after state [event] := by
  unfold record after
  split <;> rfl

end Client

/-- What one call returns, submits and records, and the state in which it leaves the engine. -/
inductive Attempt.Accounted {σ : Type} (attempt : Attempt) (client : Client σ) :
    Option (Except ClientError attempt.Response) → List Request → List MetricsEvent → σ → Prop
  | rejected {cause : LedgerError} :
      attempt.operation.validate client.ledger = .error cause →
      Accounted attempt client (some (.error (.rejected cause))) []
        [.rejection attempt.kind cause.code] client.state
  | held {state : σ} :
      attempt.operation.validate client.ledger = .ok () →
      client.engine.submit (attempt.request client) client.state = (none, state) →
      Accounted attempt client none [attempt.request client] [] state
  | success {bytes : Bytes} {elapsed : Duration} {state : σ} {value : attempt.Response} :
      attempt.operation.validate client.ledger = .ok () →
      client.engine.submit (attempt.request client) client.state =
        (some ⟨.payload bytes, elapsed⟩, state) →
      attempt.job.response.decodeBytes bytes = .ok value →
      Accounted attempt client (some (.ok value)) [attempt.request client]
        [.execution attempt.kind elapsed .success] state
  | undecodable {bytes : Bytes} {elapsed : Duration} {state : σ} {fault : DecodeFault} :
      attempt.operation.validate client.ledger = .ok () →
      client.engine.submit (attempt.request client) client.state =
        (some ⟨.payload bytes, elapsed⟩, state) →
      attempt.job.response.decodeBytes bytes = .error fault →
      Accounted attempt client (some (.error (.undecodable attempt.kind fault)))
        [attempt.request client] [.execution attempt.kind elapsed .decodeError] state
  | failure {error : EngineError} {elapsed : Duration} {state : σ} :
      attempt.operation.validate client.ledger = .ok () →
      client.engine.submit (attempt.request client) client.state =
        (some ⟨.failure error, elapsed⟩, state) →
      Accounted attempt client (some (.error (.engine error))) [attempt.request client]
        [.execution attempt.kind elapsed .engineError] state
  | dropped {elapsed : Duration} {state : σ} :
      attempt.operation.validate client.ledger = .ok () →
      client.engine.submit (attempt.request client) client.state =
        (some ⟨.dropped, elapsed⟩, state) →
      Accounted attempt client (some (.error (.completionDropped attempt.kind)))
        [attempt.request client] [.execution attempt.kind elapsed .completionDropped] state

theorem Attempt.run_accounted {σ : Type} (attempt : Attempt) (client : Client σ) :
    ∃ events state,
      attempt.Accounted client (attempt.run client).1 (attempt.submitted client) events state ∧
        (attempt.run client).2 = client.after state events := by
  rw [submitted_eq, run_eq, Client.run, job_validate, request_eq, job_kind]
  cases valid : attempt.operation.validate client.ledger with
  | error cause =>
    exact ⟨_, _, .rejected valid, client.record_eq_after client.state _⟩
  | ok _ =>
    cases answered : client.engine.submit (attempt.request client) client.state with
    | mk answer state =>
      cases answer with
      | none => exact ⟨[], state, .held valid answered, (client.after_nil state).symm⟩
      | some answer =>
        have recorded (status : ExecutionStatus) := client.record_eq_after state
          (.execution attempt.kind answer.elapsed status)
        obtain ⟨outcome, elapsed⟩ := answer
        cases outcome with
        | failure error => exact ⟨_, state, .failure valid answered, recorded _⟩
        | dropped => exact ⟨_, state, .dropped valid answered, recorded _⟩
        | payload bytes =>
          cases decoded : attempt.job.response.decodeBytes bytes with
          | ok value =>
            simp only [Client.settle, decoded]
            exact ⟨_, state, .success valid answered decoded, recorded _⟩
          | error fault =>
            simp only [Client.settle, decoded]
            exact ⟨_, state, .undecodable valid answered decoded, recorded _⟩

theorem Attempt.run_eq_rejected_iff {σ : Type} (attempt : Attempt) (client : Client σ)
    (cause : LedgerError) :
    (attempt.run client).1 = some (.error (.rejected cause)) ↔
      attempt.operation.validate client.ledger = .error cause := by
  constructor
  · intro rejected
    obtain ⟨events, state, accounted, -⟩ := attempt.run_accounted client
    rw [rejected] at accounted
    generalize attempt.submitted client = requests at accounted
    cases accounted with
    | rejected invalid => exact invalid
  · intro invalid
    rw [run_eq, Client.run, job_validate, invalid]

/-- A call of a run with its result; there is none as long as the engine holds the request. -/
structure Reply where
  attempt : Attempt
  result : Option (Except ClientError attempt.Response)

namespace Reply

def isRejected (reply : Reply) : Bool :=
  match reply.result with
  | some (.error (.rejected _)) => true
  | _ => false

def isHeld (reply : Reply) : Bool :=
  reply.result.isNone

end Reply

def MetricsEvent.isExecution : MetricsEvent → Bool
  | execution .. => true
  | rejection .. => false

def MetricsEvent.isRejection : MetricsEvent → Bool
  | execution .. => false
  | rejection .. => true

def Client.perform {σ : Type} : List Attempt → Client σ → List Reply × Client σ
  | [], client => ([], client)
  | attempt :: rest, client =>
    let (result, client) := attempt.run client
    let (replies, client) := perform rest client
    (⟨attempt, result⟩ :: replies, client)

/-- A run in which every call is accounted for: the replies, all requests and all events in their
order, and the client at the end. -/
inductive Trace {σ : Type} :
    Client σ → List Reply → List Request → List MetricsEvent → Client σ → Prop
  | nil {client : Client σ} : Trace client [] [] [] client
  | cons {client last : Client σ} {attempt : Attempt}
      {result : Option (Except ClientError attempt.Response)} {requests later : List Request}
      {events laterEvents : List MetricsEvent} {state : σ} {replies : List Reply} :
      attempt.Accounted client result requests events state →
      Trace (client.after state events) replies later laterEvents last →
      Trace client (⟨attempt, result⟩ :: replies) (requests ++ later) (events ++ laterEvents) last

namespace Trace

variable {σ : Type} {client last : Client σ} {replies : List Reply} {requests : List Request}
  {events : List MetricsEvent}

theorem events_eq (trace : Trace client replies requests events last) :
    last.events = if client.keepsEvents then client.events ++ events else client.events := by
  induction trace with
  | nil => simp
  | cons _ _ ih =>
    rw [ih]
    simp only [Client.after]
    split <;> simp

theorem length_requests (trace : Trace client replies requests events last) :
    requests.length = replies.countP fun reply => !reply.isRejected := by
  induction trace with
  | nil => rfl
  | cons accounted _ ih =>
    rw [List.length_append, ih, List.countP_cons]
    cases accounted <;> simp [Reply.isRejected, Nat.add_comm]

theorem length_requests_eq_executions (trace : Trace client replies requests events last) :
    requests.length = events.countP MetricsEvent.isExecution + replies.countP Reply.isHeld := by
  induction trace with
  | nil => rfl
  | cons accounted _ ih =>
    rw [List.length_append, ih, List.countP_append, List.countP_cons]
    cases accounted <;> simp [Reply.isHeld, MetricsEvent.isExecution] <;> omega

theorem countP_isRejection (trace : Trace client replies requests events last) :
    events.countP MetricsEvent.isRejection = replies.countP Reply.isRejected := by
  induction trace with
  | nil => rfl
  | cons accounted _ ih =>
    rw [List.countP_append, ih, List.countP_cons]
    cases accounted <;> simp [Reply.isRejected, MetricsEvent.isRejection, Nat.add_comm]

end Trace

namespace Client

variable {σ : Type}

theorem perform_cons (attempt : Attempt) (rest : List Attempt) (client : Client σ) :
    client.perform (attempt :: rest) =
      (⟨attempt, (attempt.run client).1⟩ :: ((attempt.run client).2.perform rest).1,
        ((attempt.run client).2.perform rest).2) := rfl

theorem perform_keeps (attempts : List Attempt) (client : Client σ) :
    (client.perform attempts).2.config = client.config ∧
      (client.perform attempts).2.ledger = client.ledger := by
  induction attempts generalizing client with
  | nil => exact ⟨rfl, rfl⟩
  | cons attempt rest ih =>
    obtain ⟨events, state, -, next⟩ := attempt.run_accounted client
    have kept := ih (attempt.run client).2
    rw [next] at kept
    rw [perform_cons, next]
    exact kept

theorem map_attempt_perform (attempts : List Attempt) (client : Client σ) :
    (client.perform attempts).1.map Reply.attempt = attempts := by
  induction attempts generalizing client with
  | nil => rfl
  | cons attempt rest ih => rw [perform_cons, List.map_cons, ih]

theorem perform_withLog (attempts : List Attempt) (client : Client σ) (log : List Request) :
    ∃ requests events,
      Trace client (client.perform attempts).1 requests events (client.perform attempts).2 ∧
        ((client.withLog log).perform attempts).2 =
          (client.perform attempts).2.withLog (log ++ requests) := by
  induction attempts generalizing client log with
  | nil => exact ⟨[], [], .nil, by rw [List.append_nil]; rfl⟩
  | cons attempt rest ih =>
    obtain ⟨events, state, accounted, next⟩ := attempt.run_accounted client
    have logged : (attempt.run (client.withLog log)).2 =
        (attempt.run client).2.withLog (log ++ attempt.submitted client) := by
      rw [attempt.run_eq, attempt.run_eq, (client.run_withLog log attempt.job attempt.timeout).2,
        attempt.submitted_eq, attempt.job_validate, attempt.request_eq]
    obtain ⟨later, laterEvents, trace, last⟩ := ih (attempt.run client).2
      (log ++ attempt.submitted client)
    refine ⟨attempt.submitted client ++ later, events ++ laterEvents, ?_, ?_⟩
    · rw [perform_cons, next]
      rw [next] at trace
      exact .cons accounted trace
    · rw [perform_cons, perform_cons, logged, last, List.append_assoc]

/-- Every call of a run is rejected without a request and with one recorded rejection, or submits
one request that is recorded, as soon as it is answered, as one execution with the status of the
result. -/
theorem perform_accounts (attempts : List Attempt) (client : Client σ) :
    ∃ requests events,
      ((client.withLog []).perform attempts).2.state.2 = requests ∧
      Trace client (client.perform attempts).1 requests events (client.perform attempts).2 ∧
      (client.perform attempts).1.map Reply.attempt = attempts ∧
      (client.perform attempts).2.events =
        (if client.keepsEvents then client.events ++ events else client.events) ∧
      requests.length = ((client.perform attempts).1.countP fun reply => !reply.isRejected) ∧
      requests.length = events.countP MetricsEvent.isExecution +
        (client.perform attempts).1.countP Reply.isHeld ∧
      events.countP MetricsEvent.isRejection =
        (client.perform attempts).1.countP Reply.isRejected := by
  obtain ⟨requests, events, trace, last⟩ := client.perform_withLog attempts []
  refine ⟨requests, events, ?_, trace, client.map_attempt_perform attempts, trace.events_eq,
    trace.length_requests, trace.length_requests_eq_executions, trace.countP_isRejection⟩
  rw [last]
  rfl

end Client

end LedgerClient
