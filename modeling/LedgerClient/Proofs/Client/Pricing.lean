import LedgerClient.Proofs.Client.Wire
import LedgerClient.Proofs.Operation.Freezing

/-!
What a query costs is asked for with the query that would be executed. Both calls are validated in the
same way, and the request for the cost holds the envelope of the execution, to the byte. Asking
changes neither the query nor what its client sends afterwards.
-/

namespace LedgerClient

theorem Envelope.toList_text_wrap (kind : String) (body : Json) :
    (wrap kind body).text.toList =
      '\x7b' :: (Json.quote kind ++ ':' :: (body.text.toList ++ ['\x7d'])) := by
  simp [wrap, Json.text, Json.ofMembers, Json.print, Json.printMembers]

/-- The envelope that asks for the cost of what an execution sends in its own. -/
def Query.costEnvelope (execution : String) : String :=
  "\x7b\"queryCost\":\x7b\"query\":" ++ execution ++ "\x7d\x7d"

theorem Query.text_costEnvelope (json : Json) :
    (Envelope.wrap "queryCost" (Envelope.wrap "query" json)).text = costEnvelope json.text := by
  have lead : "\x7b\"queryCost\":\x7b\"query\":".toList =
      '\x7b' :: (Json.quote "queryCost" ++ ':' :: '\x7b' :: (Json.quote "query" ++ [':'])) := by
    decide
  have ending : "\x7d\x7d".toList = ['\x7d', '\x7d'] := rfl
  refine String.toList_inj.mp ?_
  unfold costEnvelope
  rw [String.toList_append, String.toList_append, lead, ending, Envelope.toList_text_wrap,
    Envelope.toList_text_wrap]
  simp only [List.cons_append, List.append_assoc, List.nil_append]

theorem Attempt.envelope_cost {σ : Type} {kind : QueryKind} (query : Query kind) (client : Client σ)
    (timeout : Option Duration) :
    ((cost query).request client).envelope =
      Query.costEnvelope ((execute (.query query) timeout).request client).envelope := by
  rw [request, request, job_envelope, job_envelope]
  exact Query.text_costEnvelope _

/-- The request asks for the cost of what the execution sends. -/
structure Request.Prices (request execution : Request) : Prop where
  kind : request.kind = "queryCost"
  envelope : request.envelope = Query.costEnvelope execution.envelope
  signers : request.signers = []

namespace Query

variable {σ : Type} {kind : QueryKind}

/-- What asking for the cost of a query has to do with executing it on the same client, now or after
any calls on the client, and with what is done to the query afterwards. -/
structure CostLaws (query : Query kind) (client : Client σ) : Prop where
  rejected_iff : ∀ timeout cause,
    (query.cost client).1 = some (.error (.rejected cause)) ↔
      (query.execute client timeout).1 = some (.error (.rejected cause))
  submitted : ∀ timeout,
    (¬ (Operation.query query).Admissible client.ledger ∧
        (∃ cause, (query.cost client).1 = some (.error (.rejected cause))) ∧
        (Attempt.cost query).submitted client = [] ∧
        (Attempt.execute (.query query) timeout).submitted client = []) ∨
      (Operation.query query).Admissible client.ledger ∧
        ∃ request execution, (Attempt.cost query).submitted client = [request] ∧
          (Attempt.execute (.query query) timeout).submitted client = [execution] ∧
          request.Prices execution
  later : ∀ timeout attempts,
    (Attempt.execute (.query (query.step (.cost client))) timeout).submitted
        ((query.cost client).2.perform attempts).2 =
      (Attempt.execute (.query query) timeout).submitted client
  unchanged : ∀ before behind : List (Action kind),
    query.after (before ++ .cost client :: behind) = query.after (before ++ behind)
  changeable : query.isFrozen = false → (query.step (.cost client)).isFrozen = false ∧
    ∀ call : Call kind,
      (∃ next, (query.step (.cost client)).call call = .ok next) ∨
        ∃ cause span, (query.step (.cost client)).call call = .error cause ∧
          call.span = some span ∧ cause.RefusesSpan span

/-- A request for the cost of a query is rejected as an execution would be, or holds the envelope that
an execution sends; and it leaves the query as it is. -/
theorem costLaws (query : Query kind) (client : Client σ) : query.CostLaws client where
  rejected_iff timeout cause :=
    ((Attempt.cost query).run_eq_rejected_iff client cause).trans
      ((Attempt.execute (.query query) timeout).run_eq_rejected_iff client cause).symm
  submitted timeout := by
    let asking := Attempt.cost query
    let executing := Attempt.execute (.query query) timeout
    by_cases admissible : (Operation.query query).Admissible client.ledger
    · have asks : asking.submitted client = [asking.request client] :=
        Attempt.submitted_of_admissible admissible
      have executes : executing.submitted client = [executing.request client] :=
        Attempt.submitted_of_admissible admissible
      exact .inr ⟨admissible, _, _, asks, executes, rfl, Attempt.envelope_cost query client timeout,
        rfl⟩
    · have asks : asking.submitted client = [] ∧ _ :=
        Attempt.submitted_of_not_admissible admissible
      have executes : executing.submitted client = [] ∧ _ :=
        Attempt.submitted_of_not_admissible admissible
      exact .inl ⟨admissible, asks.2, asks.1, executes.1⟩
  later timeout attempts := by
    -- The request for the cost is the first of the calls in between.
    have kept := client.perform_keeps (.cost query :: attempts)
    exact (Attempt.execute (.query query) timeout).submitted_congr kept.1 kept.2
  unchanged before behind := by
    rw [after, after, List.foldl_append, List.foldl_append]
    rfl
  changeable unfrozen := by
    refine ⟨unfrozen, fun call => ?_⟩
    cases done : query.call call with
    | ok next => exact .inl ⟨next, done⟩
    | error cause =>
      obtain ⟨span, sets, refuses⟩ := refusesSpan_of_call unfrozen done
      exact .inr ⟨cause, span, done, sets, refuses⟩

end Query

end LedgerClient
