import LedgerClient.Proofs.Client.Accounting
import LedgerClient.Proofs.Client.Admission
import LedgerClient.Proofs.Operation.Execution
import LedgerClient.Proofs.Operation.Layout

/-!
What stands in the envelopes that reach an engine. Each call sends one body, that of its operation
with the client's defaults; the cost of a query is asked for with the query nested inside. From this
follow the rules that hold of every request: of its valid duration, and of the numbers of a chunk.
-/

namespace LedgerClient

open Json (valuesAt)

/-- The envelope is JSON to its end and is read as this value. -/
def Request.ReadsAs (request : Request) (json : Json) : Prop :=
  Json.read (request.envelope.toList.map some) = (json, true)

theorem Request.ReadsAs.unique {request : Request} {json other : Json}
    (reads : request.ReadsAs json) (readsOther : request.ReadsAs other) : json = other :=
  (Prod.mk.inj (reads.symm.trans readsOther)).1

namespace Operation

def requestBody (config : ClientConfig) : Operation → Json
  | transaction t => (t.body.withDefaults config).encode
  | query q => (q.body.withDefaults config).encode

theorem requestBody_plain (operation : Operation) (config : ClientConfig) :
    (operation.requestBody config).Plain := by
  cases operation with
  | transaction t => exact (t.body.withDefaults config).encode_plain
  | query q => exact (q.body.withDefaults config).encode_plain

/-- Where a body has the fields of the transaction that is paid for: a query has them in its
payment. -/
def paidPath : Operation → List String
  | transaction _ => []
  | query _ => ["payment"]

theorem valuesAt_validDuration (operation : Operation) (config : ClientConfig) :
    valuesAt (operation.paidPath ++ ["transactionValidDuration"]) (operation.requestBody config) =
      [Duration.codec.encode (operation.validDuration.getD config.validDuration)] := by
  cases operation with
  | @transaction kind t =>
    have there : ("transactionValidDuration",
          (t.body.withDefaults config).validDuration.map Duration.codec.encode) ∈
        TransactionBody.common.fields (t.body.withDefaults config) :=
      List.mem_of_getElem? (i := 4) rfl
    have found := (t.body.withDefaults config).valuesAt_encode (List.mem_append_right _ there)
    rw [paidPath, List.nil_append, requestBody, found, TransactionBody.withDefaults, validDuration]
    cases t.body.validDuration <;> rfl
  | @query kind q =>
    have there : ("transactionValidDuration",
          (q.body.payment.withDefaults config).validDuration.map Duration.codec.encode) ∈
        Payment.record.fields (q.body.payment.withDefaults config) :=
      List.mem_of_getElem? (i := 7) rfl
    have found := (q.body.withDefaults config).valuesAt_payment there
    rw [paidPath, List.singleton_append, requestBody, found, Payment.withDefaults, validDuration]
    cases q.body.payment.validDuration <;> rfl

theorem valuesAt_chunk {operation : Operation} {number total : UInt32}
    (set : operation.chunk = some (number, total)) (config : ClientConfig) :
    valuesAt ["chunkNumber"] (operation.requestBody config) = [Codec.uint32.encode number] ∧
      valuesAt ["chunkTotal"] (operation.requestBody config) = [Codec.uint32.encode total] := by
  cases operation with
  | @transaction kind t =>
    cases kind with
    | topicMessageSubmit =>
      cases set
      let submit : TopicMessageSubmit := t.body.data
      have shown {name : String} {json : Json}
          (there : (name, some json) ∈ TopicMessageSubmit.record.fields submit) :
          valuesAt [name] (t.body.withDefaults config).encode = [json] :=
        (t.body.withDefaults config).valuesAt_encode (List.mem_append_left _ there)
      exact ⟨shown (List.mem_of_getElem? (i := 4) rfl), shown (List.mem_of_getElem? (i := 3) rfl)⟩
    | _ => cases set
  | query q => cases set

end Operation

namespace Attempt

variable {σ : Type}

def bodyPath : Attempt → List String
  | execute operation _ => [operation.kind.name]
  | @cost kind _ => ["queryCost", "query", kind.name]
  | receipt _ => ["transactionReceipt"]

def envelopeJson (attempt : Attempt) (config : ClientConfig) : Json :=
  attempt.bodyPath.foldr Envelope.wrap (attempt.operation.requestBody config)

theorem job_envelope (attempt : Attempt) (config : ClientConfig) :
    attempt.job.envelope config = (attempt.envelopeJson config).text := by
  cases attempt with
  | execute operation timeout => cases operation <;> rfl
  | cost query => rfl
  | receipt response => rfl

theorem envelopeJson_plain (attempt : Attempt) (config : ClientConfig) :
    (attempt.envelopeJson config).Plain := by
  rw [envelopeJson]
  induction attempt.bodyPath with
  | nil => exact attempt.operation.requestBody_plain config
  | cons name path ih => exact ih.member name

theorem valuesAt_envelopeJson (attempt : Attempt) (config : ClientConfig) (path : List String) :
    valuesAt (attempt.bodyPath ++ path) (attempt.envelopeJson config) =
      valuesAt path (attempt.operation.requestBody config) := by
  rw [envelopeJson]
  induction attempt.bodyPath with
  | nil => rfl
  | cons name before ih =>
    rw [List.cons_append, List.foldr_cons, Envelope.wrap, Json.valuesAt_member, ih]

theorem request_readsAs (attempt : Attempt) (client : Client σ) :
    (attempt.request client).ReadsAs ((attempt.envelopeJson client.config).upTo Json.maxDepth) := by
  -- A key may be nested deeper than a reader goes; nothing is lost above that.
  have written := (attempt.envelopeJson_plain client.config).written
  rw [Request.ReadsAs, request, job_envelope, Json.text, String.toList_ofList,
    written.read_print_upTo]

theorem submitted_cases (attempt : Attempt) (client : Client σ) :
    attempt.submitted client = [attempt.request client] ∧
        attempt.operation.Admissible client.ledger ∨
      attempt.submitted client = [] ∧ ¬ attempt.operation.Admissible client.ledger := by
  rw [submitted_eq]
  rcases attempt.operation.validate_cases client.ledger with ⟨valid, admissible⟩ |
    ⟨cause, invalid, fault⟩
  · rw [valid]
    exact .inl ⟨rfl, admissible⟩
  · rw [invalid]
    exact .inr ⟨rfl, fault.not_admissible⟩

theorem mem_submitted {attempt : Attempt} {client : Client σ} {request : Request}
    (h : request ∈ attempt.submitted client) :
    request = attempt.request client ∧ attempt.operation.Admissible client.ledger := by
  rcases attempt.submitted_cases client with ⟨submitted, admissible⟩ | ⟨submitted, -⟩
  · rw [submitted] at h
    exact ⟨List.mem_singleton.mp h, admissible⟩
  · rw [submitted] at h
    cases h

theorem submitted_of_admissible {attempt : Attempt} {client : Client σ}
    (admissible : attempt.operation.Admissible client.ledger) :
    attempt.submitted client = [attempt.request client] := by
  rcases attempt.submitted_cases client with ⟨submitted, -⟩ | ⟨-, inadmissible⟩
  · exact submitted
  · exact absurd admissible inadmissible

theorem submitted_of_not_admissible {attempt : Attempt} {client : Client σ}
    (inadmissible : ¬ attempt.operation.Admissible client.ledger) :
    attempt.submitted client = [] ∧
      ∃ cause, (attempt.run client).1 = some (.error (.rejected cause)) := by
  rcases attempt.operation.validate_cases client.ledger with ⟨-, admissible⟩ | ⟨cause, invalid, -⟩
  · exact absurd admissible inadmissible
  · refine ⟨?_, cause, (attempt.run_eq_rejected_iff client cause).mpr invalid⟩
    rw [submitted_eq, invalid]
    rfl

theorem length_bodyPath_le (attempt : Attempt) {path : List String} (short : path.length ≤ 2) :
    (attempt.bodyPath ++ path).length ≤ Json.maxDepth := by
  cases attempt <;> simp only [bodyPath, List.length_append, List.length_cons, List.length_nil,
    Json.maxDepth] <;> omega

theorem valuesAt_read_eq_nil_iff (attempt : Attempt) {config : ClientConfig} {path : List String}
    (short : path.length ≤ 2) :
    valuesAt (attempt.bodyPath ++ path) ((attempt.envelopeJson config).upTo Json.maxDepth) = [] ↔
      valuesAt path (attempt.operation.requestBody config) = [] := by
  rw [Json.valuesAt_upTo (attempt.length_bodyPath_le short), valuesAt_envelopeJson,
    List.map_eq_nil_iff]

theorem request_mem_submitted {attempt : Attempt} {client : Client σ}
    (valid : (attempt.operation.validate client.ledger).isOk = true) :
    attempt.request client ∈ attempt.submitted client := by
  rw [submitted_eq, if_pos valid]
  exact List.mem_cons_self

theorem valuesAt_read (attempt : Attempt) {config : ClientConfig} {path : List String}
    {value : Json} (written : valuesAt path (attempt.operation.requestBody config) = [value])
    (flat : value.depth = 0) (short : path.length ≤ 2) :
    valuesAt (attempt.bodyPath ++ path) ((attempt.envelopeJson config).upTo Json.maxDepth) =
      [value] := by
  rw [← valuesAt_envelopeJson] at written
  rw [Json.valuesAt_upTo_of_depth_le (attempt.length_bodyPath_le short), written]
  intro other ho
  rw [written] at ho
  rw [List.mem_singleton.mp ho, flat]
  exact Nat.zero_le _

/-- The rules for the fields of an envelope: where the transaction that is paid for has its valid
duration stands one number of seconds, 1 to 180 of them, and a message is one of its chunks. -/
structure KeepsRules (attempt : Attempt) (json : Json) : Prop where
  duration : ∃ seconds : Nat, 1 ≤ seconds ∧ seconds ≤ 180 ∧
    valuesAt (attempt.bodyPath ++ (attempt.operation.paidPath ++ ["transactionValidDuration"]))
      json = [Json.ofNat seconds]
  chunk : attempt.kind = "topicMessageSubmit" → ∃ number total : Nat, 1 ≤ number ∧ number ≤ total ∧
    valuesAt (attempt.bodyPath ++ ["chunkNumber"]) json = [Json.ofNat number] ∧
    valuesAt (attempt.bodyPath ++ ["chunkTotal"]) json = [Json.ofNat total]

theorem exists_chunk {attempt : Attempt} (message : attempt.kind = "topicMessageSubmit") :
    ∃ number total, attempt.operation.chunk = some (number, total) := by
  cases attempt with
  | execute operation timeout =>
    rcases operation with @⟨kind, t⟩ | @⟨kind, q⟩
    · cases kind with
      | topicMessageSubmit => exact ⟨_, _, rfl⟩
      | _ => simp [kind, Operation.kind, OperationKind.name, TransactionKind.name] at message
    · cases kind <;> simp [kind, Operation.kind, OperationKind.name, QueryKind.name] at message
  | cost query => simp [kind] at message
  | receipt response => simp [kind] at message

theorem keepsRules_of_mem_submitted {attempt : Attempt} {client : Client σ} {request : Request}
    (own : client.config.validDuration.IsValid) (h : request ∈ attempt.submitted client) :
    request.kind = attempt.kind ∧ ∃ json, request.ReadsAs json ∧ attempt.KeepsRules json := by
  obtain ⟨rfl, admissible⟩ := mem_submitted h
  refine ⟨rfl, _, attempt.request_readsAs client, ?_, ?_⟩
  · have inside : (attempt.operation.validDuration.getD client.config.validDuration).IsValid :=
      getD_of_forall Duration.IsValid own admissible.duration
    have short : (attempt.operation.paidPath ++ ["transactionValidDuration"]).length ≤ 2 := by
      cases attempt.operation <;> simp [Operation.paidPath]
    have written := attempt.operation.valuesAt_validDuration client.config
    rw [Duration.encode_of_nanos_eq_zero inside.1] at written
    exact ⟨_, inside.2.1, inside.2.2, attempt.valuesAt_read written rfl short⟩
  · intro message
    obtain ⟨number, total, set⟩ := exists_chunk message
    obtain ⟨first, last⟩ := admissible.chunk number total set
    obtain ⟨writtenNumber, writtenTotal⟩ := Operation.valuesAt_chunk set client.config
    exact ⟨number.toNat, total.toNat, first, last,
      attempt.valuesAt_read writtenNumber rfl (by decide),
      attempt.valuesAt_read writtenTotal rfl (by decide)⟩

theorem Accounted.requests_eq {attempt : Attempt} {client : Client σ}
    {result : Option (Except ClientError attempt.Response)} {requests : List Request}
    {events : List MetricsEvent} {state : σ}
    (accounted : attempt.Accounted client result requests events state) :
    requests = attempt.submitted client := by
  rw [submitted_eq]
  cases accounted with
  | rejected invalid => rw [invalid]; rfl
  | held valid => rw [valid]; rfl
  | success valid => rw [valid]; rfl
  | undecodable valid => rw [valid]; rfl
  | failure valid => rw [valid]; rfl
  | dropped valid => rw [valid]; rfl

end Attempt

theorem Trace.forall_requests {σ : Type} {client last : Client σ} {replies : List Reply}
    {requests : List Request} {events : List MetricsEvent} {holds : Attempt → Request → Prop}
    (trace : Trace client replies requests events last)
    (each : ∀ (attempt : Attempt) (now : Client σ), now.config = client.config →
      ∀ request ∈ attempt.submitted now, holds attempt request) :
    ∀ request ∈ requests, ∃ attempt ∈ replies.map Reply.attempt, holds attempt request := by
  induction trace with
  | nil => nofun
  | cons accounted _ ih =>
    intro request hr
    rcases List.mem_append.mp hr with here | later
    · rw [accounted.requests_eq] at here
      exact ⟨_, List.mem_cons_self, each _ _ rfl request here⟩
    · obtain ⟨attempt, ha, held⟩ := ih each request later
      exact ⟨attempt, List.mem_cons_of_mem _ ha, held⟩

/-- Configurations that callers can come by: accepted by the builder, or a preset. -/
inductive ClientConfig.Obtained : ClientConfig → Prop
  | built {draft config : ClientConfig} (h : draft.build = .ok config) : Obtained config
  | mainnet : Obtained forMainnet
  | testnet : Obtained forTestnet
  | previewnet : Obtained forPreviewnet

theorem ClientConfig.Obtained.validDuration {config : ClientConfig} (obtained : config.Obtained) :
    config.validDuration.IsValid := by
  cases obtained with
  | @built draft _ h =>
    unfold build validate at h
    rcases draft.validDuration.checkValid_cases with ⟨checked, valid⟩ | ⟨refused, -⟩ |
      ⟨refused, -⟩
    · split at h
      · cases h
        exact valid
      · cases h
    · simp [refused] at h
    · simp [refused] at h
  | mainnet => exact ⟨rfl, by decide⟩
  | testnet => exact ⟨rfl, by decide⟩
  | previewnet => exact ⟨rfl, by decide⟩

/-- Whatever is called on a client of an obtained configuration, every request that its engine
receives keeps the rules of the call that sent it. -/
theorem Client.requests_keep_rules {σ : Type} {client : Client σ}
    (obtained : client.config.Obtained) (attempts : List Attempt) :
    ∀ request ∈ ((client.withLog []).perform attempts).2.state.2, ∃ attempt ∈ attempts,
      request.kind = attempt.kind ∧ ∃ json, request.ReadsAs json ∧ attempt.KeepsRules json := by
  obtain ⟨requests, events, trace, last⟩ := client.perform_withLog attempts []
  rw [last, List.nil_append]
  have kept := trace.forall_requests fun attempt now same request sent =>
    attempt.keepsRules_of_mem_submitted (same ▸ obtained.validDuration) sent
  rw [client.map_attempt_perform] at kept
  exact kept

def messageCostReceipt : List Attempt :=
  [.execute (.new (.transaction .topicMessageSubmit)) none,
    .cost (Query.new : Query .accountBalance), .receipt .accepted]

theorem Client.requests_keep_rules_testnet :
    (((answering .accepted).withLog []).perform messageCostReceipt).2.state.2.length = 3 ∧
      ∀ request ∈ (((answering .accepted).withLog []).perform messageCostReceipt).2.state.2,
        ∃ attempt ∈ messageCostReceipt, request.kind = attempt.kind ∧
          ∃ json, request.ReadsAs json ∧ attempt.KeepsRules json :=
  ⟨by decide +kernel,
    @requests_keep_rules _ (answering .accepted) .testnet messageCostReceipt⟩

end LedgerClient
