import LedgerClient.Proofs.Client.Wire
import LedgerClient.Proofs.Operation.Filling

/-!
Executions whose envelopes are executed again. The envelope that reaches an engine is read as the
operation with the client's defaults in place of what was not set; it holds no null, and it names
nodes and transaction ids exactly if the operation does. Executed on a client of the same
configuration and ledger, what was read is sent as the same envelope.
-/

namespace LedgerClient

open Json (valuesAt)

namespace Operation

def nodes : Operation → Option (List AccountId)
  | transaction t => t.body.nodes
  | query q => q.body.payment.nodes

def paidId : Operation → Option TransactionId
  | transaction t => t.body.id
  | query q => q.body.payment.id

/-- The JSON of an envelope has the nodes and the ids of an operation in their places, and where one
is not set stands nothing. A query for a receipt has the id that it asks for besides. -/
structure ShowsIds (operation : Operation) (json : Json) : Prop where
  nodes : valuesAt (operation.kind.name :: (operation.paidPath ++ ["nodeAccountIds"])) json =
    (operation.nodes.map AccountId.codec.list.encode).toList
  paidId : valuesAt (operation.kind.name :: (operation.paidPath ++ ["transactionId"])) json =
    (operation.paidId.map TransactionId.codec.encode).toList
  asked : ∀ q : Query .transactionReceipt, operation = query q →
    valuesAt ["transactionReceipt", "transactionId"] json =
      ((TransactionReceiptQuery.id q.body.data).map TransactionId.codec.encode).toList

theorem valuesAt_nodes (operation : Operation) (config : ClientConfig) :
    valuesAt (operation.paidPath ++ ["nodeAccountIds"]) (operation.requestBody config) =
      (operation.nodes.map AccountId.codec.list.encode).toList := by
  cases operation with
  | transaction t =>
    exact (t.body.withDefaults config).valuesAt_encode
      (List.mem_append_right _ (List.mem_of_getElem? (i := 0) rfl))
  | query q =>
    exact (q.body.withDefaults config).valuesAt_payment (List.mem_of_getElem? (i := 0) rfl)

theorem valuesAt_paidId (operation : Operation) (config : ClientConfig) :
    valuesAt (operation.paidPath ++ ["transactionId"]) (operation.requestBody config) =
      (operation.paidId.map TransactionId.codec.encode).toList := by
  cases operation with
  | transaction t =>
    exact (t.body.withDefaults config).valuesAt_encode
      (List.mem_append_right _ (List.mem_of_getElem? (i := 1) rfl))
  | query q =>
    exact (q.body.withDefaults config).valuesAt_payment (List.mem_of_getElem? (i := 6) rfl)

variable {operation : Operation} {config : ClientConfig} {timeout : Option Duration}

theorem showsIds_envelopeJson :
    operation.ShowsIds ((Attempt.execute operation timeout).envelopeJson config) where
  nodes := by
    rw [← operation.valuesAt_nodes config]
    exact (Attempt.execute operation timeout).valuesAt_envelopeJson config _
  paidId := by
    rw [← operation.valuesAt_paidId config]
    exact (Attempt.execute operation timeout).valuesAt_envelopeJson config _
  asked q same := by
    subst same
    have found := (q.body.withDefaults config).valuesAt_encode
      (List.mem_append_left _ (List.mem_of_getElem? (i := 0) rfl))
    exact ((Attempt.execute (query q) timeout).valuesAt_envelopeJson config
      ["transactionId"]).trans found

theorem envelopeJson_execute :
    (Attempt.execute operation timeout).envelopeJson config =
      (operation.filled config).envelopeJson := by
  cases operation <;> rfl

theorem envelope_execute :
    (Attempt.execute operation timeout).job.envelope config =
      (operation.filled config).envelope := by
  cases operation <;> rfl

/-- The envelope of a request is read as an operation, in which a configuration fills what is not
set in the first one. Executed on a client of the configuration and ledger, it is sent again. -/
structure Replays (operation : Operation) (config : ClientConfig) (ledger : LedgerId)
    (request : Request) (copy : Operation) : Prop where
  read : ofEnvelope operation.kind request.envelope = .ok copy
  fills : FillsTo config operation copy
  again : ∀ {τ : Type} (client : Client τ) (timeout : Option Duration),
    client.config = config → client.ledger = ledger →
      ∃ repeated, (Attempt.execute copy timeout).submitted client = [repeated] ∧
        repeated.envelope = request.envelope

theorem replays_filled {σ : Type} {client : Client σ} (reached : operation.Reachable)
    (own : client.config.validDuration.IsValid)
    (ids : ∀ id ∈ operation.transactionIds, id.validStart.isLeap = false)
    (times : ∀ time ∈ operation.expirationTime, time.IsCivil)
    (deep : operation.envelopeJson.depth ≤ Json.maxDepth)
    (admissible : operation.Admissible client.ledger) :
    operation.Replays client.config client.ledger
      ((Attempt.execute operation timeout).request client) (operation.filled client.config) where
  read := by
    show ofEnvelope _ ((Attempt.execute operation timeout).job.envelope client.config) = _
    rw [envelope_execute]
    exact ofEnvelope_filled reached own ids times deep
  fills := operation.fillsTo_filled client.config
  again again later config ledger := by
    have still : (operation.filled client.config).Admissible again.ledger :=
      ledger ▸ admissible.filled own
    refine ⟨_, Attempt.submitted_of_admissible still, ?_⟩
    -- Nothing is left to fill, so that the envelope is written from the same operation.
    show (Attempt.execute (operation.filled client.config) later).job.envelope again.config =
      (Attempt.execute operation timeout).job.envelope client.config
    rw [envelope_execute, envelope_execute, config, filled_filled]

/-- Each envelope that an execution sends replays. It holds no null, and shows the nodes and ids of
the operation. -/
theorem execution_replays {σ : Type} {client : Client σ} {request : Request}
    (reached : operation.Reachable) (obtained : client.config.Obtained)
    (ids : ∀ id ∈ operation.transactionIds, id.validStart.isLeap = false)
    (times : ∀ time ∈ operation.expirationTime, time.IsCivil)
    (deep : operation.envelopeJson.depth ≤ Json.maxDepth)
    (sent : request ∈ (Attempt.execute operation timeout).submitted client) :
    (∃ copy, operation.Replays client.config client.ledger request copy) ∧
      ∃ json, request.ReadsAs json ∧ ¬ json.Contains .null ∧ operation.ShowsIds json := by
  obtain ⟨rfl, admissible⟩ := Attempt.mem_submitted sent
  let attempt := Attempt.execute operation timeout
  have inside : (attempt.envelopeJson client.config).depth ≤ Json.maxDepth := by
    rw [envelopeJson_execute]
    exact Nat.le_trans (operation.depth_filled_le client.config) deep
  have read := attempt.request_readsAs client
  rw [Json.upTo_of_depth_le inside] at read
  exact ⟨⟨_, replays_filled reached obtained.validDuration ids times deep admissible⟩, _, read,
    (attempt.envelopeJson_plain client.config).not_contains_null, showsIds_envelopeJson⟩

def freeBalance : Query .accountBalance :=
  Query.new.after [.call (.data (.setAccount (.ofNum 5))), .call (.setMaxAmount .zero)]

theorem execution_replays_freeBalance :
    ∃ request ∈ (Attempt.execute (query freeBalance) none).submitted (Client.answering .accepted),
      (∃ copy, (query freeBalance).Replays .forTestnet .testnet request copy) ∧
        ∃ json, request.ReadsAs json ∧ ¬ json.Contains .null ∧
          (query freeBalance).ShowsIds json := by
  have reached : (query freeBalance).Reachable := Query.Reachable.after .new _
  have ids : ∀ id ∈ (query freeBalance).transactionIds, id.validStart.isLeap = false := by
    decide
  have times : ∀ time ∈ (query freeBalance).expirationTime, time.IsCivil := by decide
  have deep : (query freeBalance).envelopeJson.depth ≤ Json.maxDepth := by decide +kernel
  have sent : (Attempt.execute (query freeBalance) none).request (Client.answering .accepted) ∈ _ :=
    Attempt.request_mem_submitted (by decide +kernel)
  exact ⟨_, sent, execution_replays reached .testnet ids times deep sent⟩

/-- The envelope of an update that expires in a leap second inside a minute is read as an update that
expires a second later. -/
theorem execution_of_expiringUpdate_not_replayed :
    (transaction expiringUpdate).Reachable ∧
      (∀ id ∈ (transaction expiringUpdate).transactionIds, id.validStart.isLeap = false) ∧
      (transaction expiringUpdate).envelopeJson.depth ≤ Json.maxDepth ∧
      ∃ request ∈
          (Attempt.execute (transaction expiringUpdate) none).submitted (Client.answering .accepted),
        ¬ ∃ copy, (transaction expiringUpdate).Replays .forTestnet .testnet request copy := by
  have sent : (Attempt.execute (transaction expiringUpdate) none).request
      (Client.answering .accepted) ∈ _ := Attempt.request_mem_submitted (by decide +kernel)
  refine ⟨expiringUpdate_reachable, by decide, by decide +kernel, _, sent, ?_⟩
  rintro ⟨copy, replays⟩
  have text : ((transaction expiringUpdate).filled .forTestnet).envelope =
      ((transaction expiringLater).filled .forTestnet).envelope := by decide +kernel
  have read : ofEnvelope (.transaction .contractUpdate)
      ((transaction expiringUpdate).filled .forTestnet).envelope = .ok copy := replays.read
  have later := @ofEnvelope_filled (transaction expiringLater) .forTestnet expiringLater_reachable
    ClientConfig.Obtained.testnet.validDuration (by decide) (by decide) (by decide +kernel)
  rw [← text] at later
  have same := replays.fills.expirationTime
  rw [← Except.ok.inj (later.symm.trans read)] at same
  exact nomatch same

end Operation

end LedgerClient
