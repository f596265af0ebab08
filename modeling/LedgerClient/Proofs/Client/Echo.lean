import LedgerClient.Engine.Mock
import LedgerClient.Proofs.Client.Wire
import LedgerClient.Proofs.Engine.Tasks
import LedgerClient.Proofs.Operation.Filling
import LedgerClient.Proofs.Response.RoundTrip

/-!
Transactions that name their ids, executed on the mock engine. The engine reads the envelope as a
tree of its own and takes the id and the first node out of it as texts; what it answers with is
written and read once more. An id and a node survive all of this, in every form.
-/

namespace LedgerClient

/-! ### The body, as the engine reads it -/

theorem Envelope.tree?_of_body {kind text : String} {json : Json} (h : body kind text = .ok json) :
    ∃ ends, tree? text = some (.object [(kind, json)] ends) := by
  rw [body] at h
  split at h
  · next tag found ends same =>
    split_ifs at h with own
    cases h
    exact ⟨ends, own ▸ same⟩
  · cases h
  · cases h

theorem RecordedRequest.exists_body? {request : RecordedRequest} {kind : String} {json : Json}
    (isKind : request.kind = kind) (sent : request.envelope = Envelope.text kind json)
    (written : json.Written) (deep : (Envelope.wrap kind json).depth ≤ Json.maxDepth) :
    ∃ tree, request.body? = some tree ∧ Json.Presents json tree := by
  obtain ⟨tree, presents, read⟩ := Envelope.body_text written deep
  obtain ⟨ends, found⟩ := Envelope.tree?_of_body read
  refine ⟨tree, ?_, presents⟩
  rw [body?, tree?, sent, found, isKind, Option.bind_some]
  exact Json.member?_of_mem (List.nodup_singleton _) List.mem_cons_self

namespace MockEngine

section

variable {fields : List Json.Field} {name : String} {tree : Json} {α : Type} {write : α → String}
  {parse : String → Except LedgerError α}

theorem textMember?_of_presents (names : (fields.map Prod.fst).Nodup)
    (presents : Json.Presents (Json.ofMembers (Json.membersOf fields)) tree) {value : Option α}
    (there : (name, value.map (Codec.text write parse).encode) ∈ fields) :
    textMember? name tree = value.map write := by
  rw [textMember?]
  cases value with
  | none =>
    rw [presents.member?_eq_none (Json.not_mem_membersOf names there)]
    rfl
  | some value =>
    obtain ⟨found, member, same⟩ := presents.exists_member? there
    rw [member, same.eq_string]
    rfl

theorem firstText?_of_presents (names : (fields.map Prod.fst).Nodup)
    (presents : Json.Presents (Json.ofMembers (Json.membersOf fields)) tree)
    {values : Option (List α)}
    (there : (name, values.map (Codec.text write parse).list.encode) ∈ fields) :
    firstText? name tree = (values.getD []).head?.map write := by
  rw [firstText?]
  cases values with
  | none =>
    rw [presents.member?_eq_none (Json.not_mem_membersOf names there)]
    rfl
  | some values =>
    obtain ⟨found, member, same⟩ := presents.exists_member? there
    obtain ⟨trees, ends, rfl, -, items⟩ := same.of_ofItems
    rw [member]
    cases values with
    | nil =>
      cases items
      rfl
    | cons first rest =>
      cases items with
      | cons isFirst _ =>
        rw [isFirst.eq_string]
        rfl

end

/-- What the engine takes out of a body: the id and the first node, as they are written. No
transaction has a payment, by which the engine tells queries. -/
structure Sees {kind : TransactionKind} (tree : Json) (body : TransactionBody kind) : Prop where
  id : textMember? "transactionId" tree = body.id.map TransactionId.text
  node : firstText? "nodeAccountIds" tree = (body.nodes.getD []).head?.map AccountId.text
  unpaid : tree.member? "payment" = none

variable {kind : TransactionKind} {body : TransactionBody kind} {tree : Json}

theorem payment_not_mem (kind : TransactionKind) :
    "payment" ∉ kind.operation.record.slots.map Slot.name ++
      (TransactionBody.common : Record (TransactionBody kind)).slots.map Slot.name := by
  cases kind <;> decide

theorem sees_of_presents (presents : Json.Presents body.encode tree) : Sees tree body := by
  let fields := kind.operation.record.fields body.data ++ TransactionBody.common.fields body
  have whole : body.encode = Json.ofMembers (Json.membersOf fields) := by
    rw [TransactionBody.encode, Record.members_eq, Record.members_eq, Json.membersOf_append]
  have names : fields.map Prod.fst = kind.operation.record.slots.map Slot.name ++
      (TransactionBody.common : Record (TransactionBody kind)).slots.map Slot.name := by
    rw [List.map_append, Record.names_fields, Record.names_fields]
  have distinct : (fields.map Prod.fst).Nodup := names ▸ TransactionBody.names_nodup kind
  rw [whole] at presents
  have id : ("transactionId", body.id.map TransactionId.codec.encode) ∈ fields :=
    List.mem_append_right _ (List.mem_of_getElem? (i := 1) rfl)
  have nodes : ("nodeAccountIds", body.nodes.map AccountId.codec.list.encode) ∈ fields :=
    List.mem_append_right _ (List.mem_of_getElem? (i := 0) rfl)
  refine ⟨textMember?_of_presents distinct presents id,
    firstText?_of_presents distinct presents nodes, presents.member?_eq_none fun found => ?_⟩
  exact payment_not_mem kind (names ▸ (Json.names_membersOf_sublist fields).subset found)

/-! ### The answer -/

variable {engine : MockEngine} {request : Request} {id : TransactionId}

theorem parseOptional_text {α : Type} {write : α → String} {parse : String → Except LedgerError α}
    {value : Option α} (reads : ∀ a ∈ value, parse (write a) = .ok a) :
    parseOptional parse (value.map write) = .ok value := by
  cases value with
  | none => rfl
  | some a => simp [parseOptional, reads]

def echo (body : TransactionBody kind) (id : TransactionId) (envelope : String) :
    TransactionResponse where
  node := (body.nodes.getD []).head?.getD (.ofNum 3)
  transactionId := id
  hash := Sha512.digest384 (Bytes.ofText envelope)

theorem acceptTransaction_of_sees (sees : Sees tree body) (own : body.id = some id)
    (plain : id.validStart.isLeap = false) :
    engine.acceptTransaction request tree =
      .ok (Bytes.ofText (TransactionResponse.codec.encodeText (echo body id request.envelope))) := by
  have isId : engine.transactionId tree = .ok id := by
    have read : parseOptional TransactionId.parse (body.id.map TransactionId.text) = .ok (some id) := by
      rw [own]
      exact parseOptional_text fun a ha => Option.mem_some.mp ha ▸ TransactionId.parse_text plain
    rw [transactionId, sees.id, read]
    rfl
  have isNode : parseOptional AccountId.parse (firstText? "nodeAccountIds" tree) =
      .ok (body.nodes.getD []).head? := by
    rw [sees.node]
    exact parseOptional_text fun a _ => a.parse_text
  rw [acceptTransaction, isId]
  simp only [bind, Except.bind, isNode]
  rfl

theorem respond_of_body (body : TransactionBody kind)
    (unscripted : engine.responses.find? (·.1 = kind.name) = none)
    (isKind : request.kind = kind.name)
    (sent : request.envelope = Envelope.text kind.name body.encode)
    (deep : (Envelope.wrap kind.name body.encode).depth ≤ Json.maxDepth)
    (own : body.id = some id) (plain : id.validStart.isLeap = false) :
    engine.respond request =
      .ok (Bytes.ofText (TransactionResponse.codec.encodeText (echo body id request.envelope))) := by
  have name : kind.name ≠ "queryCost" ∧ kind.name ≠ "transactionReceipt" := by
    cases kind <;> decide
  have named : (RecordedRequest.ofRequest request).kind = kind.name := isKind
  have written : (RecordedRequest.ofRequest request).envelope = Envelope.text kind.name body.encode :=
    sent
  obtain ⟨tree, found, presents⟩ :=
    RecordedRequest.exists_body? named written body.encode_plain.written deep
  have sees := sees_of_presents presents
  rw [respond, isKind, unscripted]
  simp only [found, name, sees.unpaid, if_false]
  exact acceptTransaction_of_sees sees own plain

theorem submit_of_faultless (noDrop : engine.dropCount = 0)
    (noError : engine.injectedErrorCount = 0) :
    submit request engine =
      (some { outcome := .ofResult (engine.respond request), elapsed := engine.delay },
        engine.record request) := by
  have faultless : (engine.record request).dropCount = 0 ∧
      (engine.record request).injectedErrorCount = 0 := ⟨noDrop, noError⟩
  rw [submit, settle_of_none faultless.1 faultless.2]
  rfl

end MockEngine

theorem Client.run_of_payload {σ ρ : Type} {client : Client σ} {job : Job ρ}
    {timeout : Option Duration} {bytes : Bytes} {elapsed : Duration} {state : σ} {value : ρ}
    (valid : job.validate client.ledger = .ok ())
    (answered : client.engine.submit (client.request job timeout) client.state =
      (some ⟨.payload bytes, elapsed⟩, state))
    (decoded : job.response.decodeBytes bytes = .ok value) :
    client.run job timeout =
      (some (.ok value), client.after state [.execution job.kind elapsed .success]) := by
  rw [run, valid]
  simp only [answered, settle, decoded]
  rw [record_eq_after]

namespace Transaction

variable {kind : TransactionKind}

/-- A valid transaction with an id of its own, executed on a mock engine without a fault to inject or
a response for its kind, is answered with this id, with its first node and with the hash of the
recorded envelope, and keeps its id. -/
theorem execute_echoes (transaction : Transaction kind) {client : Client MockEngine}
    {id : TransactionId} (timeout : Option Duration)
    (onMock : client.engine = MockEngine.toEngine)
    (valid : transaction.body.validate client.ledger = .ok ())
    (own : transaction.body.id = some id) (plain : id.validStart.isLeap = false)
    (deep : (Operation.transaction transaction).envelopeJson.depth ≤ Json.maxDepth)
    (unscripted : client.state.responses.find? (·.1 = kind.name) = none)
    (noDrop : client.state.dropCount = 0) (noError : client.state.injectedErrorCount = 0) :
    ∃ (response : TransactionResponse) (recorded : RecordedRequest),
      (transaction.execute client timeout).1 = some (.ok response) ∧
        response.transactionId = id ∧
        response.node = (transaction.body.nodes.getD []).head?.getD (.ofNum 3) ∧
        response.hash = Sha512.digest384 (Bytes.ofText recorded.envelope) ∧
        (transaction.execute client timeout).2.2.state.requests =
          client.state.requests ++ [recorded] ∧
        (transaction.execute client timeout).2.1.body.id = some id := by
  let body := transaction.body.withDefaults client.config
  let request := client.request transaction.job timeout
  let response := MockEngine.echo body id request.envelope
  have sentDeep : (Envelope.wrap kind.name body.encode).depth ≤ Json.maxDepth :=
    Nat.le_trans ((Operation.transaction transaction).depth_filled_le client.config) deep
  have answered : client.engine.submit request client.state =
      (some ⟨.payload (Bytes.ofText (TransactionResponse.codec.encodeText response)),
        client.state.delay⟩, client.state.record request) := by
    have submitted : MockEngine.submit request client.state = _ :=
      MockEngine.submit_of_faultless noDrop noError
    rw [MockEngine.respond_of_body body unscripted rfl rfl sentDeep own plain] at submitted
    rw [onMock]
    exact submitted
  have ran : client.run transaction.job timeout = _ :=
    Client.run_of_payload valid answered ((TransactionResponse.readsBack plain).own)
  have executed : transaction.execute client timeout =
      (some (.ok response), transaction.freeze.complete response,
        client.after (client.state.record request)
          [.execution kind.name client.state.delay .success]) := by
    have job : transaction.freeze.job = transaction.job := rfl
    rw [execute, job, ran]
    rfl
  refine ⟨response, .ofRequest request, ?_⟩
  rw [executed]
  have kept : (transaction.freeze.complete response).body.id = some id := by
    simp [complete, freeze, own]
  exact ⟨rfl, rfl, rfl, rfl, rfl, kept⟩

/-- An unpausing that is paid for by account 123, with its checksum on the test network, and sent to an
address. -/
def addressedUnpause : Transaction .tokenUnpause where
  body :=
    { (new : Transaction .tokenUnpause).body with
      id := some
        { account := ⟨0, 0, .number 123 (some (Checksum.generate "0.0.123" .testnet))⟩
          validStart := .epoch
          nonce := some 7 }
      nodes := some [.ofAddress 0 1 ⟨List.replicate 20 0x0F, rfl⟩, .ofNum 5] }

end Transaction

def Client.mockTestnet : Client MockEngine where
  config := .forTestnet
  engine := MockEngine.toEngine
  state := {}

theorem Transaction.execute_echoes_addressedUnpause :
    ∃ (response : TransactionResponse) (recorded : RecordedRequest),
      (addressedUnpause.execute .mockTestnet).1 = some (.ok response) ∧
        some response.transactionId = addressedUnpause.body.id ∧
        response.node = .ofAddress 0 1 ⟨List.replicate 20 0x0F, rfl⟩ ∧
        response.hash = Sha512.digest384 (Bytes.ofText recorded.envelope) ∧
        (addressedUnpause.execute .mockTestnet).2.2.state.requests = [recorded] ∧
        (addressedUnpause.execute .mockTestnet).2.1.body.id = addressedUnpause.body.id := by
  have valid : addressedUnpause.body.validate Client.mockTestnet.ledger = .ok () := by
    decide +kernel
  have deep : (Operation.transaction addressedUnpause).envelopeJson.depth ≤ Json.maxDepth := by
    decide +kernel
  obtain ⟨response, recorded, answered, id, node, hash, requests, kept⟩ :=
    addressedUnpause.execute_echoes none rfl valid rfl rfl deep rfl rfl rfl
  exact ⟨response, recorded, answered, congrArg some id, node, hash, requests, kept⟩

end LedgerClient
