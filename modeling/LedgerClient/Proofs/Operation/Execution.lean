import LedgerClient.Proofs.Client.Attempt
import LedgerClient.Proofs.Operation.Freezing
import LedgerClient.Proofs.Operation.RoundTrip

/-! What executions leave in their operations. A transaction is frozen and otherwise stays as it is,
unless it is answered with a response: this fills the id and the node list that were not set. From
then on both are fixed, and every request of a later execution carries them. A query is frozen. -/

namespace LedgerClient

/-- The request's envelope holds a transaction of this kind whose only id and node list are these. -/
def Request.Carries (request : Request) (kind : TransactionKind) (id : TransactionId)
    (nodes : List AccountId) : Prop :=
  ∃ members : List (String × Json),
    request.envelope = Envelope.text kind.name (Json.ofMembers members) ∧
      (members.map Prod.fst).Nodup ∧
      ("transactionId", .string id.text) ∈ members ∧
      ("nodeAccountIds", Json.ofItems (nodes.map fun node => .string node.text)) ∈ members

theorem Record.names_members_sublist {α : Type} (record : Record α) (value : α) :
    ((record.members value).map Prod.fst).Sublist (record.slots.map Slot.name) := by
  rw [members_eq, ← names_fields record value]
  exact Json.names_membersOf_sublist _

namespace Transaction

variable {kind : TransactionKind} {transaction : Transaction kind} {id : TransactionId}
  {nodes : List AccountId}

theorem carries_of_mem_submitted {σ : Type} {client : Client σ} {timeout : Option Duration}
    {request : Request} (hasId : transaction.body.id = some id)
    (hasNodes : transaction.body.nodes = some nodes)
    (sent : request ∈ (Attempt.execute (.transaction transaction) timeout).submitted client) :
    request.Carries kind id nodes := by
  have same : request = (Attempt.execute (.transaction transaction) timeout).request client := by
    rw [Attempt.submitted_eq] at sent
    split at sent
    · exact List.mem_singleton.1 sent
    · cases sent
  let body := transaction.body.withDefaults client.config
  have distinct := TransactionBody.names_nodup kind
  refine ⟨kind.operation.record.members body.data ++ TransactionBody.common.members body, ?_, ?_,
    List.mem_append_right _ ?_, List.mem_append_right _ ?_⟩
  · rw [same]
    rfl
  · rw [List.map_append]
    exact ((Record.names_members_sublist _ _).append (Record.names_members_sublist _ _)).nodup
      distinct
  · have field : body.id.map TransactionId.codec.encode = some (.string id.text) :=
      congrArg _ hasId
    rw [Record.members_eq, Json.mem_membersOf, ← field]
    exact List.mem_cons_of_mem _ List.mem_cons_self
  · have field : body.nodes.map AccountId.codec.list.encode =
        some (Json.ofItems (nodes.map fun node => .string node.text)) :=
      congrArg _ hasNodes
    rw [Record.members_eq, Json.mem_membersOf, ← field]
    exact List.mem_cons_self

/-- The id and the nodes are set, and whatever is called next, all later requests carry them. -/
structure SubmitsAs (transaction : Transaction kind) (id : TransactionId)
    (nodes : List AccountId) : Prop where
  id_eq : transaction.body.id = some id
  nodes_eq : transaction.body.nodes = some nodes
  later : ∀ (actions : List (Action kind)) {σ : Type} (client : Client σ)
    (timeout : Option Duration),
      ∀ request ∈ (Attempt.execute (.transaction (transaction.after actions)) timeout).submitted
        client, request.Carries kind id nodes

theorem submitsAs_of_frozen (frozen : transaction.isFrozen = true)
    (hasId : transaction.body.id = some id) (hasNodes : transaction.body.nodes = some nodes) :
    transaction.SubmitsAs id nodes where
  id_eq := hasId
  nodes_eq := hasNodes
  later actions _ _ _ _ sent := by
    have continued := continues_after frozen actions
    exact carries_of_mem_submitted (continued.id id hasId) (continued.nodes nodes hasNodes) sent

/-- What an execution with this result makes of a transaction. -/
structure Executed (transaction next : Transaction kind)
    (result : Option (Except ClientError TransactionResponse)) : Prop where
  frozen : next.isFrozen = true
  data : next.body.data = transaction.body.data
  memo : next.body.memo = transaction.body.memo
  maxFee : next.body.maxFee = transaction.body.maxFee
  validDuration : next.body.validDuration = transaction.body.validDuration
  signers : next.signers = transaction.signers
  failed : (∀ response, result ≠ some (.ok response)) →
    next.body.id = transaction.body.id ∧ next.body.nodes = transaction.body.nodes
  completed : ∀ response, result = some (.ok response) →
    next.SubmitsAs (transaction.body.id.getD response.transactionId)
      (transaction.body.nodes.getD [response.node])

theorem executed_freeze {result : Option (Except ClientError TransactionResponse)}
    (failed : ∀ response, result ≠ some (.ok response)) :
    transaction.Executed transaction.freeze result where
  frozen := rfl
  data := rfl
  memo := rfl
  maxFee := rfl
  validDuration := rfl
  signers := rfl
  failed _ := ⟨rfl, rfl⟩
  completed response answered := absurd answered (failed response)

theorem executed_complete (response : TransactionResponse) :
    transaction.Executed (transaction.freeze.complete response) (some (.ok response)) where
  frozen := rfl
  data := rfl
  memo := rfl
  maxFee := rfl
  validDuration := rfl
  signers := rfl
  failed failed := absurd rfl (failed response)
  completed other answered := by
    cases answered
    refine submitsAs_of_frozen rfl ?_ ?_
    · simp [complete, freeze]
    · simp [complete, freeze]

theorem execute_executed {σ : Type} (transaction : Transaction kind) (client : Client σ)
    (timeout : Option Duration) :
    transaction.Executed (transaction.execute client timeout).2.1
      (transaction.execute client timeout).1 := by
  unfold execute
  simp only
  split
  · next response client ran => exact executed_complete response
  · next result client other ran => exact executed_freeze other

end Transaction

/-- An execution freezes its operation. It fills an id or a node list of a transaction that is
answered, which all later requests carry, and changes nothing else; asking for the cost of a query
changes nothing at all. -/
theorem execution_effect :
    (∀ {kind : TransactionKind} (transaction : Transaction kind) {σ : Type} (client : Client σ)
      (timeout : Option Duration),
      transaction.Executed (transaction.execute client timeout).2.1
        (transaction.execute client timeout).1) ∧
    ∀ {kind : QueryKind} (query : Query kind) {σ : Type} (client : Client σ)
      (timeout : Option Duration),
      (query.execute client timeout).2.1 = { query with isFrozen := true } ∧
        query.step (.cost client) = query :=
  ⟨fun transaction _ client timeout => transaction.execute_executed client timeout,
    fun _ _ _ _ => ⟨rfl, rfl⟩⟩

def Client.answering (response : TransactionResponse) : Client Unit where
  config := .forTestnet
  engine :=
    { submit := fun _ state =>
        (some { outcome := .payload (Bytes.ofText (TransactionResponse.codec.encodeText response)) },
          state) }
  state := ()

def TransactionResponse.accepted : TransactionResponse where
  node := .ofNum 3
  transactionId := { account := .ofNum 2, validStart := .epoch }
  hash := [0, 255]

theorem execution_effect_accepted :
    ((Transaction.new : Transaction .tokenUnpause).execute (.answering .accepted)).2.1.SubmitsAs
      TransactionResponse.accepted.transactionId [.ofNum 3] := by
  have answered : ((Transaction.new : Transaction .tokenUnpause).execute
      (.answering .accepted)).1 = some (.ok .accepted) := by decide +kernel
  exact (execution_effect.1 _ _ none).completed .accepted answered

end LedgerClient
