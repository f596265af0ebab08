import LedgerClient.Proofs.Json.Text
import LedgerClient.Proofs.Operation.Soundness

/-! Envelopes round trip. The envelope of an operation that callers can reach is read again as an
operation with the same body, not frozen and without signers. The format has three limits: JSON nests
to some depth, transaction ids are not written in leap seconds, and other instants in such leap
seconds only as end a minute. -/

namespace LedgerClient

namespace Envelope

theorem body_text {kind : String} {json : Json} (written : json.Written)
    (deep : (wrap kind json).depth ≤ Json.maxDepth) :
    ∃ tree, Json.Presents json tree ∧ body kind (text kind json) = .ok tree := by
  have wrapped : (wrap kind json).Written := written.member kind
  obtain ⟨tree, finished, presents⟩ := wrapped.finish_presents
  obtain ⟨value, ends, rfl, -, presents⟩ := presents.of_member
  refine ⟨value, presents, ?_⟩
  have found : tree? (text kind json) = some (.object [(kind, value)] ends) := by
    rw [tree?, text, Json.text, String.toList_ofList, wrapped.read_print deep]
    exact finished
  rw [body, found]
  exact if_pos rfl

theorem decode_text {α : Type} {kind : String} {decodeBody : Json → Decoded α} {json : Json}
    {value : α} (written : json.Written) (deep : (wrap kind json).depth ≤ Json.maxDepth)
    (decoded : json.depth ≤ Json.maxDepth → ∀ tree, Json.Presents json tree →
      decodeBody tree = .ok value) :
    decode kind decodeBody (text kind json) = .ok value := by
  obtain ⟨tree, presents, read⟩ := body_text written deep
  have inside : json.depth ≤ Json.maxDepth := by
    rw [wrap, Json.depth_member] at deep
    exact Nat.le_of_succ_le deep
  simp only [decode, read, bind, Except.bind, decoded inside tree presents]
  rfl

end Envelope

namespace TransactionKind

def transactionIds : (kind : TransactionKind) → kind.Data → List TransactionId
  | .topicMessageSubmit, submit => (TopicMessageSubmit.initialTransaction submit).toList
  | _, _ => []

def expirationTime : (kind : TransactionKind) → kind.Data → Option Instant
  | .contractUpdate, update => ContractUpdate.expirationTime update
  | .topicUpdate, update => TopicUpdate.expirationTime update
  | _, _ => none

theorem restores {kind : TransactionKind} {data : kind.Data} (sound : kind.Sound data)
    (ids : ∀ id ∈ kind.transactionIds data, id.validStart.isLeap = false)
    (times : ∀ time ∈ kind.expirationTime data, time.IsCivil) :
    kind.operation.record.Restores data := by
  cases kind with
  | accountAllowanceApprove => exact AllowanceApproval.restores data
  | contractUpdate => exact ContractUpdate.restores sound times
  | tokenBurn => exact TokenBurn.restores data
  | tokenFreeze => exact TokenRelation.restores data
  | tokenRevokeKyc => exact TokenRelation.restores data
  | tokenUnpause => exact TokenUnpause.restores data
  | tokenWipe => exact TokenWipe.restores data
  | topicCreate => exact TopicCreate.restores sound
  | topicMessageSubmit =>
    exact TopicMessageSubmit.restores fun id set => ids id (Option.mem_toList.mpr set)
  | topicUpdate => exact TopicUpdate.restores sound times

end TransactionKind

namespace QueryKind

def transactionIds : (kind : QueryKind) → kind.Data → List TransactionId
  | .transactionReceipt, query => (TransactionReceiptQuery.id query).toList
  | _, _ => []

theorem restores {kind : QueryKind} {data : kind.Data}
    (ids : ∀ id ∈ kind.transactionIds data, id.validStart.isLeap = false) :
    kind.operation.record.Restores data := by
  cases kind with
  | accountBalance => exact AccountBalanceQuery.restores data
  | accountInfo => exact AccountInfoQuery.restores data
  | transactionReceipt =>
    exact TransactionReceiptQuery.restores fun id set => ids id (Option.mem_toList.mpr set)

end QueryKind

namespace TransactionBody

variable {kind : TransactionKind} {body : TransactionBody kind}

def transactionIds (body : TransactionBody kind) : List TransactionId :=
  kind.transactionIds body.data ++ body.id.toList

theorem names_nodup (kind : TransactionKind) :
    (kind.operation.record.slots.map Slot.name ++
      (common : Record (TransactionBody kind)).slots.map Slot.name).Nodup := by
  cases kind <;> decide

section

variable (sound : body.Sound) (ids : ∀ id ∈ body.transactionIds, id.validStart.isLeap = false)

include sound ids

theorem common_restores : common.Restores { body with data := kind.operation.record.initial } := by
  have own : ∀ id, body.id = some id → id.validStart.isLeap = false := fun id set =>
    ids id (List.mem_append_right _ (Option.mem_toList.mpr set))
  exact Record.restores_keeping (fun other => { other with data := kind.operation.record.initial })
    (.cons (Slot.restores_optional rfl fun _ _ =>
        Codec.restores_list fun id _ => id.codec_restores) <|
      .cons (Slot.restores_optional rfl fun id set => TransactionId.codec_restores (own id set)) <|
      .cons (Slot.restores_optional rfl fun fee _ => fee.codec_restores) <|
      .cons (Slot.restores_memo rfl) <|
      .cons (Slot.restores_optional rfl fun span set =>
        Duration.codec_restores (sound.validDuration span set)) .nil)
    (names_nodup kind).of_append_right (by simp) (by simp) (by simp) rfl (fun _ => rfl)

variable (times : ∀ time ∈ kind.expirationTime body.data, time.IsCivil)

include times

theorem data_restores : kind.operation.record.Restores body.data :=
  TransactionKind.restores sound.data (fun id hi => ids id (List.mem_append_left _ hi)) times

theorem encode_written : body.encode.Written := by
  have written := Record.written_append (data_restores sound ids times) (common_restores sound ids)
    (names_nodup kind)
  exact written

theorem decode_encode (deep : body.encode.depth ≤ Json.maxDepth) {tree : Json}
    (presents : Json.Presents body.encode tree) : decode tree = .ok body :=
  Record.decode_append (data_restores sound ids times) (common_restores sound ids)
    (names_nodup kind) rfl deep presents rfl fun _ _ => rfl

end

end TransactionBody

namespace QueryBody

variable {kind : QueryKind} {body : QueryBody kind}

def transactionIds (body : QueryBody kind) : List TransactionId :=
  kind.transactionIds body.data ++ body.payment.id.toList

theorem names_nodup (kind : QueryKind) :
    (kind.operation.record.slots.map Slot.name ++
      (common : Record (QueryBody kind)).slots.map Slot.name).Nodup := by
  cases kind <;> decide

section

variable (ids : ∀ id ∈ body.transactionIds, id.validStart.isLeap = false)

include ids

theorem data_restores : kind.operation.record.Restores body.data :=
  QueryKind.restores fun id hi => ids id (List.mem_append_left _ hi)

variable (sound : body.Sound)

include sound

theorem common_restores : common.Restores { body with data := kind.operation.record.initial } := by
  have own : ∀ id, body.payment.id = some id → id.validStart.isLeap = false := fun id set =>
    ids id (List.mem_append_right _ (Option.mem_toList.mpr set))
  exact Record.restores_keeping (fun other => { other with data := kind.operation.record.initial })
    (.cons (Slot.restores_defaulted (Payment.restores own sound).codec) .nil)
    (names_nodup kind).of_append_right (by simp) (by simp) (by simp) rfl (fun _ => rfl)

theorem encode_written : body.encode.Written := by
  have written :=
    Record.written_append (data_restores ids) (common_restores ids sound) (names_nodup kind)
  exact written

theorem decode_encode (deep : body.encode.depth ≤ Json.maxDepth) {tree : Json}
    (presents : Json.Presents body.encode tree) : decode tree = .ok body :=
  Record.decode_append (data_restores ids) (common_restores ids sound) (names_nodup kind) rfl deep
    presents rfl fun _ _ => rfl

end

end QueryBody

theorem Transaction.ofEnvelope_envelope {kind : TransactionKind} {transaction : Transaction kind}
    (sound : transaction.body.Sound)
    (ids : ∀ id ∈ transaction.body.transactionIds, id.validStart.isLeap = false)
    (times : ∀ time ∈ kind.expirationTime transaction.body.data, time.IsCivil)
    (deep : (Envelope.wrap kind.name transaction.body.encode).depth ≤ Json.maxDepth) :
    ofEnvelope transaction.envelope = .ok { body := transaction.body } := by
  have read : Envelope.decode kind.name TransactionBody.decode transaction.envelope =
      .ok transaction.body :=
    Envelope.decode_text (TransactionBody.encode_written sound ids times) deep
      fun inside _ presents => TransactionBody.decode_encode sound ids times inside presents
  rw [ofEnvelope, read]
  rfl

theorem Query.ofEnvelope_envelope {kind : QueryKind} {query : Query kind} (sound : query.body.Sound)
    (ids : ∀ id ∈ query.body.transactionIds, id.validStart.isLeap = false)
    (deep : (Envelope.wrap kind.name query.body.encode).depth ≤ Json.maxDepth) :
    ofEnvelope query.envelope = .ok { body := query.body } := by
  have read : Envelope.decode kind.name QueryBody.decode query.envelope = .ok query.body :=
    Envelope.decode_text (QueryBody.encode_written ids sound) deep fun inside _ presents =>
      QueryBody.decode_encode ids sound inside presents
  rw [ofEnvelope, read]
  rfl

namespace Operation

/-- All transaction ids in an operation: those of its data, its own, and that of its payment. -/
def transactionIds : Operation → List TransactionId
  | transaction t => t.body.transactionIds
  | query q => q.body.transactionIds

def expirationTime : Operation → Option Instant
  | @transaction kind t => kind.expirationTime t.body.data
  | query _ => none

def envelopeJson : Operation → Json
  | @transaction kind t => Envelope.wrap kind.name t.body.encode
  | @query kind q => Envelope.wrap kind.name q.body.encode

/-- The operation with the same body, not frozen and without signers. -/
def draft : Operation → Operation
  | transaction t => transaction { body := t.body, signers := [], isFrozen := false }
  | query q => query { body := q.body, isFrozen := false }

/-- Within the limits of the format, the envelope of every operation that callers can reach is read as
its draft. -/
theorem envelope_round_trip {operation : Operation} (reached : operation.Reachable)
    (ids : ∀ id ∈ operation.transactionIds, id.validStart.isLeap = false)
    (times : ∀ time ∈ operation.expirationTime, time.IsCivil)
    (deep : operation.envelopeJson.depth ≤ Json.maxDepth) :
    ofEnvelope operation.kind operation.envelope = .ok operation.draft := by
  cases operation with
  | @transaction kind t =>
    have sound := Transaction.Reachable.sound reached
    show (transaction : Transaction kind → Operation) <$> Transaction.ofEnvelope t.envelope = _
    rw [Transaction.ofEnvelope_envelope sound ids times deep]
    rfl
  | @query kind q =>
    have sound := Query.Reachable.sound reached
    show (query : Query kind → Operation) <$> Query.ofEnvelope q.envelope = _
    rw [Query.ofEnvelope_envelope sound ids deep]
    rfl

/-- The second chunk of a message, to no nodes and at no fee, that is not changed any more. -/
def frozenChunk : Transaction .topicMessageSubmit :=
  Transaction.new.after
    [.call (.data (.setMessage [0, 255])), .call (.data (.setChunkTotal 2)),
      .call (.data (.setChunkNumber 2)),
      .call (.data (.setInitialTransaction ⟨default, .epoch, true, some 0⟩)), .call (.setNodes []),
      .call (.setMaxFee .zero), .freeze]

theorem envelope_round_trip_frozenChunk :
    ofEnvelope (.transaction .topicMessageSubmit) (transaction frozenChunk).envelope =
      .ok (@transaction .topicMessageSubmit
        { body :=
            { data :=
                { message := some [0, 255]
                  initialTransaction := some ⟨default, .epoch, true, some 0⟩
                  chunkTotal := 2
                  chunkNumber := 2 : TopicMessageSubmit }
              nodes := some []
              maxFee := some .zero } }) := by
  have reached : (transaction frozenChunk).Reachable :=
    Transaction.Reachable.after .new (by
      simp [Transaction.Action.key, Transaction.Call.key, TransactionKind.keyOf])
  have ids : ∀ id ∈ (transaction frozenChunk).transactionIds, id.validStart.isLeap = false := by
    decide
  have deep : (transaction frozenChunk).envelopeJson.depth ≤ Json.maxDepth := by decide +kernel
  have times : ∀ time ∈ (transaction frozenChunk).expirationTime, time.IsCivil := by decide
  have read := envelope_round_trip reached ids times deep
  exact read

/-- An update that lets a contract expire in a leap second inside a minute. -/
def expiringUpdate : Transaction .contractUpdate :=
  Transaction.new.after [.call (.data (.setExpirationTime Timestamp.leapInside))]

def expiringLater : Transaction .contractUpdate :=
  Transaction.new.after [.call (.data (.setExpirationTime Timestamp.leapInsideShown))]

theorem expiringUpdate_reachable : (transaction expiringUpdate).Reachable :=
  Transaction.Reachable.after .new (by
    simp [Transaction.Action.key, Transaction.Call.key, TransactionKind.keyOf])

theorem expiringLater_reachable : (transaction expiringLater).Reachable :=
  Transaction.Reachable.after .new (by
    simp [Transaction.Action.key, Transaction.Call.key, TransactionKind.keyOf])

theorem envelope_of_expiringUpdate_read_later :
    (transaction expiringUpdate).Reachable ∧
      (∀ id ∈ (transaction expiringUpdate).transactionIds, id.validStart.isLeap = false) ∧
      (transaction expiringUpdate).envelopeJson.depth ≤ Json.maxDepth ∧
      Transaction.ofEnvelope expiringUpdate.envelope = .ok expiringLater ∧
      ofEnvelope (.transaction .contractUpdate) (transaction expiringUpdate).envelope ≠
        .ok (transaction expiringUpdate).draft := by
  have envelope : expiringUpdate.envelope = expiringLater.envelope := by decide +kernel
  have sound : expiringLater.body.Sound := Transaction.Reachable.sound expiringLater_reachable
  have read : Transaction.ofEnvelope expiringUpdate.envelope = .ok expiringLater := by
    rw [envelope]
    exact Transaction.ofEnvelope_envelope sound (by decide) (by decide) (by decide +kernel)
  refine ⟨expiringUpdate_reachable, by decide, by decide +kernel, read, fun same => ?_⟩
  have found : transaction expiringLater = (transaction expiringUpdate).draft := by
    have other : (transaction : Transaction .contractUpdate → Operation) <$>
        Transaction.ofEnvelope expiringUpdate.envelope = _ := same
    rw [read] at other
    exact Except.ok.inj other
  exact nomatch congrArg expirationTime found

end Operation

end LedgerClient
