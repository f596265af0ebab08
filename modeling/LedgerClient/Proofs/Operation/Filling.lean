import LedgerClient.Proofs.Client.Admission
import LedgerClient.Proofs.Operation.RoundTrip

/-! Operations with the defaults of a configuration. Filling sets what is not set and keeps the rest.
A filled operation stays admissible and within its nesting, is read from its own envelope, and is
not changed when it is filled again. -/

namespace LedgerClient

theorem Hbar.depth_of_map_encode {field : Option Hbar} (bound : Nat) :
    ∀ json, field.map Hbar.codec.encode = some json → json.depth ≤ bound := by
  intro json wrote
  obtain ⟨amount, -, rfl⟩ := Option.map_eq_some_iff.mp wrote
  exact Nat.zero_le bound

theorem Duration.depth_of_map_encode {field : Option Duration} (bound : Nat) :
    ∀ json, field.map Duration.codec.encode = some json → json.depth ≤ bound := by
  intro json wrote
  obtain ⟨span, -, rfl⟩ := Option.map_eq_some_iff.mp wrote
  exact Nat.zero_le bound

theorem Duration.IsValid.whole_getD {own : Duration} (valid : own.IsValid) {field : Option Duration}
    (set : ∀ span, field = some span → span.isWholeSeconds = true) :
    (field.getD own).isWholeSeconds = true :=
  getD_of_forall (fun span : Duration => span.isWholeSeconds = true) (beq_iff_eq.mpr valid.1) set

namespace TransactionBody

variable {kind : TransactionKind}

/-- What is sent of a body under a configuration: a fee limit or duration that is not set is that of
the configuration, and everything else is kept. -/
structure FillsTo (body : TransactionBody kind) (config : ClientConfig)
    (sent : TransactionBody kind) : Prop where
  data : sent.data = body.data
  nodes : sent.nodes = body.nodes
  id : sent.id = body.id
  memo : sent.memo = body.memo
  maxFee : sent.maxFee = body.maxFee.or config.maxTransactionFee
  validDuration : sent.validDuration = some (body.validDuration.getD config.validDuration)

theorem fillsTo_withDefaults (body : TransactionBody kind) (config : ClientConfig) :
    body.FillsTo config (body.withDefaults config) where
  data := rfl
  nodes := rfl
  id := rfl
  memo := rfl
  maxFee := by rw [withDefaults]; cases body.maxFee <;> rfl
  validDuration := by rw [withDefaults]; cases body.validDuration <;> rfl

theorem depth_withDefaults_le (body : TransactionBody kind) (config : ClientConfig) :
    (body.withDefaults config).encode.depth ≤ body.encode.depth := by
  have shared : Json.depthOfMembers (common.members (body.withDefaults config)) ≤
      Json.depthOfMembers (common.members body) := by
    have kept {slot : Slot (TransactionBody kind)} (there : slot ∈ common.slots) :=
      @Record.depth_le_of_write _ common body _ there
    exact Record.depthOfMembers_le (List.forall_iff_forall_mem.mp
      ⟨kept (List.mem_of_getElem? (i := 0) rfl), kept (List.mem_of_getElem? (i := 1) rfl),
        Hbar.depth_of_map_encode _, kept (List.mem_of_getElem? (i := 3) rfl),
        Duration.depth_of_map_encode _⟩)
  exact Json.depth_append_le shared

theorem Sound.withDefaults {body : TransactionBody kind} {config : ClientConfig}
    (sound : body.Sound) (own : config.validDuration.IsValid) :
    (body.withDefaults config).Sound where
  data := sound.data
  validDuration span set := by
    rw [(body.fillsTo_withDefaults config).validDuration] at set
    exact Option.some.inj set ▸ own.whole_getD sound.validDuration

end TransactionBody

namespace Payment

structure FillsTo (payment : Payment) (config : ClientConfig) (sent : Payment) : Prop where
  nodes : sent.nodes = payment.nodes
  amount : sent.amount = payment.amount
  maxAmount : sent.maxAmount = payment.maxAmount.or config.maxQueryPayment
  maxFee : sent.maxFee = payment.maxFee.or config.maxTransactionFee
  memo : sent.memo = payment.memo
  payer : sent.payer = payment.payer
  id : sent.id = payment.id
  validDuration : sent.validDuration = some (payment.validDuration.getD config.validDuration)

theorem fillsTo_withDefaults (payment : Payment) (config : ClientConfig) :
    payment.FillsTo config (payment.withDefaults config) where
  nodes := rfl
  amount := rfl
  maxAmount := by rw [withDefaults]; cases payment.maxAmount <;> rfl
  maxFee := by rw [withDefaults]; cases payment.maxFee <;> rfl
  memo := rfl
  payer := rfl
  id := rfl
  validDuration := by rw [withDefaults]; cases payment.validDuration <;> rfl

theorem depth_withDefaults_le (payment : Payment) (config : ClientConfig) :
    (codec.encode (payment.withDefaults config)).depth ≤ (codec.encode payment).depth := by
  have kept {slot : Slot Payment} (there : slot ∈ record.slots) :=
    @Record.depth_le_of_write _ record payment _ there
  have fields : Json.depthOfMembers (record.members (payment.withDefaults config)) ≤
      Json.depthOfMembers (record.members payment) :=
    Record.depthOfMembers_le (List.forall_iff_forall_mem.mp
      ⟨kept (List.mem_of_getElem? (i := 0) rfl), kept (List.mem_of_getElem? (i := 1) rfl),
        Hbar.depth_of_map_encode _, Hbar.depth_of_map_encode _,
        kept (List.mem_of_getElem? (i := 4) rfl), kept (List.mem_of_getElem? (i := 5) rfl),
        kept (List.mem_of_getElem? (i := 6) rfl), Duration.depth_of_map_encode _⟩)
  show (Json.ofMembers (record.members (payment.withDefaults config))).depth ≤
    (Json.ofMembers (record.members payment)).depth
  rw [Json.depth_ofMembers, Json.depth_ofMembers]
  exact Nat.succ_le_succ fields

end Payment

namespace QueryBody

variable {kind : QueryKind}

structure FillsTo (body : QueryBody kind) (config : ClientConfig) (sent : QueryBody kind) :
    Prop where
  data : sent.data = body.data
  payment : body.payment.FillsTo config sent.payment

theorem fillsTo_withDefaults (body : QueryBody kind) (config : ClientConfig) :
    body.FillsTo config (body.withDefaults config) where
  data := rfl
  payment := body.payment.fillsTo_withDefaults config

theorem depth_withDefaults_le (body : QueryBody kind) (config : ClientConfig) :
    (body.withDefaults config).encode.depth ≤ body.encode.depth := by
  have payment : Json.depthOfMembers (common.members (body.withDefaults config)) ≤
      Json.depthOfMembers (common.members body) := by
    refine Record.depthOfMembers_le (List.forall_iff_forall_mem.mp fun json wrote => ?_)
    cases wrote
    have before := @Record.depth_le_of_write _ common body _ List.mem_cons_self _ rfl
    exact Nat.le_trans (body.payment.depth_withDefaults_le config) before
  exact Json.depth_append_le payment

theorem Sound.withDefaults {body : QueryBody kind} {config : ClientConfig}
    (sound : body.Sound) (own : config.validDuration.IsValid) :
    (body.withDefaults config).Sound := by
  intro span set
  rw [(body.fillsTo_withDefaults config).payment.validDuration] at set
  exact Option.some.inj set ▸ own.whole_getD sound

end QueryBody

namespace Operation

/-- The operation that a request sends: its body filled, not frozen, and without signers. -/
inductive FillsTo (config : ClientConfig) : Operation → Operation → Prop
  | transaction {kind : TransactionKind} {t : Transaction kind} {sent : TransactionBody kind}
    (filled : t.body.FillsTo config sent) :
    FillsTo config (transaction t) (transaction { body := sent, signers := [], isFrozen := false })
  | query {kind : QueryKind} {q : Query kind} {sent : QueryBody kind}
    (filled : q.body.FillsTo config sent) :
    FillsTo config (query q) (query { body := sent, isFrozen := false })

theorem FillsTo.expirationTime {config : ClientConfig} {operation sent : Operation}
    (fills : FillsTo config operation sent) : sent.expirationTime = operation.expirationTime := by
  cases fills with
  | @transaction kind _ _ filled => exact congrArg kind.expirationTime filled.data
  | query _ => rfl

def filled (config : ClientConfig) : Operation → Operation
  | transaction t => transaction { body := t.body.withDefaults config }
  | query q => query { body := q.body.withDefaults config }

variable (operation : Operation) (config : ClientConfig)

theorem fillsTo_filled : FillsTo config operation (operation.filled config) := by
  cases operation with
  | transaction t => exact .transaction (t.body.fillsTo_withDefaults config)
  | query q => exact .query (q.body.fillsTo_withDefaults config)

theorem filled_filled : (operation.filled config).filled config = operation.filled config := by
  cases operation with
  | transaction t => simp [filled, TransactionBody.withDefaults, Option.or_assoc]
  | query q => simp [filled, QueryBody.withDefaults, Payment.withDefaults, Option.or_assoc]

theorem depth_filled_le :
    (operation.filled config).envelopeJson.depth ≤ operation.envelopeJson.depth := by
  cases operation with
  | transaction t =>
    rw [filled, envelopeJson, envelopeJson, Envelope.wrap, Envelope.wrap, Json.depth_member,
      Json.depth_member]
    exact Nat.succ_le_succ (t.body.depth_withDefaults_le config)
  | query q =>
    rw [filled, envelopeJson, envelopeJson, Envelope.wrap, Envelope.wrap, Json.depth_member,
      Json.depth_member]
    exact Nat.succ_le_succ (q.body.depth_withDefaults_le config)

variable {operation config}

theorem validDuration_filled :
    (operation.filled config).validDuration =
      some (operation.validDuration.getD config.validDuration) := by
  cases operation with
  | transaction t => exact (t.body.fillsTo_withDefaults config).validDuration
  | query q => exact (q.body.fillsTo_withDefaults config).payment.validDuration

theorem Admissible.filled {ledger : LedgerId} (admissible : operation.Admissible ledger)
    (own : config.validDuration.IsValid) : (operation.filled config).Admissible ledger where
  duration duration set := by
    rw [validDuration_filled] at set
    exact Option.some.inj set ▸ getD_of_forall Duration.IsValid own
      admissible.duration
  chunk := by
    have same : (operation.filled config).chunk = operation.chunk := by
      rcases operation with @⟨kind, t⟩ | q
      · cases kind <;> rfl
      · rfl
    rw [HasValidChunk, same]
    exact admissible.chunk
  ids := by
    have same (id : CheckedId) :
        IdHolder.Holds (operation.filled config) id = IdHolder.Holds operation id := by
      cases operation <;> rfl
    intro id held
    exact admissible.ids id (same id ▸ held)

theorem ofEnvelope_filled (reached : operation.Reachable) (own : config.validDuration.IsValid)
    (ids : ∀ id ∈ operation.transactionIds, id.validStart.isLeap = false)
    (times : ∀ time ∈ operation.expirationTime, time.IsCivil)
    (deep : operation.envelopeJson.depth ≤ Json.maxDepth) :
    ofEnvelope operation.kind (operation.filled config).envelope =
      .ok (operation.filled config) := by
  have inside := Nat.le_trans (operation.depth_filled_le config) deep
  cases operation with
  | @transaction kind t =>
    let sent : Transaction kind := { body := t.body.withDefaults config }
    have sound : sent.body.Sound := (Transaction.Reachable.sound reached).withDefaults own
    have read : Transaction.ofEnvelope sent.envelope = .ok sent :=
      Transaction.ofEnvelope_envelope sound ids times inside
    show (transaction : Transaction kind → Operation) <$> Transaction.ofEnvelope sent.envelope = _
    rw [read]
    rfl
  | @query kind q =>
    let sent : Query kind := { body := q.body.withDefaults config }
    have sound : sent.body.Sound := (Query.Reachable.sound reached).withDefaults own
    have read : Query.ofEnvelope sent.envelope = .ok sent :=
      Query.ofEnvelope_envelope sound ids inside
    show (query : Query kind → Operation) <$> Query.ofEnvelope sent.envelope = _
    rw [read]
    rfl

end Operation

end LedgerClient
