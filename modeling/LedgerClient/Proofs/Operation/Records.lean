import LedgerClient.Operation.Basic
import LedgerClient.Proofs.Key.Nesting

/-! The records of allowances, of the data of every kind of operation, and of payments restore what
they write. Data with keys, spans of time, instants or transaction ids must hold such ones as their
codecs restore. -/

namespace LedgerClient

theorem HbarAllowance.restores (allowance : HbarAllowance) : record.Restores allowance :=
  Record.restores
    (.cons (Slot.restores_mandatory (AccountId.codec_restores _)) <|
      .cons (Slot.restores_mandatory (AccountId.codec_restores _)) <|
      .cons (Slot.restores_defaulted (Hbar.codec_restores _)) .nil)
    (by decide) (by simp) (by simp) (fun _ => rfl)

theorem TokenAllowance.restores (allowance : TokenAllowance) : record.Restores allowance :=
  Record.restores
    (.cons (Slot.restores_mandatory (EntityId.codec_restores _)) <|
      .cons (Slot.restores_mandatory (AccountId.codec_restores _)) <|
      .cons (Slot.restores_mandatory (AccountId.codec_restores _)) <|
      .cons (Slot.restores_defaulted (Codec.restores_uint64 _)) .nil)
    (by decide) (by simp) (by simp) (fun _ => rfl)

theorem NftAllowance.restores (allowance : NftAllowance) : record.Restores allowance :=
  Record.restores
    (.cons (Slot.restores_mandatory (EntityId.codec_restores _)) <|
      .cons (Slot.restores_mandatory (AccountId.codec_restores _)) <|
      .cons (Slot.restores_mandatory (AccountId.codec_restores _)) <|
      .cons (Slot.restores_defaulted (Codec.restores_list fun n _ => Codec.restores_uint64 n)) <|
      .cons (Slot.restores_optional rfl fun flag _ => Codec.restores_bool flag) <|
      .cons (Slot.restores_optional rfl fun id _ => id.codec_restores) .nil)
    (by decide) (by simp) (by simp) (fun _ => rfl)

theorem AllowanceApproval.restores (approval : AllowanceApproval) : record.Restores approval :=
  Record.restores
    (.cons (Slot.restores_defaulted (Codec.restores_list fun a _ => a.restores.codec)) <|
      .cons (Slot.restores_defaulted (Codec.restores_list fun a _ => a.restores.codec)) <|
      .cons (Slot.restores_defaulted (Codec.restores_list fun a _ => a.restores.codec)) .nil)
    (by decide) (by simp) (by simp) (fun _ => rfl)

theorem TokenBurn.restores (burn : TokenBurn) : record.Restores burn :=
  Record.restores
    (.cons (Slot.restores_optional rfl fun id _ => id.codec_restores) <|
      .cons (Slot.restores_defaulted (Codec.restores_uint64 _)) <|
      .cons (Slot.restores_defaulted (Codec.restores_list fun n _ => Codec.restores_uint64 n)) .nil)
    (by decide) (by simp) (by simp) (fun _ => rfl)

theorem TokenWipe.restores (wipe : TokenWipe) : record.Restores wipe :=
  Record.restores
    (.cons (Slot.restores_optional rfl fun id _ => id.codec_restores) <|
      .cons (Slot.restores_optional rfl fun id _ => id.codec_restores) <|
      .cons (Slot.restores_defaulted (Codec.restores_uint64 _)) <|
      .cons (Slot.restores_defaulted (Codec.restores_list fun n _ => Codec.restores_uint64 n)) .nil)
    (by decide) (by simp) (by simp) (fun _ => rfl)

theorem TokenRelation.restores (relation : TokenRelation) : record.Restores relation :=
  Record.restores
    (.cons (Slot.restores_optional rfl fun id _ => id.codec_restores) <|
      .cons (Slot.restores_optional rfl fun id _ => id.codec_restores) .nil)
    (by decide) (by simp) (by simp) (fun _ => rfl)

theorem TokenUnpause.restores (unpause : TokenUnpause) : record.Restores unpause :=
  Record.restores (.cons (Slot.restores_optional rfl fun id _ => id.codec_restores) .nil)
    (by decide) (by simp) (by simp) (fun _ => rfl)

namespace TransactionKind

/-- The keys in the data of a transaction, and its span of time. -/
structure Parts where
  adminKey : Option Key := none
  submitKey : Option Key := none
  autoRenewPeriod : Option Duration := none

def parts : (kind : TransactionKind) → kind.Data → Parts
  | .contractUpdate, { adminKey, autoRenewPeriod, .. } => { adminKey, autoRenewPeriod }
  | .topicCreate, { adminKey, submitKey, autoRenewPeriod, .. } =>
    { adminKey, submitKey, autoRenewPeriod }
  | .topicUpdate, { adminKey, submitKey, autoRenewPeriod, .. } =>
    { adminKey, submitKey, autoRenewPeriod }
  | _, _ => {}

/-- Whether keys are in range, and a span is in whole seconds, so that they can be restored. -/
structure Parts.Sound (parts : Parts) : Prop where
  adminKey : ∀ key, parts.adminKey = some key → key.WellFormed
  submitKey : ∀ key, parts.submitKey = some key → key.WellFormed
  autoRenewPeriod : ∀ period, parts.autoRenewPeriod = some period → period.isWholeSeconds = true

def Sound (kind : TransactionKind) (data : kind.Data) : Prop :=
  (kind.parts data).Sound

end TransactionKind

theorem ContractUpdate.restores {update : ContractUpdate}
    (h : TransactionKind.contractUpdate.Sound update)
    (times : ∀ time, update.expirationTime = some time → time.IsCivil) : record.Restores update :=
  Record.restores
    (.cons (Slot.restores_optional rfl fun id _ => id.codec_restores) <|
      .cons (Slot.restores_optional rfl fun time set => Instant.codec_restores (times time set)) <|
      .cons (Slot.restores_optional rfl fun key set => Key.codec_restores (h.adminKey key set)) <|
      .cons (Slot.restores_optional rfl fun period set =>
        Duration.codec_restores (h.autoRenewPeriod period set)) <|
      .cons (Slot.restores_optional rfl fun memo _ => Codec.restores_string memo) <|
      .cons (Slot.restores_optional rfl fun count _ => Codec.restores_uint32 count) <|
      .cons (Slot.restores_optional rfl fun id _ => id.codec_restores) <|
      .cons (Slot.restores_optional rfl fun id _ => id.codec_restores) <|
      .cons (Slot.restores_optional rfl fun id _ => id.codec_restores) <|
      .cons (Slot.restores_optional rfl fun node _ => Codec.restores_uint64 node) <|
      .cons (Slot.restores_optional rfl fun decline _ => Codec.restores_bool decline) .nil)
    (by decide) (by simp) (by simp) (fun _ => rfl)

theorem TopicCreate.restores {create : TopicCreate} (h : TransactionKind.topicCreate.Sound create) :
    record.Restores create :=
  Record.restores
    (.cons (Slot.restores_memo rfl) <|
      .cons (Slot.restores_optional rfl fun key set => Key.codec_restores (h.adminKey key set)) <|
      .cons (Slot.restores_optional rfl fun key set => Key.codec_restores (h.submitKey key set)) <|
      .cons (Slot.restores_optional rfl fun period set =>
        Duration.codec_restores (h.autoRenewPeriod period set)) <|
      .cons (Slot.restores_optional rfl fun id _ => id.codec_restores) .nil)
    (by decide) (by simp) (by simp) (fun _ => rfl)

theorem TopicUpdate.restores {update : TopicUpdate} (h : TransactionKind.topicUpdate.Sound update)
    (times : ∀ time, update.expirationTime = some time → time.IsCivil) : record.Restores update :=
  Record.restores
    (.cons (Slot.restores_optional rfl fun id _ => id.codec_restores) <|
      .cons (Slot.restores_optional rfl fun time set => Instant.codec_restores (times time set)) <|
      .cons (Slot.restores_optional rfl fun memo _ => Codec.restores_string memo) <|
      .cons (Slot.restores_optional rfl fun key set => Key.codec_restores (h.adminKey key set)) <|
      .cons (Slot.restores_optional rfl fun key set => Key.codec_restores (h.submitKey key set)) <|
      .cons (Slot.restores_optional rfl fun period set =>
        Duration.codec_restores (h.autoRenewPeriod period set)) <|
      .cons (Slot.restores_optional rfl fun id _ => id.codec_restores) .nil)
    (by decide) (by simp) (by simp) (fun _ => rfl)

theorem TopicMessageSubmit.restores {submit : TopicMessageSubmit}
    (h : ∀ id, submit.initialTransaction = some id → id.validStart.isLeap = false) :
    record.Restores submit :=
  Record.restores
    (.cons (Slot.restores_optional rfl fun id _ => id.codec_restores) <|
      .cons (Slot.restores_optional rfl fun message _ => Codec.restores_base64Bytes message) <|
      .cons (Slot.restores_optional rfl fun id set => TransactionId.codec_restores (h id set)) <|
      .cons (Slot.restores_defaulted (Codec.restores_uint32 _)) <|
      .cons (Slot.restores_defaulted (Codec.restores_uint32 _)) .nil)
    (by decide) (by simp) (by simp) (fun _ => rfl)

theorem AccountBalanceQuery.restores (query : AccountBalanceQuery) : record.Restores query :=
  Record.restores
    (.cons (Slot.restores_optional rfl fun id _ => id.codec_restores) <|
      .cons (Slot.restores_optional rfl fun id _ => id.codec_restores) .nil)
    (by decide) (by simp) (by simp) (fun _ => rfl)

theorem AccountInfoQuery.restores (query : AccountInfoQuery) : record.Restores query :=
  Record.restores (.cons (Slot.restores_optional rfl fun id _ => id.codec_restores) .nil)
    (by decide) (by simp) (by simp) (fun _ => rfl)

theorem TransactionReceiptQuery.restores {query : TransactionReceiptQuery}
    (h : ∀ id, query.id = some id → id.validStart.isLeap = false) : record.Restores query :=
  Record.restores
    (.cons (Slot.restores_optional rfl fun id set => TransactionId.codec_restores (h id set)) <|
      .cons (Slot.restores_defaulted (Codec.restores_bool _)) <|
      .cons (Slot.restores_defaulted (Codec.restores_bool _)) .nil)
    (by decide) (by simp) (by simp) (fun _ => rfl)

theorem Payment.restores {payment : Payment}
    (ids : ∀ id, payment.id = some id → id.validStart.isLeap = false)
    (spans : ∀ span, payment.validDuration = some span → span.isWholeSeconds = true) :
    record.Restores payment :=
  Record.restores
    (.cons (Slot.restores_optional rfl fun _ _ =>
        Codec.restores_list fun id _ => id.codec_restores) <|
      .cons (Slot.restores_optional rfl fun amount _ => amount.codec_restores) <|
      .cons (Slot.restores_optional rfl fun amount _ => amount.codec_restores) <|
      .cons (Slot.restores_optional rfl fun fee _ => fee.codec_restores) <|
      .cons (Slot.restores_optional rfl fun memo _ => Codec.restores_string memo) <|
      .cons (Slot.restores_optional rfl fun id _ => id.codec_restores) <|
      .cons (Slot.restores_optional rfl fun id set => TransactionId.codec_restores (ids id set)) <|
      .cons (Slot.restores_optional rfl fun span set =>
        Duration.codec_restores (spans span set)) .nil)
    (by decide) (by simp) (by simp) (fun _ => rfl)

end LedgerClient
