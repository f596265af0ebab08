import LedgerClient.Proofs.Json.Presentation
import LedgerClient.Proofs.Key.Nesting
import LedgerClient.Proofs.Notation.Ledger
import LedgerClient.Proofs.Response.Balances
import LedgerClient.Response.Transaction

/-! Responses are read back from every presentation of them. Nothing but the key in the metadata of an
account can nest to the limit. -/

namespace LedgerClient

namespace TransactionResponse

theorem restores {response : TransactionResponse}
    (h : response.transactionId.validStart.isLeap = false) : record.Restores response :=
  Record.restores
    (.cons (Slot.restores_mandatory (AccountId.codec_restores _)) <|
      .cons (Slot.restores_mandatory (TransactionId.codec_restores h)) <|
      .cons (Slot.restores_mandatory (Codec.restores_hexBytes _)) .nil)
    (by decide) (by simp) (by simp) (fun _ => rfl)

theorem readsBack {response : TransactionResponse}
    (h : response.transactionId.validStart.isLeap = false) : record.ReadsBack response := by
  have within : record.codec.WritesWithin 1 := Record.codec_within (by simp [record])
  exact (restores h).readsBack (restores rfl) (Nat.le_trans (within response) (by decide))

end TransactionResponse

namespace TransactionReceipt

theorem restores {receipt : TransactionReceipt}
    (h : ∀ id, receipt.scheduledTransaction = some id → id.validStart.isLeap = false) :
    record.Restores receipt :=
  Record.restores
    (.cons (Slot.restores_mandatory (Codec.restores_string _)) <|
      .cons (Slot.restores_nullable fun id _ => id.codec_restores) <|
      .cons (Slot.restores_nullable fun id _ => id.codec_restores) <|
      .cons (Slot.restores_nullable fun id _ => id.codec_restores) <|
      .cons (Slot.restores_nullable fun id _ => id.codec_restores) <|
      .cons (Slot.restores_nullable fun id _ => id.codec_restores) <|
      .cons (Slot.restores_nullable fun id _ => id.codec_restores) <|
      .cons (Slot.restores_defaulted (Codec.restores_uint64 _)) <|
      .cons (Slot.restores_defaulted (Codec.restores_hexBytes _)) <|
      .cons (Slot.restores_defaulted (Codec.restores_uint64 _)) <|
      .cons (Slot.restores_defaulted (Codec.restores_list fun n _ => Codec.restores_uint64 n)) <|
      .cons (Slot.restores_nullable fun id held => TransactionId.codec_restores (h id held)) .nil)
    (by decide) (by simp) (by simp) (fun _ => rfl)

theorem readsBack {receipt : TransactionReceipt}
    (h : ∀ id, receipt.scheduledTransaction = some id → id.validStart.isLeap = false) :
    record.ReadsBack receipt := by
  have within : record.codec.WritesWithin 2 := Record.codec_within (by simp [record])
  have unscheduled : record.initial.scheduledTransaction = none := rfl
  have defaults := restores fun _ held => nomatch unscheduled.symm.trans held
  exact (restores h).readsBack defaults (Nat.le_trans (within receipt) (by decide))

end TransactionReceipt

namespace AccountBalance

theorem restores (balance : AccountBalance) : record.Restores balance :=
  Record.restores
    (.cons (Slot.restores_mandatory (AccountId.codec_restores _)) <|
      .cons (Slot.restores_defaulted (Hbar.codec_restores _)) <|
      .cons (Slot.restores_defaulted (TokenBalances.codec_restores _)) .nil)
    (by decide) (by simp) (by simp) (fun _ => rfl)

theorem readsBack (balance : AccountBalance) : record.ReadsBack balance := by
  have within : record.codec.WritesWithin 2 := Record.codec_within (by simp [record])
  exact (restores balance).readsBack (restores _) (Nat.le_trans (within balance) (by decide))

end AccountBalance

namespace AccountInfo

/-- Whether all of an account's metadata has a written form: its period is in whole seconds, its ledger
id is not empty, and its key, in range like every key that is built or read, is not nested too deep. -/
structure Writable (info : AccountInfo) : Prop where
  key : ∀ key, info.key = some key → key.WellFormed
  autoRenewPeriod : ∀ period, info.autoRenewPeriod = some period → period.isWholeSeconds = true
  ledger : ∀ ledger, info.ledger = some ledger → ledger.bytes ≠ []
  depth : (codec.encode info).depth ≤ Json.maxDepth

theorem restores {info : AccountInfo} (h : info.Writable)
    (times : ∀ time ∈ info.expirationTime, time.IsCivil) : record.Restores info :=
  Record.restores
    (.cons (Slot.restores_mandatory (AccountId.codec_restores _)) <|
      .cons (Slot.restores_defaulted (Codec.restores_string _)) <|
      .cons (Slot.restores_defaulted (Codec.restores_bool _)) <|
      .cons (Slot.restores_nullable fun id _ => id.codec_restores) <|
      .cons (Slot.restores_defaulted (Hbar.codec_restores _)) <|
      .cons (Slot.restores_nullable fun key held => Key.codec_restores (h.key key held)) <|
      .cons (Slot.restores_defaulted (Hbar.codec_restores _)) <|
      .cons (Slot.restores_defaulted (Codec.restores_bool _)) <|
      .cons (Slot.restores_nullable fun time held =>
        Instant.codec_restores (times time held)) <|
      .cons (Slot.restores_nullable fun period held =>
        Duration.codec_restores (h.autoRenewPeriod period held)) <|
      .cons (Slot.restores_defaulted (Codec.restores_string _)) <|
      .cons (Slot.restores_defaulted (Codec.restores_uint64 _)) <|
      .cons (Slot.restores_defaulted (Codec.restores_uint32 _)) <|
      .cons (Slot.restores_nullable fun key _ => key.codec_restores) <|
      .cons (Slot.restores_defaulted (Codec.restores_uint64 _)) <|
      .cons (Slot.restores_nullable fun ledger held =>
        LedgerId.codec_restores (h.ledger ledger held)) .nil)
    (by decide) (by simp) (by simp) (fun _ => rfl)

theorem writable_of_eq_none {info : AccountInfo} (key : info.key = none)
    (period : info.autoRenewPeriod = none) (ledger : info.ledger = none)
    (depth : (codec.encode info).depth ≤ Json.maxDepth) : info.Writable where
  key _ held := nomatch key.symm.trans held
  autoRenewPeriod _ held := nomatch period.symm.trans held
  ledger _ held := nomatch ledger.symm.trans held
  depth := depth

theorem readsBack {info : AccountInfo} (h : info.Writable)
    (times : ∀ time ∈ info.expirationTime, time.IsCivil) : record.ReadsBack info := by
  have initial : record.initial.Writable := writable_of_eq_none rfl rfl rfl (by decide +kernel)
  have defaults := restores initial fun _ held => nomatch (held : none = some _)
  exact (restores h times).readsBack defaults h.depth

theorem encode_settled (info : AccountInfo) (time : Instant) :
    codec.encode { info with expirationTime := some (Timestamp.settled time) } =
      codec.encode { info with expirationTime := some time } := by
  have shown : Instant.codec.optional.encode (some (Timestamp.settled time)) =
      Instant.codec.optional.encode (some time) :=
    congrArg Json.string (Timestamp.text_settled time)
  simp only [codec, Record.codec, Record.members, record, Slot.mandatory, Slot.nullable,
    Slot.defaulted, List.filterMap_cons, List.filterMap_nil, Option.map_some, shown]

theorem read_settled {info : AccountInfo} (h : info.Writable) {time : Instant}
    (expires : info.expirationTime = some time) :
    codec.decodeBytes (Bytes.ofText (codec.encodeText info)) =
      .ok { info with expirationTime := some (Timestamp.settled time) } := by
  have same := encode_settled info time
  rw [← expires] at same
  have depth := same ▸ h.depth
  have writable : Writable { info with expirationTime := some (Timestamp.settled time) } :=
    { h with depth }
  have civil : ∀ other ∈ some (Timestamp.settled time), other.IsCivil := by
    rintro other ⟨⟩
    exact Timestamp.settled_isCivil time
  have text : codec.encodeText info =
      codec.encodeText { info with expirationTime := some (Timestamp.settled time) } :=
    congrArg Json.text same.symm
  rw [text]
  exact (readsBack writable civil).own

end AccountInfo

/-- Every response within the limits of the format is read back from its text, and from every other
presentation of its fields: in any order, without those that hold their default, and with members of
other names among them. -/
theorem responses_read_back :
    (∀ response : TransactionResponse, response.transactionId.validStart.isLeap = false →
      TransactionResponse.record.ReadsBack response) ∧
    (∀ receipt : TransactionReceipt,
      (∀ id, receipt.scheduledTransaction = some id → id.validStart.isLeap = false) →
        TransactionReceipt.record.ReadsBack receipt) ∧
    (∀ balance : AccountBalance, AccountBalance.record.ReadsBack balance) ∧
    (∀ info : AccountInfo, info.Writable → (∀ time ∈ info.expirationTime, time.IsCivil) →
      AccountInfo.record.ReadsBack info) :=
  ⟨fun _ => TransactionResponse.readsBack, fun _ => TransactionReceipt.readsBack,
    AccountBalance.readsBack, fun _ => AccountInfo.readsBack⟩

def controlledAccount : AccountInfo where
  account := .ofNum 5
  key := some (.list [.contract (.ofNum 7), .delegatableContract (.ofNum 8)] (some 1))
  autoRenewPeriod := some (.ofSeconds 7776000)
  ledger := some .testnet

theorem writable_controlledAccount : controlledAccount.Writable where
  key := by
    rintro key held
    obtain rfl := Option.some.inj held
    have parts : ∀ key ∈ [Key.contract (.ofNum 7), .delegatableContract (.ofNum 8)],
        key.WellFormed :=
      List.forall_iff_forall_mem.mp ⟨.contract _, .delegatableContract _⟩
    refine .list parts ?_
    rintro k same
    obtain rfl := Option.some.inj same
    decide
  autoRenewPeriod := by
    rintro period held
    obtain rfl := Option.some.inj held
    rfl
  ledger := by
    rintro ledger held
    obtain rfl := Option.some.inj held
    exact List.cons_ne_nil _ _
  depth := by decide +kernel

/-- An account with seven units of token 500 and no hbars. -/
def tokenBalance : AccountBalance where
  account := .ofNum 5
  tokens := TokenBalances.empty.insert (.ofNum 500) 7

theorem presentation_tokenBalance :
    AccountBalance.record.Presentation tokenBalance
      [("tokens", Json.ofMembers [("0.0.500", Json.ofNat 7)]), ("note", Json.ofItems [.null]),
        ("accountId", .string "0.0.5")] := by
  have whole := (AccountBalance.restores tokenBalance).codec.written
  have all : AccountBalance.record.Presentation tokenBalance
      [("accountId", .string "0.0.5"), ("hbars", Json.ofInt 0),
        ("tokens", Json.ofMembers [("0.0.500", Json.ofNat 7)])] :=
    .written whole whole.presents_self
  have hbars : (Slot.defaulted "hbars" Hbar.codec AccountBalance.hbars fun hbars b =>
      { b with hbars }) ∈ AccountBalance.record.slots := by simp [AccountBalance.record]
  have trimmed : AccountBalance.record.Presentation tokenBalance
      [("accountId", .string "0.0.5"), ("tokens", Json.ofMembers [("0.0.500", Json.ofNat 7)])] :=
    .leaveOut (all.reorder (.swap _ _ _)) hbars rfl rfl
  have noted := trimmed.add (by decide : "note" ∉ AccountBalance.record.slots.map Slot.name)
    (.array .closed (List.forall_mem_singleton.mpr .null))
  exact noted.reorder (.trans (.swap _ _ _) (.cons _ (.swap _ _ _)))

def tokenBalanceText : String :=
  "\x7b\"tokens\":\x7b\"0.0.500\":7\x7d,\"note\":[null],\"accountId\":\"0.0.5\"\x7d"

theorem responses_read_back_tokenBalance :
    controlledAccount.Writable ∧ (∀ time ∈ controlledAccount.expirationTime, time.IsCivil) ∧
      AccountInfo.record.ReadsBack controlledAccount ∧
      AccountBalance.codec.decodeBytes (Bytes.ofText tokenBalanceText) = .ok tokenBalance := by
  have text : tokenBalanceText =
      (Json.ofMembers [("tokens", Json.ofMembers [("0.0.500", Json.ofNat 7)]),
        ("note", Json.ofItems [.null]), ("accountId", .string "0.0.5")]).text := by decide +kernel
  rw [text]
  have times : ∀ time ∈ controlledAccount.expirationTime, time.IsCivil := by decide
  exact ⟨writable_controlledAccount, times,
    responses_read_back.2.2.2 _ writable_controlledAccount times,
    (responses_read_back.2.2.1 tokenBalance).presented _ presentation_tokenBalance⟩

/-- An account that expires in a leap second inside a minute. -/
def expiringAccount : AccountInfo where
  account := .ofNum 5
  expirationTime := some Timestamp.leapInside

theorem expiringAccount_read_later :
    expiringAccount.Writable ∧
      AccountInfo.codec.decodeBytes (Bytes.ofText (AccountInfo.codec.encodeText expiringAccount)) =
        .ok { expiringAccount with expirationTime := some Timestamp.leapInsideShown } ∧
      ¬ AccountInfo.record.ReadsBack expiringAccount := by
  have writable : expiringAccount.Writable :=
    AccountInfo.writable_of_eq_none rfl rfl rfl (by decide +kernel)
  have read := AccountInfo.read_settled writable rfl
  refine ⟨writable, read, fun same => ?_⟩
  exact nomatch congrArg AccountInfo.expirationTime (Except.ok.inj (read.symm.trans same.own))

end LedgerClient
