import LedgerClient.Proofs.Client.Attempt
import LedgerClient.Proofs.Operation.Span

/-!
Which calls reach the engine. `IdHolder` says which ids a value holds: those of its fields, of the
entries of its lists, and of its keys at any depth. An operation is admissible on a ledger if its
valid duration and its chunk numbers are in their ranges and every id that it holds carries the
checksum generated for the ledger, or none. Exactly the calls on admissible operations submit a
request; each of the others is rejected with the first fault that is met.
-/

namespace LedgerClient

/-- Values that hold ids which can carry a checksum. -/
class IdHolder (α : Type) where
  Holds : α → CheckedId → Prop

open IdHolder (Holds)

instance {kind : EntityKind} : IdHolder (EntityId kind) := ⟨fun id checked => checked = id.checked⟩

instance : IdHolder AccountId := ⟨fun id checked => checked = id.checked⟩

instance : IdHolder TransactionId := ⟨fun id checked => Holds id.account checked⟩

instance {α : Type} [IdHolder α] : IdHolder (Option α) :=
  ⟨fun value checked => ∃ x, value = some x ∧ Holds x checked⟩

instance {α : Type} [IdHolder α] : IdHolder (List α) :=
  ⟨fun values checked => ∃ x ∈ values, Holds x checked⟩

/-- The contracts that a key names itself or inside its lists, however deep. -/
inductive Key.Names : Key → CheckedId → Prop
  | contract (id : ContractId) : Key.Names (.contract id) id.checked
  | delegatableContract (id : ContractId) : Key.Names (.delegatableContract id) id.checked
  | list {keys : List Key} {threshold : Option UInt32} {key : Key} {checked : CheckedId} :
      key ∈ keys → Key.Names key checked → Key.Names (.list keys threshold) checked

instance : IdHolder Key := ⟨Key.Names⟩

instance : IdHolder HbarAllowance where
  Holds allowance checked := Holds allowance.owner checked ∨ Holds allowance.spender checked

instance : IdHolder TokenAllowance where
  Holds allowance checked :=
    Holds allowance.token checked ∨ Holds allowance.owner checked ∨ Holds allowance.spender checked

instance : IdHolder NftAllowance where
  Holds allowance checked :=
    Holds allowance.token checked ∨ Holds allowance.owner checked ∨
      Holds allowance.spender checked ∨ Holds allowance.delegatingSpender checked

instance : IdHolder AllowanceApproval where
  Holds approval checked :=
    Holds approval.hbar checked ∨ Holds approval.token checked ∨ Holds approval.nft checked

instance : IdHolder ContractUpdate where
  Holds update checked :=
    Holds update.contract checked ∨ Holds update.adminKey checked ∨
      Holds update.autoRenewAccount checked ∨ Holds update.proxyAccount checked ∨
      Holds update.stakedAccount checked

instance : IdHolder TokenBurn := ⟨fun burn checked => Holds burn.token checked⟩

instance : IdHolder TokenWipe where
  Holds wipe checked := Holds wipe.token checked ∨ Holds wipe.account checked

instance : IdHolder TokenRelation where
  Holds relation checked := Holds relation.account checked ∨ Holds relation.token checked

instance : IdHolder TokenUnpause := ⟨fun unpause checked => Holds unpause.token checked⟩

instance : IdHolder TopicCreate where
  Holds create checked :=
    Holds create.adminKey checked ∨ Holds create.submitKey checked ∨
      Holds create.autoRenewAccount checked

instance : IdHolder TopicUpdate where
  Holds update checked :=
    Holds update.topic checked ∨ Holds update.adminKey checked ∨
      Holds update.submitKey checked ∨ Holds update.autoRenewAccount checked

instance : IdHolder TopicMessageSubmit where
  Holds submit checked := Holds submit.topic checked ∨ Holds submit.initialTransaction checked

instance : (kind : TransactionKind) → IdHolder kind.Data
  | .accountAllowanceApprove => inferInstanceAs (IdHolder AllowanceApproval)
  | .contractUpdate => inferInstanceAs (IdHolder ContractUpdate)
  | .tokenBurn => inferInstanceAs (IdHolder TokenBurn)
  | .tokenFreeze => inferInstanceAs (IdHolder TokenRelation)
  | .tokenRevokeKyc => inferInstanceAs (IdHolder TokenRelation)
  | .tokenUnpause => inferInstanceAs (IdHolder TokenUnpause)
  | .tokenWipe => inferInstanceAs (IdHolder TokenWipe)
  | .topicCreate => inferInstanceAs (IdHolder TopicCreate)
  | .topicMessageSubmit => inferInstanceAs (IdHolder TopicMessageSubmit)
  | .topicUpdate => inferInstanceAs (IdHolder TopicUpdate)

instance {kind : TransactionKind} : IdHolder (TransactionBody kind) where
  Holds body checked := Holds body.data checked ∨ Holds body.nodes checked ∨ Holds body.id checked

instance : IdHolder AccountBalanceQuery where
  Holds query checked := Holds query.account checked ∨ Holds query.contract checked

instance : IdHolder AccountInfoQuery := ⟨fun query checked => Holds query.account checked⟩

instance : IdHolder TransactionReceiptQuery := ⟨fun query checked => Holds query.id checked⟩

instance : (kind : QueryKind) → IdHolder kind.Data
  | .accountBalance => inferInstanceAs (IdHolder AccountBalanceQuery)
  | .accountInfo => inferInstanceAs (IdHolder AccountInfoQuery)
  | .transactionReceipt => inferInstanceAs (IdHolder TransactionReceiptQuery)

instance : IdHolder Payment where
  Holds payment checked :=
    Holds payment.nodes checked ∨ Holds payment.payer checked ∨ Holds payment.id checked

instance {kind : QueryKind} : IdHolder (QueryBody kind) where
  Holds body checked := Holds body.data checked ∨ Holds body.payment checked

instance : IdHolder Operation where
  Holds
    | .transaction transaction, checked => Holds transaction.body checked
    | .query query, checked => Holds query.body checked

/-! ## The ids that are validated are the ids that are held -/

theorem mem_checkedOf_iff {α : Type} {checked : α → CheckedId} {value : Option α} {id : CheckedId} :
    id ∈ checkedOf checked value ↔ ∃ x, value = some x ∧ id = checked x := by
  cases value <;> simp [checkedOf]

mutual

theorem Key.mem_checkedIds_iff (id : CheckedId) : (key : Key) → (id ∈ key.checkedIds ↔ key.Names id)
  | .single _ => by
    refine ⟨fun member => by simp [Key.checkedIds] at member, fun names => ?_⟩
    cases names
  | .contract named => by
    rw [Key.checkedIds, List.mem_singleton]
    refine ⟨fun same => same ▸ .contract named, fun names => ?_⟩
    cases names
    rfl
  | .delegatableContract named => by
    rw [Key.checkedIds, List.mem_singleton]
    refine ⟨fun same => same ▸ .delegatableContract named, fun names => ?_⟩
    cases names
    rfl
  | .list keys threshold => by
    rw [Key.checkedIds, Key.mem_checkedIdsOfAll_iff id keys]
    refine ⟨fun ⟨key, member, names⟩ => .list member names, fun names => ?_⟩
    cases names with
    | list member names => exact ⟨_, member, names⟩

theorem Key.mem_checkedIdsOfAll_iff (id : CheckedId) :
    (keys : List Key) → (id ∈ Key.checkedIdsOfAll keys ↔ ∃ key ∈ keys, key.Names id)
  | [] => by simp [Key.checkedIdsOfAll]
  | key :: rest => by
    rw [Key.checkedIdsOfAll, List.mem_append, Key.mem_checkedIds_iff id key,
      Key.mem_checkedIdsOfAll_iff id rest]
    simp only [List.mem_cons, exists_eq_or_imp]

end

theorem mem_flatMap_checkedIds_iff {id : CheckedId} {key : Option Key} :
    id ∈ key.toList.flatMap Key.checkedIds ↔ ∃ k, key = some k ∧ k.Names id := by
  cases key <;> simp [Key.mem_checkedIds_iff]

theorem mem_map_checked_iff {id : CheckedId} {nodes : Option (List AccountId)} :
    id ∈ (nodes.getD []).map AccountId.checked ↔
      ∃ accounts, nodes = some accounts ∧ ∃ account ∈ accounts, id = account.checked := by
  cases nodes <;> simp [eq_comm]

theorem NftAllowance.mem_checkedIds_iff {id : CheckedId} {allowance : NftAllowance} :
    id ∈ allowance.checkedIds ↔ Holds allowance id := by
  cases h : allowance.delegatingSpender <;>
    simp [NftAllowance.checkedIds, Holds, h]

theorem AllowanceApproval.mem_checkedIds_iff {id : CheckedId} {approval : AllowanceApproval} :
    id ∈ AllowanceApproval.operation.checkedIds approval ↔ Holds approval id := by
  simp only [AllowanceApproval.operation, List.mem_append, List.mem_flatMap,
    NftAllowance.mem_checkedIds_iff, or_assoc]
  simp [HbarAllowance.checkedIds, TokenAllowance.checkedIds, Holds]

theorem TransactionKind.mem_checkedIds_iff {id : CheckedId} (kind : TransactionKind)
    (data : kind.Data) : id ∈ kind.operation.checkedIds data ↔ Holds data id := by
  cases kind with
  | accountAllowanceApprove => exact AllowanceApproval.mem_checkedIds_iff
  | _ =>
    simp only [operation, ContractUpdate.operation, TokenBurn.operation, TokenRelation.operation,
      TokenUnpause.operation, TokenWipe.operation, TopicCreate.operation,
      TopicMessageSubmit.operation, TopicUpdate.operation, List.mem_append, mem_checkedOf_iff,
      mem_flatMap_checkedIds_iff, or_assoc]
    rfl

theorem QueryKind.mem_checkedIds_iff {id : CheckedId} (kind : QueryKind) (data : kind.Data) :
    id ∈ kind.operation.checkedIds data ↔ Holds data id := by
  cases kind <;>
    simp only [operation, AccountBalanceQuery.operation, AccountInfoQuery.operation,
      TransactionReceiptQuery.operation, List.mem_append, mem_checkedOf_iff] <;>
    rfl

/-- The ids of an operation in the order in which they are validated. -/
def Operation.checkedIds : Operation → List CheckedId
  | transaction t => t.body.checkedIds
  | query q => q.body.checkedIds

theorem Operation.mem_checkedIds_iff {id : CheckedId} (operation : Operation) :
    id ∈ operation.checkedIds ↔ Holds operation id := by
  cases operation with
  | transaction t =>
    simp only [checkedIds, TransactionBody.checkedIds, List.mem_append,
      TransactionKind.mem_checkedIds_iff, mem_map_checked_iff, mem_checkedOf_iff, or_assoc]
    rfl
  | query q =>
    simp only [checkedIds, QueryBody.checkedIds, Payment.checkedIds, List.mem_append,
      QueryKind.mem_checkedIds_iff, mem_map_checked_iff, mem_checkedOf_iff, or_assoc]
    rfl

/-! ## Rules, and the first fault -/

/-- The id carries no checksum, or the one generated for the ledger. -/
def CheckedId.Matches (id : CheckedId) (ledger : LedgerId) : Prop :=
  ∀ checksum, id.checksum = some checksum → checksum = Checksum.generate id.text ledger

namespace Operation

/-- The valid duration of a transaction, or of the payment of a query. -/
def validDuration : Operation → Option Duration
  | transaction t => t.body.validDuration
  | query q => q.body.payment.validDuration

def chunk : Operation → Option (UInt32 × UInt32)
  | @transaction .topicMessageSubmit t =>
    let submit : TopicMessageSubmit := t.body.data
    some (submit.chunkNumber, submit.chunkTotal)
  | _ => none

def HasValidDuration (operation : Operation) : Prop :=
  ∀ duration, operation.validDuration = some duration → duration.IsValid

def HasValidChunk (operation : Operation) : Prop :=
  ∀ number total, operation.chunk = some (number, total) → 1 ≤ number ∧ number ≤ total

/-- The operation may be sent to the ledger. -/
structure Admissible (operation : Operation) (ledger : LedgerId) : Prop where
  duration : operation.HasValidDuration
  chunk : operation.HasValidChunk
  ids : ∀ id, Holds operation id → id.Matches ledger

/-- The fault that is met first: in the valid duration, then in the chunk numbers, then in the ids
in their order. -/
inductive FirstFault (operation : Operation) (ledger : LedgerId) : LedgerError → Prop
  | fraction {duration : Duration} :
      operation.validDuration = some duration → duration.nanos ≠ 0 →
      FirstFault operation ledger
        (.invalidArgument (.fractionalSeconds "transaction valid duration" duration))
  | range {duration : Duration} :
      operation.validDuration = some duration → duration.nanos = 0 →
      ¬ (1 ≤ duration.seconds ∧ duration.seconds ≤ 180) →
      FirstFault operation ledger (.invalidArgument (.validDurationRange duration))
  | chunk {number total : UInt32} :
      operation.HasValidDuration → operation.chunk = some (number, total) →
      ¬ (1 ≤ number ∧ number ≤ total) →
      FirstFault operation ledger (.invalidArgument (.chunkNumber number total))
  | checksum {before after : List CheckedId} {id : CheckedId} {actual : Checksum} :
      operation.HasValidDuration → operation.HasValidChunk →
      operation.checkedIds = before ++ id :: after → (∀ earlier ∈ before, earlier.Matches ledger) →
      id.checksum = some actual → actual ≠ Checksum.generate id.text ledger →
      FirstFault operation ledger
        (.checksumMismatch id.text (Checksum.generate id.text ledger) actual ledger)

theorem FirstFault.not_admissible {operation : Operation} {ledger : LedgerId} {cause : LedgerError}
    (fault : operation.FirstFault ledger cause) : ¬ operation.Admissible ledger := by
  intro admissible
  cases fault with
  | fraction set nonzero => exact nonzero (admissible.duration _ set).1
  | range set _ outside => exact outside (admissible.duration _ set).2
  | chunk _ set outside => exact outside (admissible.chunk _ _ set)
  | checksum _ _ ids _ carried different =>
    have held := operation.mem_checkedIds_iff.1 (ids ▸ List.mem_append_right _ List.mem_cons_self)
    exact different (admissible.ids _ held _ carried)

end Operation

theorem CheckedId.validate_cases (id : CheckedId) (ledger : LedgerId) :
    id.validate ledger = .ok () ∧ id.Matches ledger ∨
      ∃ actual, id.checksum = some actual ∧ actual ≠ Checksum.generate id.text ledger ∧
        id.validate ledger =
          .error (.checksumMismatch id.text (Checksum.generate id.text ledger) actual ledger) := by
  unfold validate Matches
  cases carried : id.checksum with
  | none => simp
  | some actual =>
    by_cases same : Checksum.generate id.text ledger = actual
    · simp [same]
    · exact .inr ⟨actual, rfl, Ne.symm same, by simp [same]⟩

theorem CheckedId.validateAll_cases (ids : List CheckedId) (ledger : LedgerId) :
    validateAll ids ledger = .ok () ∧ (∀ id ∈ ids, id.Matches ledger) ∨
      ∃ before id after actual, ids = before ++ id :: after ∧
        (∀ earlier ∈ before, earlier.Matches ledger) ∧ id.checksum = some actual ∧
        actual ≠ Checksum.generate id.text ledger ∧
        validateAll ids ledger =
          .error (.checksumMismatch id.text (Checksum.generate id.text ledger) actual ledger) := by
  induction ids with
  | nil => exact .inl ⟨rfl, by simp⟩
  | cons id rest ih =>
    have step : validateAll (id :: rest) ledger =
        (id.validate ledger >>= fun _ => validateAll rest ledger) := rfl
    rcases id.validate_cases ledger with ⟨valid, matched⟩ | ⟨actual, carried, different, invalid⟩
    · rw [step, valid]
      rcases ih with ⟨rest_valid, rest_matched⟩ |
        ⟨before, wrong, after, actual, rfl, earlier, found⟩
      · exact .inl ⟨rest_valid, List.forall_mem_cons.2 ⟨matched, rest_matched⟩⟩
      · exact .inr ⟨id :: before, wrong, after, actual, rfl,
          List.forall_mem_cons.2 ⟨matched, earlier⟩, found⟩
    · refine .inr ⟨[], id, rest, actual, rfl, by simp, carried, different, ?_⟩
      rw [step, invalid]
      rfl

namespace Operation

def checkData : Operation → Except LedgerError Unit
  | @transaction kind t => kind.operation.validate t.body.data
  | @query kind q => kind.operation.validate q.body.data

theorem validate_eq (operation : Operation) (ledger : LedgerId) :
    operation.validate ledger = (do
      operation.validDuration.toList.forM Duration.checkValid
      operation.checkData
      CheckedId.validateAll operation.checkedIds ledger) := by
  cases operation <;> rfl

theorem checkData_cases (operation : Operation) :
    operation.checkData = .ok () ∧ operation.HasValidChunk ∨
      ∃ number total, operation.chunk = some (number, total) ∧
        ¬ (1 ≤ number ∧ number ≤ total) ∧
        operation.checkData = .error (.invalidArgument (.chunkNumber number total)) := by
  have unchunked (h : operation.chunk = none) : operation.HasValidChunk := by
    intro number total set
    rw [h] at set
    cases set
  cases operation with
  | @query kind q => cases kind <;> exact .inl ⟨rfl, unchunked rfl⟩
  | @transaction kind t =>
    cases kind with
    | topicMessageSubmit =>
      let submit : TopicMessageSubmit := t.body.data
      change submit.validate = _ ∧ _ ∨ _
      by_cases inside : 1 ≤ submit.chunkNumber ∧ submit.chunkNumber ≤ submit.chunkTotal
      · refine .inl ⟨if_pos inside, fun number total set => ?_⟩
        cases set
        exact inside
      · exact .inr ⟨_, _, rfl, inside, if_neg inside⟩
    | _ => exact .inl ⟨rfl, unchunked rfl⟩

theorem checkDuration_cases (operation : Operation) (ledger : LedgerId) :
    operation.validDuration.toList.forM Duration.checkValid = .ok () ∧
        operation.HasValidDuration ∨
      ∃ cause, operation.validDuration.toList.forM Duration.checkValid = .error cause ∧
        operation.FirstFault ledger cause := by
  cases set : operation.validDuration with
  | none =>
    refine .inl ⟨rfl, fun duration found => ?_⟩
    rw [set] at found
    cases found
  | some duration =>
    have only : (some duration).toList.forM Duration.checkValid = duration.checkValid := by
      simp only [Option.toList_some, List.forM_eq_forM, List.forM_cons, List.forM_nil]
      cases duration.checkValid <;> rfl
    rw [only]
    rcases duration.checkValid_cases with ⟨valid, inside⟩ | ⟨invalid, nonzero⟩ |
      ⟨invalid, zero, outside⟩
    · refine .inl ⟨valid, fun found same => ?_⟩
      rw [set] at same
      cases same
      exact inside
    · exact .inr ⟨_, invalid, .fraction set nonzero⟩
    · exact .inr ⟨_, invalid, .range set zero outside⟩

theorem validate_cases (operation : Operation) (ledger : LedgerId) :
    operation.validate ledger = .ok () ∧ operation.Admissible ledger ∨
      ∃ cause, operation.validate ledger = .error cause ∧ operation.FirstFault ledger cause := by
  rw [validate_eq]
  rcases operation.checkDuration_cases ledger with ⟨checked, duration⟩ | ⟨cause, checked, fault⟩
  · rw [checked]
    rcases operation.checkData_cases with ⟨checked, chunk⟩ | ⟨number, total, set, outside, checked⟩
    · rw [checked]
      rcases CheckedId.validateAll_cases operation.checkedIds ledger with ⟨checked, ids⟩ |
        ⟨before, id, after, actual, split, earlier, carried, different, checked⟩
      · refine .inl ⟨checked, duration, chunk, fun id held => ?_⟩
        exact ids id (operation.mem_checkedIds_iff.2 held)
      · exact .inr ⟨_, checked, .checksum duration chunk split earlier carried different⟩
    · rw [checked]
      exact .inr ⟨_, rfl, .chunk duration set outside⟩
  · rw [checked]
    exact .inr ⟨cause, rfl, fault⟩

end Operation

/-- A call submits its request, once, exactly if its operation is admissible on the client's
ledger. Otherwise it submits nothing and is rejected with the first fault. -/
theorem Attempt.submitted_iff_admissible {σ : Type} (attempt : Attempt) (client : Client σ) :
    (attempt.submitted client ≠ [] ↔ attempt.operation.Admissible client.ledger) ∧
      (attempt.submitted client = [attempt.request client] ∨
        attempt.submitted client = [] ∧
          ∃ cause, attempt.operation.FirstFault client.ledger cause ∧
            (attempt.run client).1 = some (.error (.rejected cause))) := by
  rw [submitted_eq]
  rcases attempt.operation.validate_cases client.ledger with ⟨valid, admissible⟩ |
    ⟨cause, invalid, fault⟩
  · rw [valid]
    exact ⟨⟨fun _ => admissible, fun _ => List.cons_ne_nil _ _⟩, .inl rfl⟩
  · have rejected : (attempt.run client).1 = some (.error (.rejected cause)) := by
      rw [run_eq, Client.run, job_validate, invalid]
    rw [invalid]
    exact ⟨⟨fun submits => absurd rfl submits, fun admissible => absurd admissible
      fault.not_admissible⟩, .inr ⟨rfl, cause, fault, rejected⟩⟩

end LedgerClient
