import LedgerClient.Client.Execute
import LedgerClient.Operation.Basic
import LedgerClient.Proofs.Operation.Span

/-!
Freezing over whole runs of calls. A frozen operation stays frozen; every setter is refused on it
and changes nothing. What still changes a frozen transaction is signing it, and an execution that
succeeds and fills an id or a node list that is not set; nothing changes a frozen query. On an
operation that is not frozen a setter fails only for a span of time outside the rule of its field.
-/

namespace LedgerClient

def TransactionKind.spanOf : (kind : TransactionKind) → kind.DataCall → Option Duration
  | .contractUpdate, ContractUpdate.Call.setAutoRenewPeriod period => some period
  | .topicCreate, TopicCreate.Call.setAutoRenewPeriod period => some period
  | .topicUpdate, TopicUpdate.Call.setAutoRenewPeriod period => some period
  | _, _ => none

theorem except_bind_error {ε α β : Type} {first : Except ε α} {next : α → β} {cause : ε}
    (failed : (do return next (← first) : Except ε β) = .error cause) : first = .error cause := by
  cases first with
  | error fault =>
    cases failed
    rfl
  | ok value => cases failed

theorem TransactionKind.apply_error {kind : TransactionKind} {call : kind.DataCall}
    {data : kind.Data} {cause : LedgerError}
    (refused : kind.operation.apply call data = .error cause) :
    ∃ span, kind.spanOf call = some span ∧ cause.RefusesSpan span := by
  cases kind with
  | contractUpdate =>
    cases call with
    | setAutoRenewPeriod span =>
      exact ⟨span, rfl, Duration.refusesSpan_of_checkRenewal (except_bind_error refused)⟩
    | _ => cases refused
  | topicCreate =>
    cases call with
    | setAutoRenewPeriod span =>
      exact ⟨span, rfl, Duration.refusesSpan_of_checkRenewal (except_bind_error refused)⟩
    | _ => cases refused
  | topicUpdate =>
    cases call with
    | setAutoRenewPeriod span =>
      exact ⟨span, rfl, Duration.refusesSpan_of_checkRenewal (except_bind_error refused)⟩
    | _ => cases refused
  | _ => cases refused

theorem QueryKind.apply_ok {kind : QueryKind} (call : kind.DataCall) (data : kind.Data) :
    ∃ next, kind.operation.apply call data = .ok next := by
  cases kind with
  | accountBalance => cases call <;> exact ⟨_, rfl⟩
  | accountInfo => cases call; exact ⟨_, rfl⟩
  | transactionReceipt => cases call <;> exact ⟨_, rfl⟩

namespace Transaction

variable {kind : TransactionKind}

/-- What can be called on a transaction, in any order and any number of times. -/
inductive Action (kind : TransactionKind) : Type 1 where
  | call (call : Call kind)
  | sign (signer : Signer)
  | freeze
  | write
  | execute {σ : Type} (client : Client σ) (timeout : Option Duration)

/-- The transaction after an action; a call that fails leaves it as it is. -/
def step (transaction : Transaction kind) : Action kind → Transaction kind
  | .call call =>
    match transaction.call call with
    | .ok next => next
    | .error _ => transaction
  | .sign signer => transaction.sign signer
  | .freeze => transaction.freeze
  | .write => transaction
  | .execute client timeout => (transaction.execute client timeout).2.1

def after (transaction : Transaction kind) (actions : List (Action kind)) : Transaction kind :=
  actions.foldl step transaction

def Call.span : Call kind → Option Duration
  | .data call => kind.spanOf call
  | .setValidDuration duration => some duration
  | _ => none

def Action.signers : Action kind → List Signer
  | .sign signer => [signer]
  | _ => []

theorem call_of_frozen {transaction : Transaction kind} (frozen : transaction.isFrozen = true)
    (call : Call kind) : transaction.call call = .error (.frozenMutation call.field) :=
  if_pos frozen

theorem step_call_cases (transaction : Transaction kind) (call : Call kind) :
    transaction.step (.call call) = transaction ∨
      transaction.isFrozen = false ∧ ∃ body, applyCall transaction.body call = .ok body ∧
        transaction.step (.call call) = { transaction with body } := by
  cases frozen : transaction.isFrozen with
  | true =>
    left
    rw [step, call_of_frozen frozen]
  | false =>
    cases applied : applyCall transaction.body call with
    | error cause =>
      left
      rw [step, Transaction.call, frozen, applied]
      rfl
    | ok body =>
      refine .inr ⟨rfl, body, rfl, ?_⟩
      rw [step, Transaction.call, frozen, applied]
      rfl

theorem refusesSpan_of_call {transaction : Transaction kind} {call : Call kind}
    {cause : LedgerError} (unfrozen : transaction.isFrozen = false)
    (refused : transaction.call call = .error cause) :
    ∃ span, call.span = some span ∧ cause.RefusesSpan span := by
  have applied : applyCall transaction.body call = .error cause := by
    rw [Transaction.call, unfrozen] at refused
    exact except_bind_error refused
  cases call with
  | data call => exact TransactionKind.apply_error (except_bind_error applied)
  | setValidDuration duration =>
    exact ⟨duration, rfl, Duration.refusesSpan_of_checkValid (except_bind_error applied)⟩
  | _ => cases applied

theorem execute_cases {σ : Type} (transaction : Transaction kind) (client : Client σ)
    (timeout : Option Duration) :
    (transaction.execute client timeout).2.1 = transaction.freeze ∨
      ∃ response, (transaction.execute client timeout).1 = some (.ok response) ∧
        (transaction.execute client timeout).2.1 = transaction.freeze.complete response := by
  unfold execute
  simp only
  split
  · exact .inr ⟨_, rfl, rfl⟩
  · exact .inl rfl

theorem freeze_of_frozen {transaction : Transaction kind} (frozen : transaction.isFrozen = true) :
    transaction.freeze = transaction := by
  cases transaction
  cases frozen
  rfl

theorem step_of_frozen {transaction : Transaction kind} (frozen : transaction.isFrozen = true)
    (action : Action kind) :
    action.signers = [] ∧ transaction.step action = transaction ∨
      (∃ signer, action = .sign signer ∧ transaction.step action = transaction.sign signer) ∨
      ∃ σ, ∃ client : Client σ, ∃ timeout response, action = .execute client timeout ∧
        (transaction.execute client timeout).1 = some (.ok response) ∧
        transaction.step action = transaction.complete response := by
  cases action with
  | call call => exact .inl ⟨rfl, by rw [step, call_of_frozen frozen]⟩
  | sign signer => exact .inr (.inl ⟨signer, rfl, rfl⟩)
  | freeze => exact .inl ⟨rfl, freeze_of_frozen frozen⟩
  | write => exact .inl ⟨rfl, rfl⟩
  | execute client timeout =>
    rcases transaction.execute_cases client timeout with unchanged | ⟨response, answered, next⟩
    · exact .inl ⟨rfl, unchanged.trans (freeze_of_frozen frozen)⟩
    · rw [freeze_of_frozen frozen] at next
      exact .inr (.inr ⟨_, client, timeout, response, rfl, answered, next⟩)

/-- `next` is what a frozen transaction can become: further signers have signed it, and its id and
its nodes are still there if they were set. -/
structure Continues (transaction next : Transaction kind) (signers : List Signer) : Prop where
  frozen : next.isFrozen = true
  data : next.body.data = transaction.body.data
  maxFee : next.body.maxFee = transaction.body.maxFee
  memo : next.body.memo = transaction.body.memo
  validDuration : next.body.validDuration = transaction.body.validDuration
  signers : next.signers = transaction.signers ++ signers
  id : ∀ id, transaction.body.id = some id → next.body.id = some id
  nodes : ∀ nodes, transaction.body.nodes = some nodes → next.body.nodes = some nodes

theorem Continues.refl {transaction : Transaction kind} (frozen : transaction.isFrozen = true) :
    transaction.Continues transaction [] where
  frozen := frozen
  data := rfl
  maxFee := rfl
  memo := rfl
  validDuration := rfl
  signers := (List.append_nil _).symm
  id _ set := set
  nodes _ set := set

theorem continues_step {transaction : Transaction kind} (frozen : transaction.isFrozen = true)
    (action : Action kind) : transaction.Continues (transaction.step action) action.signers := by
  rcases step_of_frozen frozen action with ⟨unsigned, same⟩ | ⟨signer, rfl, signed⟩ |
    ⟨σ, client, timeout, response, rfl, _, completed⟩
  · rw [unsigned, same]
    exact .refl frozen
  · exact { Continues.refl frozen with signers := rfl }
  · rw [completed]
    refine { Continues.refl frozen with id := fun id set => ?_, nodes := fun nodes set => ?_ }
    · simp [complete, set]
    · simp [complete, set]

theorem Continues.trans {first second third : Transaction kind} {signers later : List Signer}
    (before : first.Continues second signers) (after : second.Continues third later) :
    first.Continues third (signers ++ later) where
  frozen := after.frozen
  data := after.data.trans before.data
  maxFee := after.maxFee.trans before.maxFee
  memo := after.memo.trans before.memo
  validDuration := after.validDuration.trans before.validDuration
  signers := by rw [after.signers, before.signers, List.append_assoc]
  id id set := after.id id (before.id id set)
  nodes nodes set := after.nodes nodes (before.nodes nodes set)

theorem continues_after {transaction : Transaction kind} (frozen : transaction.isFrozen = true)
    (actions : List (Action kind)) :
    transaction.Continues (transaction.after actions) (actions.flatMap Action.signers) := by
  induction actions generalizing transaction with
  | nil => exact .refl frozen
  | cons action rest ih =>
    have first := continues_step frozen action
    rw [List.flatMap_cons]
    exact first.trans (ih first.frozen)

/-- What holds of a transaction and of every run of actions that begins with it. -/
structure FreezeLaws (transaction : Transaction kind) (actions : List (Action kind)) : Prop where
  continues : transaction.isFrozen = true →
    transaction.Continues (transaction.after actions) (actions.flatMap Action.signers)
  refused : transaction.isFrozen = true → ∀ call : Call kind,
    (transaction.after actions).call call = .error (.frozenMutation call.field) ∧
      (transaction.after actions).step (.call call) = transaction.after actions
  changed : transaction.isFrozen = true → ∀ action : Action kind,
    (transaction.after actions).step action = transaction.after actions ∨
      (∃ signer, action = .sign signer ∧
        (transaction.after actions).step action = (transaction.after actions).sign signer) ∨
      ∃ σ, ∃ client : Client σ, ∃ timeout response, action = .execute client timeout ∧
        ((transaction.after actions).execute client timeout).1 = some (.ok response) ∧
        (transaction.after actions).step action = (transaction.after actions).complete response
  failed : transaction.isFrozen = false → ∀ (call : Call kind) (cause : LedgerError),
    transaction.call call = .error cause →
      (∃ span, call.span = some span ∧ cause.RefusesSpan span) ∧
        transaction.step (.call call) = transaction
  freeze_eq : transaction.freeze = { transaction with isFrozen := true }
  freeze_freeze : transaction.freeze.freeze = transaction.freeze

theorem freezeLaws (transaction : Transaction kind) (actions : List (Action kind)) :
    transaction.FreezeLaws actions where
  continues frozen := continues_after frozen actions
  refused frozen call := by
    have still := (continues_after frozen actions).frozen
    exact ⟨call_of_frozen still call, by rw [step, call_of_frozen still]⟩
  changed frozen action := by
    rcases step_of_frozen (continues_after frozen actions).frozen action with ⟨_, same⟩ | changed
    · exact .inl same
    · exact .inr changed
  failed unfrozen call cause refused :=
    ⟨refusesSpan_of_call unfrozen refused, by rw [step, refused]⟩
  freeze_eq := rfl
  freeze_freeze := rfl

end Transaction

namespace Query

variable {kind : QueryKind}

inductive Action (kind : QueryKind) : Type 1 where
  | call (call : Call kind)
  | freeze
  | write
  | execute {σ : Type} (client : Client σ) (timeout : Option Duration)
  | cost {σ : Type} (client : Client σ)

def step (query : Query kind) : Action kind → Query kind
  | .call call =>
    match query.call call with
    | .ok next => next
    | .error _ => query
  | .freeze => query.freeze
  | .write => query
  | .execute client timeout => (query.execute client timeout).2.1
  | .cost _ => query

def after (query : Query kind) (actions : List (Action kind)) : Query kind :=
  actions.foldl step query

def Call.span : Call kind → Option Duration
  | .setValidDuration duration => some duration
  | _ => none

theorem call_of_frozen {query : Query kind} (frozen : query.isFrozen = true) (call : Call kind) :
    query.call call = .error (.frozenMutation call.field) :=
  if_pos frozen

theorem step_call_cases (query : Query kind) (call : Call kind) :
    query.step (.call call) = query ∨
      query.isFrozen = false ∧ ∃ body, applyCall query.body call = .ok body ∧
        query.step (.call call) = { query with body } := by
  cases frozen : query.isFrozen with
  | true =>
    left
    rw [step, call_of_frozen frozen]
  | false =>
    cases applied : applyCall query.body call with
    | error cause =>
      left
      rw [step, Query.call, frozen, applied]
      rfl
    | ok body =>
      refine .inr ⟨rfl, body, rfl, ?_⟩
      rw [step, Query.call, frozen, applied]
      rfl

theorem refusesSpan_of_call {query : Query kind} {call : Call kind} {cause : LedgerError}
    (unfrozen : query.isFrozen = false) (refused : query.call call = .error cause) :
    ∃ span, call.span = some span ∧ cause.RefusesSpan span := by
  have applied : applyCall query.body call = .error cause := by
    rw [Query.call, unfrozen] at refused
    exact except_bind_error refused
  cases call with
  | data call =>
    obtain ⟨next, done⟩ := QueryKind.apply_ok call query.body.data
    have failed := except_bind_error applied
    rw [done] at failed
    cases failed
  | setValidDuration duration =>
    have failed := except_bind_error applied
    exact ⟨duration, rfl, Duration.refusesSpan_of_checkValid (except_bind_error failed)⟩
  | _ => cases applied

theorem freeze_of_frozen {query : Query kind} (frozen : query.isFrozen = true) :
    query.freeze = query := by
  cases query
  cases frozen
  rfl

theorem step_of_frozen {query : Query kind} (frozen : query.isFrozen = true)
    (action : Action kind) : query.step action = query := by
  cases action with
  | call call => rw [step, call_of_frozen frozen]
  | freeze => exact freeze_of_frozen frozen
  | write => rfl
  | execute client timeout => exact freeze_of_frozen frozen
  | cost client => rfl

theorem after_of_frozen {query : Query kind} (frozen : query.isFrozen = true)
    (actions : List (Action kind)) : query.after actions = query := by
  induction actions with
  | nil => rfl
  | cons action rest ih =>
    rw [after, List.foldl_cons, step_of_frozen frozen]
    exact ih

structure FreezeLaws (query : Query kind) (actions : List (Action kind)) : Prop where
  unchanged : query.isFrozen = true → query.after actions = query
  refused : query.isFrozen = true → ∀ call : Call kind,
    query.call call = .error (.frozenMutation call.field)
  failed : query.isFrozen = false → ∀ (call : Call kind) (cause : LedgerError),
    query.call call = .error cause →
      (∃ span, call.span = some span ∧ cause.RefusesSpan span) ∧ query.step (.call call) = query
  freeze_eq : query.freeze = { query with isFrozen := true }
  freeze_freeze : query.freeze.freeze = query.freeze

theorem freezeLaws (query : Query kind) (actions : List (Action kind)) :
    query.FreezeLaws actions where
  unchanged frozen := after_of_frozen frozen actions
  refused frozen call := call_of_frozen frozen call
  failed unfrozen call cause refused :=
    ⟨refusesSpan_of_call unfrozen refused, by rw [step, refused]⟩
  freeze_eq := rfl
  freeze_freeze := rfl

end Query

/-- Freezing is final for transactions and queries of all kinds and every run of calls. -/
theorem freezing_is_final :
    (∀ {kind : TransactionKind} (transaction : Transaction kind)
      (actions : List (Transaction.Action kind)), transaction.FreezeLaws actions) ∧
    ∀ {kind : QueryKind} (query : Query kind) (actions : List (Query.Action kind)),
      query.FreezeLaws actions :=
  ⟨Transaction.freezeLaws, Query.freezeLaws⟩

end LedgerClient
