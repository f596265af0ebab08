import LedgerClient.Proofs.Client.Wire
import LedgerClient.Proofs.Operation.Execution

/-!
Targets of which an operation should have one: a contract stakes to an account or to a node, and a
balance is that of an account or of a contract. Calls that set one clear the other, so that no calls
lead to an operation with both. An envelope with both is read with both, however, and nothing checks
for them before a request: they are sent until a call sets or clears one of them.
-/

namespace LedgerClient

open Json (valuesAt)

theorem holds_foldl_iff {σ α : Type*} {step : σ → α → σ} {ends : σ → α → Prop} (holds : σ → Prop)
    (each : ∀ state action, holds (step state action) ↔ holds state ∧ ¬ ends state action)
    (state : σ) (actions : List α) :
    holds (actions.foldl step state) ↔ holds state ∧ ∀ before action later,
      actions = before ++ action :: later → ¬ ends (before.foldl step state) action := by
  -- If every step keeps a property of states except where it ends it, then a run has kept it
  -- exactly if no step ended it.
  induction actions generalizing state with
  | nil => simp
  | cons first rest ih =>
    rw [List.foldl_cons, ih, each]
    constructor
    · rintro ⟨⟨holds, goes⟩, kept⟩
      refine ⟨holds, fun before action later split => ?_⟩
      cases before with
      | nil =>
        cases split
        exact goes
      | cons other others =>
        cases split
        exact kept others action later rfl
    · rintro ⟨holds, kept⟩
      exact ⟨⟨holds, kept [] first rest rfl⟩, fun before action later split =>
        kept (first :: before) action later (split ▸ rfl)⟩

/-- A property of the data of a state that some calls end. If only calls on states that are not frozen
change the data, a run has kept the property exactly if it has none of these calls on such a state. -/
theorem holds_data_foldl_iff {σ α δ χ : Type*} {step : σ → α → σ} {apply : χ → δ → δ}
    {holds : δ → Prop} {ends : χ → Prop} (data : σ → δ) (isFrozen : σ → Bool) (call : χ → α)
    (injective : Function.Injective call)
    (each : ∀ c d, holds (apply c d) ↔ holds d ∧ ¬ ends c)
    (changed : ∀ state c, isFrozen state = false →
      data (step state (call c)) = apply c (data state))
    (kept : ∀ state action, (∀ c, action = call c → isFrozen state = true) →
      data (step state action) = data state)
    (state : σ) (actions : List α) :
    holds (data (actions.foldl step state)) ↔ holds (data state) ∧ ∀ before action later,
      actions = before ++ action :: later →
        ¬ (isFrozen (before.foldl step state) = false ∧ ∃ c, action = call c ∧ ends c) := by
  refine @holds_foldl_iff _ _ step (fun state action =>
    isFrozen state = false ∧ ∃ c, action = call c ∧ ends c) (fun state => holds (data state)) ?_
    state actions
  intro state action
  by_cases met : ∃ c, action = call c ∧ isFrozen state = false
  · obtain ⟨c, rfl, unfrozen⟩ := met
    have own : (∃ c', call c = call c' ∧ ends c') ↔ ends c :=
      ⟨fun ⟨_, same, ended⟩ => injective same ▸ ended, fun ended => ⟨c, rfl, ended⟩⟩
    rw [changed state c unfrozen, each, own, and_iff_right unfrozen]
  · have unmet : ¬ (isFrozen state = false ∧ ∃ c, action = call c ∧ ends c) := by
      rintro ⟨unfrozen, c, same, -⟩
      exact met ⟨c, same, unfrozen⟩
    rw [kept state action fun c same => by simpa using not_and.mp (not_exists.mp met c) same]
    exact ⟨fun held => ⟨held, unmet⟩, And.left⟩

namespace Transaction

variable {kind : TransactionKind}

theorem data_step_call {transaction : Transaction kind} (unfrozen : transaction.isFrozen = false)
    (call : kind.DataCall) :
    (transaction.step (.call (.data call))).body.data =
      (kind.operation.apply call transaction.body.data).toOption.getD transaction.body.data := by
  rw [step, Transaction.call, unfrozen, applyCall]
  cases kind.operation.apply call transaction.body.data <;> rfl

theorem data_step_of_not_call {transaction : Transaction kind} {action : Action kind}
    (other : ∀ call, action = .call (.data call) → transaction.isFrozen = true) :
    (transaction.step action).body.data = transaction.body.data := by
  cases action with
  | call call =>
    rcases transaction.step_call_cases call with same | ⟨unfrozen, body, applied, changed⟩
    · rw [same]
    · rw [changed]
      cases call with
      | data call => exact absurd (other call rfl) (Bool.eq_false_iff.mp unfrozen)
      | setValidDuration duration =>
        obtain ⟨-, -, applied⟩ := Except.bind_eq_ok applied
        cases applied
        rfl
      | _ =>
        cases applied
        rfl
  | sign signer => rfl
  | freeze => rfl
  | write => rfl
  | execute client timeout =>
    rcases transaction.execute_cases client timeout with next | ⟨response, -, next⟩
    · rw [step, next]
      rfl
    · rw [step, next]
      rfl

/-- Whether an action calls one of these calls on the data of an unfrozen transaction. -/
def Meets (calls : kind.DataCall → Prop) (transaction : Transaction kind) (action : Action kind) :
    Prop :=
  transaction.isFrozen = false ∧ ∃ call, action = .call (.data call) ∧ calls call

theorem holds_data_after_iff {holds : kind.Data → Prop} {ends : kind.DataCall → Prop}
    (each : ∀ call data,
      holds ((kind.operation.apply call data).toOption.getD data) ↔ holds data ∧ ¬ ends call)
    (transaction : Transaction kind) (actions : List (Action kind)) :
    holds (transaction.after actions).body.data ↔
      holds transaction.body.data ∧ ∀ before action later,
        actions = before ++ action :: later → ¬ (transaction.after before).Meets ends action := by
  -- A property of the data that is ended by some calls and is not changed by others.
  exact holds_data_foldl_iff (·.body.data) isFrozen (fun call => Action.call (.data call))
    (fun _ _ same => by simpa using same) each (fun _ call unfrozen => data_step_call unfrozen call)
    (fun _ _ other => data_step_of_not_call other) transaction actions

end Transaction

namespace Query

variable {kind : QueryKind}

theorem data_step_call {query : Query kind} (unfrozen : query.isFrozen = false)
    (call : kind.DataCall) :
    (query.step (.call (.data call))).body.data =
      (kind.operation.apply call query.body.data).toOption.getD query.body.data := by
  rw [step, Query.call, unfrozen, applyCall]
  cases kind.operation.apply call query.body.data <;> rfl

theorem data_step_of_not_call {query : Query kind} {action : Action kind}
    (other : ∀ call, action = .call (.data call) → query.isFrozen = true) :
    (query.step action).body.data = query.body.data := by
  cases action with
  | call call =>
    rcases query.step_call_cases call with same | ⟨unfrozen, body, applied, changed⟩
    · rw [same]
    · rw [changed]
      cases call with
      | data call => exact absurd (other call rfl) (Bool.eq_false_iff.mp unfrozen)
      | _ =>
        obtain ⟨payment, -, applied⟩ := Except.bind_eq_ok applied
        cases applied
        rfl
  | freeze => rfl
  | write => rfl
  | execute client timeout => rfl
  | cost client => rfl

def Meets (calls : kind.DataCall → Prop) (query : Query kind) (action : Action kind) : Prop :=
  query.isFrozen = false ∧ ∃ call, action = .call (.data call) ∧ calls call

theorem holds_data_after_iff {holds : kind.Data → Prop} {ends : kind.DataCall → Prop}
    (each : ∀ call data,
      holds ((kind.operation.apply call data).toOption.getD data) ↔ holds data ∧ ¬ ends call)
    (query : Query kind) (actions : List (Action kind)) :
    holds (query.after actions).body.data ↔
      holds query.body.data ∧ ∀ before action later,
        actions = before ++ action :: later → ¬ (query.after before).Meets ends action := by
  exact holds_data_foldl_iff (·.body.data) isFrozen (fun call => Action.call (.data call))
    (fun _ _ same => by simpa using same) each (fun _ call unfrozen => data_step_call unfrozen call)
    (fun _ _ other => data_step_of_not_call other) query actions

end Query

namespace ContractUpdate

def HasBothTargets (update : ContractUpdate) : Prop :=
  update.stakedAccount.isSome ∧ update.stakedNode.isSome

def Call.Retargets : Call → Prop
  | setStakedAccount _ | clearStakedAccount | setStakedNode _ | clearStakedNode => True
  | _ => False

theorem hasBothTargets_apply (call : Call) (update : ContractUpdate) :
    ((update.apply call).toOption.getD update).HasBothTargets ↔
      update.HasBothTargets ∧ ¬ call.Retargets := by
  cases call with
  | setAutoRenewPeriod period =>
    rw [apply]
    cases period.checkRenewal <;> simp [Call.Retargets] <;> rfl
  | setStakedAccount account => simp [apply, HasBothTargets, Call.Retargets, Except.toOption]
  | clearStakedAccount => simp [apply, HasBothTargets, Call.Retargets, Except.toOption]
  | setStakedNode node => simp [apply, HasBothTargets, Call.Retargets, Except.toOption]
  | clearStakedNode => simp [apply, HasBothTargets, Call.Retargets, Except.toOption]
  | _ => simp [apply, HasBothTargets, Call.Retargets, Except.toOption]

end ContractUpdate

namespace AccountBalanceQuery

def HasBothTargets (query : AccountBalanceQuery) : Prop :=
  query.account.isSome ∧ query.contract.isSome

theorem hasBothTargets_apply (call : Call) (query : AccountBalanceQuery) :
    ((operation.apply call query).toOption.getD query).HasBothTargets ↔
      query.HasBothTargets ∧ ¬ True := by
  cases call <;> simp [operation, HasBothTargets, Except.toOption]

end AccountBalanceQuery

/-- The envelope has members of both names in the object at the path. -/
def Request.HasBoth (request : Request) (path : List String) (first second : String) : Prop :=
  ∃ json, request.ReadsAs json ∧ valuesAt (path ++ [first]) json ≠ [] ∧
    valuesAt (path ++ [second]) json ≠ []

theorem Attempt.request_hasBoth_iff {σ : Type} (attempt : Attempt) (client : Client σ)
    (first second : String) :
    (attempt.request client).HasBoth attempt.bodyPath first second ↔
      valuesAt [first] (attempt.operation.requestBody client.config) ≠ [] ∧
        valuesAt [second] (attempt.operation.requestBody client.config) ≠ [] := by
  have read := attempt.request_readsAs client
  have there (name : String) :
      valuesAt (attempt.bodyPath ++ [name])
          ((attempt.envelopeJson client.config).upTo Json.maxDepth) ≠ [] ↔
        valuesAt [name] (attempt.operation.requestBody client.config) ≠ [] :=
    not_congr (attempt.valuesAt_read_eq_nil_iff (by simp))
  rw [← there first, ← there second]
  constructor
  · rintro ⟨json, reads, both⟩
    exact reads.unique read ▸ both
  · intro both
    exact ⟨_, read, both⟩

theorem Option.toList_map_ne_nil_iff {α β : Type} {field : Option α} {f : α → β} :
    (field.map f).toList ≠ [] ↔ field.isSome := by
  cases field <;> simp

theorem Transaction.requestBody_hasBoth_iff (transaction : Transaction .contractUpdate)
    (config : ClientConfig) :
    valuesAt ["stakedAccountId"] (Operation.requestBody config (.transaction transaction)) ≠ [] ∧
        valuesAt ["stakedNodeId"] (Operation.requestBody config (.transaction transaction)) ≠ [] ↔
      ContractUpdate.HasBothTargets transaction.body.data := by
  let update : ContractUpdate := transaction.body.data
  have account : valuesAt ["stakedAccountId"] (transaction.body.withDefaults config).encode =
      (update.stakedAccount.map AccountId.codec.encode).toList :=
    TransactionBody.valuesAt_encode _ (List.mem_append_left _ (List.mem_of_getElem? (i := 8) rfl))
  have node : valuesAt ["stakedNodeId"] (transaction.body.withDefaults config).encode =
      (update.stakedNode.map Codec.uint64.encode).toList :=
    TransactionBody.valuesAt_encode _ (List.mem_append_left _ (List.mem_of_getElem? (i := 9) rfl))
  rw [Operation.requestBody, account, node]
  exact and_congr Option.toList_map_ne_nil_iff Option.toList_map_ne_nil_iff

theorem Query.requestBody_hasBoth_iff (query : Query .accountBalance) (config : ClientConfig) :
    valuesAt ["accountId"] (Operation.requestBody config (.query query)) ≠ [] ∧
        valuesAt ["contractId"] (Operation.requestBody config (.query query)) ≠ [] ↔
      AccountBalanceQuery.HasBothTargets query.body.data := by
  let balance : AccountBalanceQuery := query.body.data
  have account : valuesAt ["accountId"] (query.body.withDefaults config).encode =
      (balance.account.map AccountId.codec.encode).toList :=
    QueryBody.valuesAt_encode _ (List.mem_append_left _ (List.mem_of_getElem? (i := 0) rfl))
  have contract : valuesAt ["contractId"] (query.body.withDefaults config).encode =
      (balance.contract.map EntityId.codec.encode).toList :=
    QueryBody.valuesAt_encode _ (List.mem_append_left _ (List.mem_of_getElem? (i := 1) rfl))
  rw [Operation.requestBody, account, contract]
  exact and_congr Option.toList_map_ne_nil_iff Option.toList_map_ne_nil_iff

/-- No action of a run sets or clears a target while the transaction can be changed. -/
def Transaction.KeepsTargets (start : Transaction .contractUpdate)
    (actions : List (Transaction.Action .contractUpdate)) : Prop :=
  ∀ before action later, actions = before ++ action :: later →
    ¬ @Meets .contractUpdate ContractUpdate.Call.Retargets (start.after before) action

/-- No action of a run sets a target while the query can be changed; all calls on the data do. -/
def Query.KeepsTargets (start : Query .accountBalance)
    (actions : List (Query.Action .accountBalance)) : Prop :=
  ∀ before action later, actions = before ++ action :: later →
    ¬ (start.after before).Meets (fun _ => True) action

theorem Transaction.hasBothTargets_after_iff (start : Transaction .contractUpdate)
    (actions : List (Transaction.Action .contractUpdate)) :
    ContractUpdate.HasBothTargets (start.after actions).body.data ↔
      ContractUpdate.HasBothTargets start.body.data ∧ start.KeepsTargets actions :=
  @holds_data_after_iff .contractUpdate ContractUpdate.HasBothTargets ContractUpdate.Call.Retargets
    ContractUpdate.hasBothTargets_apply start actions

theorem Query.hasBothTargets_after_iff (start : Query .accountBalance)
    (actions : List (Query.Action .accountBalance)) :
    AccountBalanceQuery.HasBothTargets (start.after actions).body.data ↔
      AccountBalanceQuery.HasBothTargets start.body.data ∧ start.KeepsTargets actions :=
  @holds_data_after_iff .accountBalance AccountBalanceQuery.HasBothTargets (fun _ => True)
    AccountBalanceQuery.hasBothTargets_apply start actions

/-- A request has both targets exactly if the operation had both before any call, and no call has set
or cleared one since. New operations have none, so that the two come from an envelope. -/
theorem both_targets_sent_iff {σ : Type} (client : Client σ) (timeout : Option Duration) :
    (∀ (start : Transaction .contractUpdate) (actions : List (Transaction.Action .contractUpdate)),
      ∀ request ∈ (Attempt.execute (.transaction (start.after actions)) timeout).submitted client,
        (request.HasBoth ["contractUpdate"] "stakedAccountId" "stakedNodeId" ↔
          ContractUpdate.HasBothTargets start.body.data ∧ start.KeepsTargets actions)) ∧
    (∀ (start : Query .accountBalance) (actions : List (Query.Action .accountBalance)),
      (∀ request ∈ (Attempt.execute (.query (start.after actions)) timeout).submitted client,
        (request.HasBoth ["accountBalance"] "accountId" "contractId" ↔
          AccountBalanceQuery.HasBothTargets start.body.data ∧ start.KeepsTargets actions)) ∧
      ∀ request ∈ (Attempt.cost (start.after actions)).submitted client,
        (request.HasBoth ["queryCost", "query", "accountBalance"] "accountId" "contractId" ↔
          AccountBalanceQuery.HasBothTargets start.body.data ∧ start.KeepsTargets actions)) ∧
    ¬ ContractUpdate.HasBothTargets (Transaction.new : Transaction .contractUpdate).body.data ∧
    ¬ AccountBalanceQuery.HasBothTargets (Query.new : Query .accountBalance).body.data := by
  refine ⟨?_, ?_, ?_, ?_⟩
  · intro start actions request sent
    obtain ⟨rfl, -⟩ := Attempt.mem_submitted sent
    rw [← Transaction.hasBothTargets_after_iff, ← Transaction.requestBody_hasBoth_iff _ client.config]
    exact Attempt.request_hasBoth_iff _ client _ _
  · intro start actions
    rw [← Query.hasBothTargets_after_iff, ← Query.requestBody_hasBoth_iff _ client.config]
    constructor
    · intro request sent
      obtain ⟨rfl, -⟩ := Attempt.mem_submitted sent
      exact Attempt.request_hasBoth_iff _ client _ _
    · intro request sent
      obtain ⟨rfl, -⟩ := Attempt.mem_submitted sent
      exact Attempt.request_hasBoth_iff _ client _ _
  · rintro ⟨account, -⟩
    cases account
  · rintro ⟨account, -⟩
    cases account

/-- An update by which a contract stakes to account 5 and to node 3. -/
def stakedTwice : Transaction .contractUpdate :=
  { body := { data := { stakedAccount := some (.ofNum 5), stakedNode := some 3 : ContractUpdate } } }

theorem both_targets_sent_iff_stakedTwice :
    ∃ request ∈ (Attempt.execute (.transaction (stakedTwice.after [.freeze])) none).submitted
        (Client.answering .accepted),
      request.HasBoth ["contractUpdate"] "stakedAccountId" "stakedNodeId" := by
  have sent : (Attempt.execute (.transaction (stakedTwice.after [.freeze])) none).request
      (Client.answering .accepted) ∈ _ := Attempt.request_mem_submitted (by decide +kernel)
  have kept : stakedTwice.KeepsTargets [.freeze] := by
    rintro before action later split ⟨-, call, rfl, -⟩
    rcases List.cons_eq_append_iff.mp split with ⟨-, same⟩ | ⟨others, -, same⟩
    · cases same
    · simp at same
  exact ⟨_, sent, ((both_targets_sent_iff _ none).1 stakedTwice [.freeze] _ sent).mpr
    ⟨⟨rfl, rfl⟩, kept⟩⟩

def stakedTwiceText : String :=
  "\x7b\"contractUpdate\":\x7b\"stakedAccountId\":\"0.0.5\",\"stakedNodeId\":3\x7d\x7d"

theorem ofEnvelope_stakedTwiceText : Transaction.ofEnvelope stakedTwiceText = .ok stakedTwice := by
  have text : stakedTwiceText = stakedTwice.envelope := by decide +kernel
  have sound : stakedTwice.body.Sound := ⟨⟨nofun, nofun, nofun⟩, nofun⟩
  rw [text]
  exact Transaction.ofEnvelope_envelope sound (by decide) (by decide) (by decide +kernel)

def askedTwice : Query .accountBalance :=
  { body := { data := { account := some (.ofNum 5), contract := some (.ofNum 6) } } }

def askedTwiceText : String :=
  "\x7b\"accountBalance\":\x7b\"accountId\":\"0.0.5\",\"contractId\":\"0.0.6\"," ++
    "\"payment\":\x7b\x7d\x7d\x7d"

theorem ofEnvelope_askedTwiceText : Query.ofEnvelope askedTwiceText = .ok askedTwice := by
  have text : askedTwiceText = askedTwice.envelope := by decide +kernel
  rw [text]
  exact Query.ofEnvelope_envelope nofun (by decide) (by decide +kernel)

/-- An update that is read with both targets reaches the engine with both, and so does a query for a
balance inside the request for its cost. -/
theorem both_targets_sent :
    (∃ start : Transaction .contractUpdate, Transaction.ofEnvelope stakedTwiceText = .ok start ∧
      ∃ request ∈ (Attempt.execute (.transaction start) none).submitted (Client.answering .accepted),
        request.HasBoth ["contractUpdate"] "stakedAccountId" "stakedNodeId") ∧
    ∃ start : Query .accountBalance, Query.ofEnvelope askedTwiceText = .ok start ∧
      ∃ request ∈ (Attempt.cost start).submitted (Client.answering .accepted),
        request.HasBoth ["queryCost", "query", "accountBalance"] "accountId" "contractId" := by
  constructor
  · refine ⟨stakedTwice, ofEnvelope_stakedTwiceText, _,
      Attempt.request_mem_submitted (by decide +kernel), ?_⟩
    exact (Attempt.request_hasBoth_iff _ _ _ _).mpr
      ((stakedTwice.requestBody_hasBoth_iff _).mpr ⟨rfl, rfl⟩)
  · refine ⟨askedTwice, ofEnvelope_askedTwiceText, _,
      Attempt.request_mem_submitted (by decide +kernel), ?_⟩
    exact (Attempt.request_hasBoth_iff _ _ _ _).mpr
      ((askedTwice.requestBody_hasBoth_iff _).mpr ⟨rfl, rfl⟩)

end LedgerClient
