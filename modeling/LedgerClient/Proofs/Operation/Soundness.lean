import LedgerClient.Proofs.Operation.Freezing
import LedgerClient.Proofs.Operation.Records

/-! What callers can reach. Every span of time in an operation that was made or read, and then
changed by any calls, is a whole number of seconds, and all thresholds of its keys are in their
range, as long as the keys given to the calls were made by the library. -/

namespace LedgerClient

namespace Duration

theorem whole_of_checkWhole {span : Duration} {subject : String}
    (h : span.checkWhole subject = .ok ()) : span.isWholeSeconds = true := by
  rcases span.checkWhole_cases subject with ⟨-, whole⟩ | ⟨refused, -⟩
  · exact beq_iff_eq.mpr whole
  · rw [refused] at h
    cases h

theorem whole_of_checkValid {span : Duration} (h : span.checkValid = .ok ()) :
    span.isWholeSeconds = true := by
  obtain ⟨_, whole, -⟩ := Except.bind_eq_ok h
  exact whole_of_checkWhole whole

theorem whole_of_read {field : Option Duration}
    (read : ∀ span, field = some span → ∃ json, codec.decode json = .ok span) :
    ∀ span, field = some span → span.isWholeSeconds = true := by
  intro span set
  obtain ⟨json, decoded⟩ := read span set
  obtain ⟨seconds, -, rfl⟩ := Except.map_eq_ok decoded
  rfl

end Duration

def TransactionKind.keyOf : (kind : TransactionKind) → kind.DataCall → Option Key
  | .contractUpdate, ContractUpdate.Call.setAdminKey key => some key
  | .topicCreate, TopicCreate.Call.setAdminKey key => some key
  | .topicCreate, TopicCreate.Call.setSubmitKey key => some key
  | .topicUpdate, TopicUpdate.Call.setAdminKey key => some key
  | .topicUpdate, TopicUpdate.Call.setSubmitKey key => some key
  | _, _ => none

namespace TransactionKind

theorem Parts.Sound.setAutoRenewPeriod {parts : Parts} {period : Duration} {subject : String}
    (before : parts.Sound) (checked : period.checkWhole subject = .ok ()) :
    Sound { parts with autoRenewPeriod := some period } :=
  { before with
    autoRenewPeriod := fun _ same => Option.some.inj same ▸ Duration.whole_of_checkWhole checked }

theorem sound_new (kind : TransactionKind) : kind.Sound kind.operation.new := by
  cases kind with
  | topicCreate => exact ⟨nofun, nofun, fun _ same => Option.some.inj same ▸ rfl⟩
  | _ => exact ⟨nofun, nofun, nofun⟩

theorem sound_apply {kind : TransactionKind} {call : kind.DataCall} {data next : kind.Data}
    (before : kind.Sound data) (keys : ∀ key, kind.keyOf call = some key → key.WellFormed)
    (h : kind.operation.apply call data = .ok next) : kind.Sound next := by
  cases kind with
  | contractUpdate =>
    cases call with
    | setAdminKey key =>
      cases h
      exact { before with adminKey := keys }
    | setAutoRenewPeriod period =>
      obtain ⟨_, checked, h⟩ := Except.bind_eq_ok h
      cases h
      exact before.setAutoRenewPeriod checked
    | _ =>
      cases h
      exact before
  | topicCreate =>
    cases call with
    | setAdminKey key =>
      cases h
      exact { before with adminKey := keys }
    | setSubmitKey key =>
      cases h
      exact { before with submitKey := keys }
    | setAutoRenewPeriod period =>
      obtain ⟨_, checked, h⟩ := Except.bind_eq_ok h
      cases h
      exact before.setAutoRenewPeriod checked
    | _ =>
      cases h
      exact before
  | topicUpdate =>
    cases call with
    | setAdminKey key =>
      cases h
      exact { before with adminKey := keys }
    | clearAdminKey =>
      cases h
      exact { before with adminKey := nofun }
    | setSubmitKey key =>
      cases h
      exact { before with submitKey := keys }
    | clearSubmitKey =>
      cases h
      exact { before with submitKey := nofun }
    | setAutoRenewPeriod period =>
      obtain ⟨_, checked, h⟩ := Except.bind_eq_ok h
      cases h
      exact before.setAutoRenewPeriod checked
    | _ =>
      cases h
      exact before
  | _ => exact ⟨nofun, nofun, nofun⟩

section

variable {α β : Type} {parts : α → Parts} {name : String}

theorem wellFormed_of_read {field : Option Key}
    (read : ∀ key, field = some key → ∃ json, Key.codec.decode json = .ok key) :
    ∀ key, field = some key → key.WellFormed := by
  intro key set
  obtain ⟨json, decoded⟩ := read key set
  exact Key.decodeUpTo_wellFormed decoded

theorem preserves_rest {slot : Slot α} {codec : Codec β} {set : β → α → α}
    (reads : slot.read = Slot.reader codec set) (same : ∀ b data, parts (set b data) = parts data) :
    slot.Preserves fun data => (parts data).Sound :=
  Slot.preserves_reader reads fun _ b data _ before => (same b data).symm ▸ before

theorem preserves_adminKey {get : α → Option Key} {set : Option Key → α → α}
    (puts : ∀ key data, parts (set key data) = { parts data with adminKey := key }) :
    (Slot.optional name Key.codec get set).Preserves fun data => (parts data).Sound :=
  Slot.preserves_optional fun key data read before =>
    (puts key data).symm ▸ { before with adminKey := wellFormed_of_read read }

theorem preserves_submitKey {get : α → Option Key} {set : Option Key → α → α}
    (puts : ∀ key data, parts (set key data) = { parts data with submitKey := key }) :
    (Slot.optional name Key.codec get set).Preserves fun data => (parts data).Sound :=
  Slot.preserves_optional fun key data read before =>
    (puts key data).symm ▸ { before with submitKey := wellFormed_of_read read }

theorem preserves_autoRenewPeriod {get : α → Option Duration} {set : Option Duration → α → α}
    (puts : ∀ span data, parts (set span data) = { parts data with autoRenewPeriod := span }) :
    (Slot.optional name Duration.codec get set).Preserves fun data => (parts data).Sound :=
  Slot.preserves_optional fun span data read before =>
    (puts span data).symm ▸ { before with autoRenewPeriod := Duration.whole_of_read read }

end

theorem sound_of_decode {kind : TransactionKind} {members : List (String × Json)}
    {ending : Json.Ending} {data : kind.Data}
    (h : kind.operation.record.decodeMembers members ending = .ok data) : kind.Sound data := by
  have initial : kind.Sound kind.operation.record.initial := by
    cases kind <;> exact ⟨nofun, nofun, nofun⟩
  have kept : ∀ slot ∈ kind.operation.record.slots, slot.Preserves kind.Sound := by
    cases kind with
    | contractUpdate =>
      refine List.forall_iff_forall_mem.mp ⟨?_, ?_, preserves_adminKey fun _ _ => rfl,
        preserves_autoRenewPeriod fun _ _ => rfl, ?_, ?_, ?_, ?_, ?_, ?_, ?_⟩
      all_goals exact preserves_rest rfl fun _ _ => rfl
    | topicCreate =>
      refine List.forall_iff_forall_mem.mp ⟨?_, preserves_adminKey fun _ _ => rfl,
        preserves_submitKey fun _ _ => rfl, preserves_autoRenewPeriod fun _ _ => rfl, ?_⟩
      all_goals exact preserves_rest rfl fun _ _ => rfl
    | topicUpdate =>
      refine List.forall_iff_forall_mem.mp ⟨?_, ?_, ?_, preserves_adminKey fun _ _ => rfl,
        preserves_submitKey fun _ _ => rfl, preserves_autoRenewPeriod fun _ _ => rfl, ?_⟩
      all_goals exact preserves_rest rfl fun _ _ => rfl
    | _ => exact fun _ _ _ _ _ _ _ => ⟨nofun, nofun, nofun⟩
  exact Record.decodeMembers_preserves kept initial h

end TransactionKind

theorem Envelope.exists_body_of_decode {α : Type} {kind text : String}
    {decodeBody : Json → Decoded α} {value : α} (h : decode kind decodeBody text = .ok value) :
    ∃ json, decodeBody json = .ok value := by
  obtain ⟨json, -, h⟩ := Except.bind_eq_ok h
  refine ⟨json, ?_⟩
  split at h
  · next read =>
    cases h
    exact read
  · cases h

namespace TransactionBody

variable {kind : TransactionKind}

/-- What holds of the body of every transaction that callers can reach. -/
structure Sound (body : TransactionBody kind) : Prop where
  data : kind.Sound body.data
  validDuration : ∀ span, body.validDuration = some span → span.isWholeSeconds = true

theorem sound_of_decode {json : Json} {body : TransactionBody kind} (h : decode json = .ok body) :
    body.Sound := by
  cases json with
  | object members ending =>
    obtain ⟨shared, readShared, h⟩ := Except.bind_eq_ok h
    obtain ⟨data, readData, h⟩ := Except.bind_eq_ok h
    cases h
    have kept : ∀ slot ∈ common.slots, slot.Preserves fun body : TransactionBody kind =>
        ∀ span, body.validDuration = some span → span.isWholeSeconds = true :=
      List.forall_iff_forall_mem.mp
        ⟨Slot.preserves_optional fun _ _ _ before => before,
          Slot.preserves_optional fun _ _ _ before => before,
          Slot.preserves_optional fun _ _ _ before => before,
          Slot.preserves_reader rfl fun _ _ _ _ before => before,
          Slot.preserves_optional fun _ _ read _ => Duration.whole_of_read read⟩
    have whole := Record.decodeMembers_preserves kept nofun readShared
    exact ⟨TransactionKind.sound_of_decode readData, whole⟩
  | _ => cases h

end TransactionBody

namespace Transaction

variable {kind : TransactionKind}

def Call.key : Call kind → Option Key
  | .data call => kind.keyOf call
  | _ => none

def Action.key : Action kind → Option Key
  | .call c => c.key
  | _ => none

/-- The transactions that callers can reach: a new one or one that was read, changed by any actions
whose keys were made by the library. -/
inductive Reachable : Transaction kind → Prop
  | new : Reachable Transaction.new
  | read {text : String} {transaction : Transaction kind} (h : ofEnvelope text = .ok transaction) :
    Reachable transaction
  | step {transaction : Transaction kind} (reached : Reachable transaction) (action : Action kind)
    (keys : ∀ key, action.key = some key → key.Built) : Reachable (transaction.step action)

theorem sound_applyCall {body next : TransactionBody kind} {call : Call kind}
    (before : body.Sound) (keys : ∀ key, call.key = some key → key.WellFormed)
    (h : applyCall body call = .ok next) : next.Sound := by
  cases call with
  | data call =>
    obtain ⟨data, applied, h⟩ := Except.bind_eq_ok h
    cases h
    exact { before with data := TransactionKind.sound_apply before.data keys applied }
  | setValidDuration span =>
    obtain ⟨_, checked, h⟩ := Except.bind_eq_ok h
    cases h
    have whole := Duration.whole_of_checkValid checked
    exact { before with validDuration := fun _ same => Option.some.inj same ▸ whole }
  | _ =>
    cases h
    exact { before with }

theorem sound_step {transaction : Transaction kind} (before : transaction.body.Sound)
    {action : Action kind} (keys : ∀ key, action.key = some key → key.WellFormed) :
    (transaction.step action).body.Sound := by
  cases action with
  | call call =>
    rcases transaction.step_call_cases call with same | ⟨-, body, applied, changed⟩
    · rw [same]
      exact before
    · rw [changed]
      exact sound_applyCall before keys applied
  | sign signer => exact before
  | freeze => exact before
  | write => exact before
  | execute client timeout =>
    rcases transaction.execute_cases client timeout with frozen | ⟨response, -, completed⟩
    · rw [step, frozen]
      exact before
    · rw [step, completed]
      exact { before with }

theorem Reachable.sound {transaction : Transaction kind} (h : transaction.Reachable) :
    transaction.body.Sound := by
  induction h with
  | new => exact ⟨kind.sound_new, nofun⟩
  | read h =>
    obtain ⟨body, decoded, h⟩ := Except.bind_eq_ok h
    cases h
    obtain ⟨json, decoded⟩ := Envelope.exists_body_of_decode decoded
    exact TransactionBody.sound_of_decode decoded
  | step _ action keys ih => exact sound_step ih fun key set => (keys key set).wellFormed

theorem Reachable.after {transaction : Transaction kind} (reached : transaction.Reachable)
    {actions : List (Action kind)}
    (keys : ∀ action ∈ actions, ∀ key, action.key = some key → key.Built) :
    (transaction.after actions).Reachable := by
  induction actions generalizing transaction with
  | nil => exact reached
  | cons action rest ih =>
    have next := reached.step action (keys action List.mem_cons_self)
    exact ih next fun other ho => keys other (List.mem_cons_of_mem action ho)

end Transaction

theorem Payment.whole_of_decode {json : Json} {payment : Payment}
    (h : codec.decode json = .ok payment) :
    ∀ span, payment.validDuration = some span → span.isWholeSeconds = true := by
  have kept : ∀ slot ∈ record.slots, slot.Preserves fun payment : Payment =>
      ∀ span, payment.validDuration = some span → span.isWholeSeconds = true := by
    refine List.forall_iff_forall_mem.mp ⟨?_, ?_, ?_, ?_, ?_, ?_, ?_, ?span⟩
    case span => exact Slot.preserves_optional fun _ _ read _ => Duration.whole_of_read read
    all_goals exact Slot.preserves_optional fun _ _ _ before => before
  exact Record.decode_preserves kept nofun h

namespace QueryBody

variable {kind : QueryKind}

def Sound (body : QueryBody kind) : Prop :=
  ∀ span, body.payment.validDuration = some span → span.isWholeSeconds = true

theorem sound_of_decode {json : Json} {body : QueryBody kind} (h : decode json = .ok body) :
    body.Sound := by
  cases json with
  | object members ending =>
    obtain ⟨shared, readShared, h⟩ := Except.bind_eq_ok h
    obtain ⟨data, -, h⟩ := Except.bind_eq_ok h
    cases h
    have kept : ∀ slot ∈ common.slots, slot.Preserves (Sound : QueryBody kind → Prop) :=
      List.forall_iff_forall_mem.mp
        (Slot.preserves_reader rfl fun _ _ _ decoded _ => Payment.whole_of_decode decoded)
    have sound : shared.Sound := Record.decodeMembers_preserves kept nofun readShared
    exact sound
  | _ => cases h

end QueryBody

namespace Query

variable {kind : QueryKind}

inductive Reachable : Query kind → Prop
  | new : Reachable Query.new
  | read {text : String} {query : Query kind} (h : ofEnvelope text = .ok query) : Reachable query
  | step {query : Query kind} (reached : Reachable query) (action : Action kind) :
    Reachable (query.step action)

theorem sound_applyCall {body next : QueryBody kind} {call : Call kind} (before : body.Sound)
    (h : applyCall body call = .ok next) : next.Sound := by
  cases call with
  | data call =>
    obtain ⟨data, -, h⟩ := Except.bind_eq_ok h
    cases h
    exact before
  | setValidDuration span =>
    obtain ⟨payment, set, h⟩ := Except.bind_eq_ok h
    obtain ⟨_, checked, set⟩ := Except.bind_eq_ok set
    cases set
    cases h
    have whole := Duration.whole_of_checkValid checked
    exact fun _ same => Option.some.inj same ▸ whole
  | _ =>
    cases h
    exact before

theorem sound_step {query : Query kind} (before : query.body.Sound) (action : Action kind) :
    (query.step action).body.Sound := by
  cases action with
  | call call =>
    rcases query.step_call_cases call with same | ⟨-, body, applied, changed⟩
    · rw [same]
      exact before
    · rw [changed]
      exact sound_applyCall before applied
  | freeze => exact before
  | write => exact before
  | execute client timeout => exact before
  | cost client => exact before

theorem Reachable.sound {query : Query kind} (h : query.Reachable) : query.body.Sound := by
  induction h with
  | new => exact nofun
  | read h =>
    obtain ⟨body, decoded, h⟩ := Except.bind_eq_ok h
    cases h
    obtain ⟨json, decoded⟩ := Envelope.exists_body_of_decode decoded
    exact QueryBody.sound_of_decode decoded
  | step _ action ih => exact sound_step ih action

theorem Reachable.after {query : Query kind} (reached : query.Reachable)
    (actions : List (Action kind)) : (query.after actions).Reachable := by
  induction actions generalizing query with
  | nil => exact reached
  | cons action rest ih => exact ih (reached.step action)

end Query

def Operation.Reachable : Operation → Prop
  | transaction t => t.Reachable
  | query q => q.Reachable

end LedgerClient
