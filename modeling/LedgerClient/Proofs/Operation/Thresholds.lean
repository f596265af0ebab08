import LedgerClient.Proofs.Key.Refusal
import LedgerClient.Proofs.Operation.Soundness

/-! The thresholds of all key lists that callers come by: lists they build and change, lists that are
decoded, and lists inside keys, operations and responses. A threshold is there only in its range, and
one that is not in its range is refused. -/

namespace LedgerClient

namespace KeyList

inductive Call where
  | push (key : Key)
  | setThreshold (threshold : Option UInt32)

def call (list : KeyList) : Call → Except LedgerError KeyList
  | .push key => .ok (list.push key)
  | .setThreshold threshold => list.setThreshold threshold

def step (list : KeyList) (call : Call) : KeyList :=
  match list.call call with
  | .ok next => next
  | .error _ => list

theorem wellFormed_step {list : KeyList} (h : list.toKey.WellFormed) {call : Call}
    (keys : ∀ key, call = .push key → key.WellFormed) : (list.step call).toKey.WellFormed := by
  cases call with
  | push key => exact wellFormed_push h (keys key rfl)
  | setThreshold threshold =>
    cases set : list.setThreshold threshold with
    | ok changed =>
      have next : list.step (.setThreshold threshold) = changed := by rw [step, call, set]
      rw [next]
      exact wellFormed_setThreshold h set
    | error cause =>
      have same : list.step (.setThreshold threshold) = list := by rw [step, call, set]
      rw [same]
      exact h

end KeyList

def TransactionKind.keys : (kind : TransactionKind) → kind.Data → List Key
  | .contractUpdate, update => (ContractUpdate.adminKey update).toList
  | .topicCreate, create =>
    (TopicCreate.adminKey create).toList ++ (TopicCreate.submitKey create).toList
  | .topicUpdate, update =>
    (TopicUpdate.adminKey update).toList ++ (TopicUpdate.submitKey update).toList
  | _, _ => []

theorem TransactionKind.wellFormed_of_mem_keys {kind : TransactionKind} {data : kind.Data}
    (sound : kind.Sound data) {key : Key} (hk : key ∈ kind.keys data) : key.WellFormed := by
  cases kind with
  | contractUpdate => exact sound.adminKey key (Option.mem_toList.mp hk)
  | topicCreate =>
    rcases List.mem_append.mp hk with hk | hk
    · exact sound.adminKey key (Option.mem_toList.mp hk)
    · exact sound.submitKey key (Option.mem_toList.mp hk)
  | topicUpdate =>
    rcases List.mem_append.mp hk with hk | hk
    · exact sound.adminKey key (Option.mem_toList.mp hk)
    · exact sound.submitKey key (Option.mem_toList.mp hk)
  | _ => cases hk

theorem AccountInfo.wellFormed_of_decode {json : Json} {info : AccountInfo}
    (h : codec.decode json = .ok info) : ∀ key, info.key = some key → key.WellFormed := by
  have kept : ∀ slot ∈ record.slots, slot.Preserves fun info : AccountInfo =>
      ∀ key, info.key = some key → key.WellFormed := by
    refine List.forall_iff_forall_mem.mp ⟨?_, ?_, ?_, ?_, ?_, ?key, ?_, ?_, ?_, ?_, ?_, ?_, ?_, ?_,
      ?_, ?_⟩
    case key =>
      refine Slot.preserves_reader rfl ?_
      intro json field _ decoded _ key set
      have field : field = some key := set
      subst field
      exact Key.decodeUpTo_wellFormed (Codec.decode_of_optional decoded)
    all_goals exact Slot.preserves_reader rfl fun _ _ _ _ before => before
  exact Record.decode_preserves kept nofun h

mutual

inductive Key.Obtained : Key → Prop
  | single (key : PublicKey) : Key.Obtained (.single key)
  | contract (id : ContractId) : Key.Obtained (.contract id)
  | delegatableContract (id : ContractId) : Key.Obtained (.delegatableContract id)
  | list {list : KeyList} (h : KeyList.Obtained list) : Key.Obtained list.toKey
  | item {list : KeyList} {key : Key} (h : KeyList.Obtained list) (hk : key ∈ list.keys) :
    Key.Obtained key
  | decoded {json : Json} {key : Key} (h : Key.codec.decode json = .ok key) : Key.Obtained key
  | operation {kind : TransactionKind} {transaction : Transaction kind} {key : Key}
    (h : Transaction.Obtained kind transaction) (hk : key ∈ kind.keys transaction.body.data) :
    Key.Obtained key
  | response {json : Json} {info : AccountInfo} {key : Key}
    (h : AccountInfo.codec.decode json = .ok info) (hk : info.key = some key) : Key.Obtained key

inductive KeyList.Obtained : KeyList → Prop
  | new : KeyList.Obtained .empty
  | ofKeys {keys : List Key} (all : ∀ key ∈ keys, Key.Obtained key) :
    KeyList.Obtained (.ofKeys keys)
  | withThreshold {keys : List Key} {threshold : UInt32} {list : KeyList}
    (all : ∀ key ∈ keys, Key.Obtained key)
    (h : KeyList.withThreshold keys threshold = .ok list) : KeyList.Obtained list
  | step {list : KeyList} (obtained : KeyList.Obtained list) (call : KeyList.Call)
    (keys : ∀ key, call = .push key → Key.Obtained key) : KeyList.Obtained (list.step call)
  | decoded {json : Json} {list : KeyList} (h : KeyList.codec.decode json = .ok list) :
    KeyList.Obtained list
  | ofKey {keys : List Key} {threshold : Option UInt32} (h : Key.Obtained (.list keys threshold)) :
    KeyList.Obtained ⟨keys, threshold⟩

inductive Transaction.Obtained : (kind : TransactionKind) → Transaction kind → Prop
  | new {kind : TransactionKind} : Transaction.Obtained kind .new
  | read {kind : TransactionKind} {text : String} {transaction : Transaction kind}
    (h : Transaction.ofEnvelope text = .ok transaction) : Transaction.Obtained kind transaction
  | step {kind : TransactionKind} {transaction : Transaction kind}
    (obtained : Transaction.Obtained kind transaction) (action : Transaction.Action kind)
    (keys : ∀ key, action.key = some key → Key.Obtained key) :
    Transaction.Obtained kind (transaction.step action)

end

mutual

theorem Key.Obtained.wellFormed {key : Key} : key.Obtained → key.WellFormed
  | .single key => .single key
  | .contract id => .contract id
  | .delegatableContract id => .delegatableContract id
  | .list obtained => obtained.wellFormed
  | .item obtained hk => by
    cases obtained.wellFormed with
    | list all _ => exact all _ hk
  | .decoded h => Key.decodeUpTo_wellFormed h
  | .operation obtained hk => TransactionKind.wellFormed_of_mem_keys obtained.sound.data hk
  | .response h hk => AccountInfo.wellFormed_of_decode h _ hk

theorem KeyList.Obtained.wellFormed {list : KeyList} : list.Obtained → list.toKey.WellFormed
  | .new => KeyList.wellFormed_ofKeys nofun
  | .ofKeys all => KeyList.wellFormed_ofKeys fun key hk => (all key hk).wellFormed
  | .withThreshold all h =>
    KeyList.wellFormed_setThreshold
      (KeyList.wellFormed_ofKeys fun key hk => (all key hk).wellFormed) h
  | .step obtained _ keys =>
    KeyList.wellFormed_step obtained.wellFormed fun key same => (keys key same).wellFormed
  | .decoded h => Key.decodeList_wellFormed (fun _ _ => Key.decodeUpTo_wellFormed) h
  | .ofKey obtained => obtained.wellFormed

theorem Transaction.Obtained.sound {kind : TransactionKind} {transaction : Transaction kind} :
    Transaction.Obtained kind transaction → transaction.body.Sound
  | .new => Transaction.Reachable.sound .new
  | .read h => Transaction.Reachable.sound (.read h)
  | .step obtained _ keys =>
    Transaction.sound_step obtained.sound fun key set => (keys key set).wellFormed

end

/-- What holds of thresholds. In all lists that callers come by, at any depth, they are in their range.
One that is set is refused exactly if it is not in its range, and the list stays as it is. Decoding
what can be read without the check is refused exactly if some threshold in it is not in its range, and
it never refuses one that is. -/
structure KeyList.ThresholdLaws : Prop where
  inRange : ∀ key : Key, key.Obtained → ∀ list, key.Holds list → list.Valid
  withThreshold : ∀ (keys : List Key) (threshold : UInt32), KeyList.withThreshold keys threshold =
    if InRange threshold keys.length then .ok ⟨keys, some threshold⟩
    else .error (.invalidKeyList threshold keys.length)
  setThreshold : ∀ (list : KeyList) (threshold : UInt32), list.setThreshold (some threshold) =
    if InRange threshold list.size then .ok { list with threshold := some threshold }
    else .error (.invalidKeyList threshold list.size)
  unchanged : ∀ (list : KeyList) (threshold : UInt32), ¬ InRange threshold list.size →
    list.step (.setThreshold (some threshold)) = list
  decodeKey : ∀ json key, Key.readUnchecked json = .ok key →
    (Key.codec.decode json = .ok key ∧ ∀ list, key.Holds list → list.Valid) ∨
      ∃ fault, key.RefusedFor fault ∧ Key.codec.decode json = .error fault
  decodeList : ∀ json list, readUnchecked json = .ok list →
    (codec.decode json = .ok list ∧ ∀ inner, list.toKey.Holds inner → inner.Valid) ∨
      ∃ fault, list.toKey.RefusedFor fault ∧ codec.decode json = .error fault
  refusesKey : ∀ json threshold keyCount,
    Key.codec.decode json = .error (.rejected (.invalidKeyList threshold keyCount)) →
      ¬ InRange threshold keyCount
  refusesList : ∀ json threshold keyCount,
    codec.decode json = .error (.rejected (.invalidKeyList threshold keyCount)) →
      ¬ InRange threshold keyCount

theorem KeyList.threshold_laws : KeyList.ThresholdLaws where
  inRange _ obtained _ holds := obtained.wellFormed.valid holds
  withThreshold keys threshold := setThreshold_some (ofKeys keys) threshold
  setThreshold := setThreshold_some
  unchanged list threshold outside := by
    rw [step, call, setThreshold_some, if_neg outside]
  decodeKey json key read := by
    rcases Key.checks_decode json key read with decoded | refused
    · have obtained : key.Obtained := .decoded decoded
      exact .inl ⟨decoded, fun _ holds => obtained.wellFormed.valid holds⟩
    · exact .inr refused
  decodeList json list read := by
    rcases checks_decode json list read with decoded | refused
    · have obtained : list.Obtained := .decoded decoded
      exact .inl ⟨decoded, fun _ holds => obtained.wellFormed.valid holds⟩
    · exact .inr refused
  refusesKey _ threshold keyCount refused := Key.justified_decode refused threshold keyCount rfl
  refusesList _ threshold keyCount refused := justified_decode refused threshold keyCount rfl

theorem KeyList.threshold_laws_nested :
    let grown := (((empty.step (.push (.contract ⟨0, 0, 1, none⟩))).step (.setThreshold (some 1))).step
      (.setThreshold (some 2))).step (.push (.contract ⟨0, 0, 2, none⟩))
    let short : Json := .array [Json.ofItems [Json.ofMembers [("contractId", .string "0.0.1")]],
      Json.ofNat 2] .closed
    grown.threshold = some 1 ∧ grown.Valid ∧
      codec.decode short = .error (.rejected (.invalidKeyList 2 1)) ∧ ¬ InRange 2 1 := by
  intro grown short
  have first : Key.Obtained (.contract ⟨0, 0, 1, none⟩) := .contract _
  have second : Key.Obtained (.contract ⟨0, 0, 2, none⟩) := .contract _
  have obtained : grown.Obtained := by
    refine .step (.step (.step (.step .new (.push _) ?_) (.setThreshold (some 1)) nofun)
      (.setThreshold (some 2)) nofun) (.push _) ?_
    · rintro key ⟨⟩
      exact first
    · rintro key ⟨⟩
      exact second
  have refused : codec.decode short = .error (.rejected (.invalidKeyList 2 1)) := by rfl
  have outer : Key.Obtained (empty.step (.push grown.toKey)).toKey :=
    .list (.step .new (.push _) (by rintro key ⟨⟩; exact .list obtained))
  exact ⟨rfl, threshold_laws.inRange _ outer _ (.inside List.mem_cons_self .self), refused,
    threshold_laws.refusesList short 2 1 refused⟩

end LedgerClient
