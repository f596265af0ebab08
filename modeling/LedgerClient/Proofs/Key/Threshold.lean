import LedgerClient.Proofs.Json.Faults
import LedgerClient.Proofs.Key.Nesting

/-! The check of thresholds in the decoder. A reader of keys without the check is the decoder with
another way to read a list. Where it reads a key, the decoder either reads the same key, or it refuses
the threshold of some list in it. -/

namespace LedgerClient

namespace KeyList

/-- A threshold that some number of keys can meet. -/
def InRange (threshold : UInt32) (keyCount : Nat) : Prop :=
  1 ≤ threshold.toNat ∧ threshold.toNat ≤ keyCount

instance (threshold : UInt32) (keyCount : Nat) : Decidable (InRange threshold keyCount) :=
  inferInstanceAs (Decidable (_ ∧ _))

theorem setThreshold_some (list : KeyList) (threshold : UInt32) :
    list.setThreshold (some threshold) =
      if InRange threshold list.size then .ok { list with threshold := some threshold }
      else .error (.invalidKeyList threshold list.size) := by
  by_cases inRange : InRange threshold list.size
  · rw [if_pos inRange]
    exact setThreshold_of_range fun _ same => Option.some.inj same ▸ inRange
  · have outside : ¬ (1 ≤ threshold.toNat ∧ threshold.toNat ≤ list.size) := inRange
    rw [if_neg inRange, setThreshold, checkThreshold, if_neg outside]
    rfl

def Valid (list : KeyList) : Prop :=
  ∀ threshold, list.threshold = some threshold → InRange threshold list.size

end KeyList

namespace Key

inductive Holds : Key → KeyList → Prop
  | self {keys : List Key} {threshold : Option UInt32} :
    Holds (.list keys threshold) ⟨keys, threshold⟩
  | inside {keys : List Key} {threshold : Option UInt32} {key : Key} {list : KeyList}
    (hk : key ∈ keys) (h : Holds key list) : Holds (.list keys threshold) list

theorem WellFormed.valid {key : Key} {list : KeyList} (h : key.WellFormed) (holds : key.Holds list) :
    list.Valid := by
  induction holds with
  | self =>
    cases h with
    | list _ range => exact range
  | inside hk _ ih =>
    cases h with
    | list all _ => exact ih (all _ hk)

def RefusedFor (key : Key) (fault : DecodeFault) : Prop :=
  ∃ list threshold, key.Holds list ∧ list.threshold = some threshold ∧
    ¬ KeyList.InRange threshold list.size ∧
      fault = .rejected (.invalidKeyList threshold list.size)

theorem RefusedFor.inside {key : Key} {fault : DecodeFault} (h : key.RefusedFor fault)
    {list : KeyList} (hk : key ∈ list.keys) : list.toKey.RefusedFor fault := by
  obtain ⟨inner, threshold, holds, refused⟩ := h
  exact ⟨inner, threshold, Holds.inside hk holds, refused⟩

def readTagged (readList : Json → Decoded KeyList) (tag : String) (json : Json) : Decoded Key :=
  if tag = "single" then
    Key.single <$> PublicKey.codec.decode json
  else if tag = "contractId" then Key.contract <$> EntityId.codec.decode json
  else if tag = "delegatableContractId" then Key.delegatableContract <$> EntityId.codec.decode json
  else if tag = "keyList" then KeyList.toKey <$> readList json
  else .error .malformed

def readUpTo (readList : (Json → Decoded Key) → Json → Decoded KeyList) :
    (depth : Nat) → Json → Decoded Key
  | depth + 1, .object ((tag, json) :: rest) ending =>
    if ending = .counted ∧ !rest.isEmpty then .error .malformed
    else do
      let key ← readTagged (readList (readUpTo readList depth)) tag json
      if rest.isEmpty ∧ ending ≠ .broken then return key else .error .malformed
  | _, _ => .error .malformed

theorem readUpTo_decodeList (limit : Nat) : readUpTo decodeList limit = decodeUpTo limit := by
  induction limit with
  | zero => rfl
  | succ limit ih =>
    funext json
    cases json with
    | object members ending =>
      cases members with
      | nil => rfl
      | cons member rest =>
        rw [readUpTo, decodeUpTo, ih]
        rfl
    | _ => rfl

def readFields (readKey : Json → Decoded Key) (json : Json) : Decoded KeyList :=
  (listRecord readKey).codec.decode json

/-- Reads a key as its JSON gives it, with any thresholds. -/
def readUnchecked : Json → Decoded Key :=
  readUpTo readFields (Json.maxDepth + 1)

def AnyRefusedFor (keys : List Key) (fault : DecodeFault) : Prop :=
  ∃ key ∈ keys, key.RefusedFor fault

section

variable {unchecked checked : Json → Decoded Key}

theorem checks_mapM (h : ∀ json, Checks RefusedFor (unchecked json) (checked json))
    (items : List Json) : Checks AnyRefusedFor (items.mapM unchecked) (items.mapM checked) := by
  induction items with
  | nil => exact Checks.refl _
  | cons item rest ih =>
    rw [List.mapM_cons, List.mapM_cons]
    refine (h item).bind (fun first => ih.bind (fun _ => Checks.refl _) ?_) ?_
    · intro others keys fault refused read
      cases read
      obtain ⟨key, hk, refused⟩ := refused
      exact ⟨key, List.mem_cons_of_mem first hk, refused⟩
    · intro first keys fault refused read
      obtain ⟨others, -, read⟩ := Except.bind_eq_ok read
      cases read
      exact ⟨first, List.mem_cons_self, refused⟩

theorem checks_list (h : ∀ json, Checks RefusedFor (unchecked json) (checked json)) (json : Json) :
    Checks AnyRefusedFor ((Codec.list ⟨encode, unchecked⟩).decode json)
      ((Codec.list ⟨encode, checked⟩).decode json) := by
  cases json with
  | array items ending =>
    refine (checks_mapM h items).bind (fun _ => Checks.refl _) ?_
    intro keys result fault refused read
    obtain ⟨_, -, read⟩ := Except.bind_eq_ok read
    cases read
    exact refused
  | _ => exact Checks.refl _

def keysSlot (readKey : Json → Decoded Key) : Slot KeyList :=
  .defaulted "keys" (Codec.list ⟨encode, readKey⟩) (·.keys) fun keys list => { list with keys }

def thresholdSlot : Slot KeyList :=
  .optional "threshold" Codec.uint32 (·.threshold) fun threshold list => { list with threshold }

theorem slots_listRecord (readKey : Json → Decoded Key) :
    (listRecord readKey).slots = [keysSlot readKey, thresholdSlot] := rfl

theorem thresholdSlot_preserves (keys : List Key) :
    thresholdSlot.Preserves fun list => list.keys = keys :=
  Slot.preserves_reader rfl fun _ _ _ _ before => before

theorem find_slot (readKey : Json → Decoded Key) (name : String) :
    [keysSlot readKey, thresholdSlot].find? (·.name == name) =
      if name = "keys" then some (keysSlot readKey)
      else if name = "threshold" then some thresholdSlot else none := by
  by_cases keys : name = "keys"
  · subst keys
    rfl
  · by_cases threshold : name = "threshold"
    · subst threshold
      rfl
    · have first : ((keysSlot readKey).name == name) = false := beq_false_of_ne (Ne.symm keys)
      have second : (thresholdSlot.name == name) = false := beq_false_of_ne (Ne.symm threshold)
      simp [List.find?, first, second, keys, threshold]

theorem checks_keysSlot (h : ∀ json, Checks RefusedFor (unchecked json) (checked json))
    (json : Json) (list : KeyList) :
    Checks (fun list => AnyRefusedFor list.keys) ((keysSlot unchecked).read json list)
      ((keysSlot checked).read json list) :=
  (checks_list h json).map _ fun _ _ refused => refused

theorem keys_of_readMembers {readKey : Json → Decoded Key} {members : List (String × Json)}
    {seen final : List String} {list result : KeyList} (there : "keys" ∈ seen)
    (read : Record.readMembers [keysSlot readKey, thresholdSlot] seen list members =
      .ok (result, final)) : result.keys = list.keys := by
  -- The keys that were read are those of the result, since they are not read again.
  have kept : ∀ slot ∈ [keysSlot readKey, thresholdSlot], slot.name ∉ seen →
      slot.Preserves fun result => result.keys = list.keys := by
    intro slot hs unseen
    simp only [List.mem_cons, List.not_mem_nil, or_false] at hs
    rcases hs with rfl | rfl
    · exact absurd there unseen
    · exact thresholdSlot_preserves list.keys
  exact Record.readMembers_preserves kept rfl read

theorem checks_readMembers (h : ∀ json, Checks RefusedFor (unchecked json) (checked json))
    (members : List (String × Json)) (seen : List String) (list : KeyList) :
    Checks (fun result => AnyRefusedFor result.1.keys)
      (Record.readMembers [keysSlot unchecked, thresholdSlot] seen list members)
      (Record.readMembers [keysSlot checked, thresholdSlot] seen list members) := by
  induction members generalizing seen list with
  | nil => exact Checks.refl _
  | cons member rest ih =>
    obtain ⟨name, json⟩ := member
    rw [Record.readMembers, Record.readMembers, find_slot, find_slot]
    -- The readers differ at the keys alone, and a threshold before them does not change that.
    by_cases keys : name = "keys"
    · subst keys
      simp only [if_true]
      split
      · exact Checks.refl _
      · refine (checks_keysSlot h json list).bind (fun _ => ih _ _) ?_
        intro list result fault refused read
        rw [← keys_of_readMembers List.mem_cons_self read] at refused
        exact refused
    · by_cases threshold : name = "threshold"
      · subst threshold
        simp only [keys, if_false, if_true]
        split
        · exact Checks.refl _
        · exact Checks.bind_refl _ fun _ => ih _ _
      · simp only [keys, threshold, if_false]
        exact ih _ _

theorem checks_readFields (h : ∀ json, Checks RefusedFor (unchecked json) (checked json))
    (json : Json) :
    Checks (fun list => AnyRefusedFor list.keys) (readFields unchecked json)
      (readFields checked json) := by
  cases json with
  | object members ending =>
    refine (checks_readMembers h members [] {}).bind (fun _ => Checks.refl _) ?_
    intro result list fault refused read
    obtain ⟨_, -, read⟩ := Except.bind_eq_ok read
    split at read
    · cases read
      exact refused
    · cases read
  | array items ending =>
    have items : Checks (fun list => AnyRefusedFor list.keys)
        (Record.readItems [keysSlot unchecked, thresholdSlot] {} items)
        (Record.readItems [keysSlot checked, thresholdSlot] {} items) := by
      cases items with
      | nil => exact Checks.refl _
      | cons json rest =>
        refine (checks_keysSlot h json {}).bind (fun _ => Checks.refl _) ?_
        intro list result fault refused read
        have kept := Record.readItems_preserves
          (List.forall_mem_singleton.mpr (thresholdSlot_preserves list.keys)) rfl read
        rw [← kept] at refused
        exact refused
    refine items.bind (fun _ => Checks.refl _) ?_
    intro result list fault refused read
    obtain ⟨_, -, read⟩ := Except.bind_eq_ok read
    cases read
    exact refused
  | _ => exact Checks.refl _

theorem checks_decodeList (h : ∀ json, Checks RefusedFor (unchecked json) (checked json))
    (json : Json) :
    Checks (fun list => list.toKey.RefusedFor) (readFields unchecked json)
      (decodeList checked json) := by
  intro list read
  rcases checks_readFields h json list read with same | ⟨fault, ⟨key, hk, refused⟩, failed⟩
  · have fields : (listRecord checked).codec.decode json = .ok list := same
    obtain ⟨keys, threshold⟩ := list
    rw [decodeList, fields]
    show Codec.ofResult ((KeyList.ofKeys keys).setThreshold threshold) = _ ∨
      ∃ fault, _ ∧ Codec.ofResult ((KeyList.ofKeys keys).setThreshold threshold) = _
    cases threshold with
    | none => exact .inl rfl
    | some threshold =>
      rw [KeyList.setThreshold_some]
      split
      · exact .inl rfl
      · next outside => exact .inr ⟨_, ⟨_, threshold, Holds.self, rfl, outside, rfl⟩, rfl⟩
  · have fields : (listRecord checked).codec.decode json = .error fault := failed
    refine .inr ⟨fault, refused.inside hk, ?_⟩
    rw [decodeList, fields]
    rfl

end

theorem checks_readTagged {unchecked checked : Json → Decoded KeyList}
    (h : ∀ json, Checks (fun list => list.toKey.RefusedFor) (unchecked json) (checked json))
    (tag : String) (json : Json) :
    Checks RefusedFor (readTagged unchecked tag json) (readTagged checked tag json) := by
  unfold readTagged
  split
  · exact Checks.refl _
  split
  · exact Checks.refl _
  split
  · exact Checks.refl _
  split
  · exact (h json).map _ fun _ _ refused => refused
  · exact Checks.refl _

theorem checks_readUpTo (limit : Nat) (json : Json) :
    Checks RefusedFor (readUpTo readFields limit json) (readUpTo decodeList limit json) := by
  induction limit generalizing json with
  | zero => exact Checks.refl _
  | succ limit ih =>
    cases json with
    | object members ending =>
      cases members with
      | nil => exact Checks.refl _
      | cons member rest =>
        obtain ⟨tag, json⟩ := member
        rw [readUpTo, readUpTo]
        split
        · exact Checks.refl _
        · refine (checks_readTagged (checks_decodeList ih) tag json).bind
            (fun _ => Checks.refl _) ?_
          intro key result fault refused read
          split at read
          · cases read
            exact refused
          · cases read
    | _ => exact Checks.refl _

/-- The decoder of keys reads what is read without the check, or refuses a threshold in it. -/
theorem checks_decode (json : Json) : Checks RefusedFor (readUnchecked json) (codec.decode json) := by
  have checks := checks_readUpTo (Json.maxDepth + 1) json
  rw [readUpTo_decodeList] at checks
  exact checks

end Key

/-- Reads a list as its JSON gives it, with any thresholds. -/
def KeyList.readUnchecked : Json → Decoded KeyList :=
  Key.readFields Key.readUnchecked

theorem KeyList.checks_decode (json : Json) :
    Checks (fun list => list.toKey.RefusedFor) (readUnchecked json) (codec.decode json) :=
  Key.checks_decodeList Key.checks_decode json

end LedgerClient
