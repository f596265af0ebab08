import LedgerClient.Key.List
import LedgerClient.Proofs.Json.Decoded
import LedgerClient.Proofs.Json.Record
import LedgerClient.Proofs.Json.Scalar

/-! Nested keys. Every key that can be built has thresholds in their range at every depth, and such
keys are restored by the codec, which reads at least as deep as JSON nests. -/

namespace LedgerClient

/-- The thresholds of all lists in a key count at least one key and at most all of them. -/
inductive Key.WellFormed : Key → Prop
  | single (key : PublicKey) : WellFormed (.single key)
  | contract (id : ContractId) : WellFormed (.contract id)
  | delegatableContract (id : ContractId) : WellFormed (.delegatableContract id)
  | list {keys : List Key} {threshold : Option UInt32} (all : ∀ key ∈ keys, WellFormed key)
    (range : ∀ k, threshold = some k → 1 ≤ k.toNat ∧ k.toNat ≤ keys.length) :
    WellFormed (.list keys threshold)

mutual

inductive Key.Built : Key → Prop
  | single (key : PublicKey) : Key.Built (.single key)
  | contract (id : ContractId) : Key.Built (.contract id)
  | delegatableContract (id : ContractId) : Key.Built (.delegatableContract id)
  | list {list : KeyList} (h : KeyList.Built list) : Key.Built list.toKey
  | item {list : KeyList} {key : Key} (h : KeyList.Built list) (hk : key ∈ list.keys) :
    Key.Built key
  | decoded {json : Json} {key : Key} (h : Key.codec.decode json = .ok key) : Key.Built key

inductive KeyList.Built : KeyList → Prop
  | ofKey {keys : List Key} {threshold : Option UInt32} (h : Key.Built (.list keys threshold)) :
    KeyList.Built ⟨keys, threshold⟩
  | ofKeys {keys : List Key} (all : ∀ key ∈ keys, Key.Built key) : KeyList.Built (.ofKeys keys)
  | withThreshold {keys : List Key} {threshold : UInt32} {list : KeyList}
    (all : ∀ key ∈ keys, Key.Built key)
    (h : KeyList.withThreshold keys threshold = .ok list) : KeyList.Built list
  | setThreshold {list changed : KeyList} {threshold : Option UInt32} (built : KeyList.Built list)
    (h : list.setThreshold threshold = .ok changed) : KeyList.Built changed
  | push {list : KeyList} {key : Key} (built : KeyList.Built list) (hk : Key.Built key) :
    KeyList.Built (list.push key)
  | decoded {json : Json} {list : KeyList} (h : KeyList.codec.decode json = .ok list) :
    KeyList.Built list

end

namespace KeyList

theorem setThreshold_eq_ok {list changed : KeyList} {threshold : Option UInt32}
    (h : list.setThreshold threshold = .ok changed) :
    changed = { list with threshold } ∧
      ∀ k, threshold = some k → 1 ≤ k.toNat ∧ k.toNat ≤ list.keys.length := by
  cases threshold with
  | none =>
    cases h
    exact ⟨rfl, fun _ none_ => nomatch none_⟩
  | some threshold =>
    rw [setThreshold, checkThreshold] at h
    split at h
    · next range =>
      cases h
      refine ⟨rfl, ?_⟩
      intro k same
      obtain rfl := Option.some.inj same
      exact range
    · cases h

theorem setThreshold_of_range {list : KeyList} {threshold : Option UInt32}
    (range : ∀ k, threshold = some k → 1 ≤ k.toNat ∧ k.toNat ≤ list.keys.length) :
    list.setThreshold threshold = .ok { list with threshold } := by
  cases threshold with
  | none => rfl
  | some threshold =>
    have inRange : 1 ≤ threshold.toNat ∧ threshold.toNat ≤ list.size := range threshold rfl
    rw [setThreshold, checkThreshold, if_pos inRange]
    rfl

end KeyList

namespace Key

theorem encodeAll_eq_map (keys : List Key) : encodeAll keys = keys.map encode := by
  induction keys with
  | nil => rw [encodeAll]; rfl
  | cons key rest ih => rw [encodeAll, ih]; rfl

def codecUpTo (limit : Nat) : Codec Key where
  encode := encode
  decode := decodeUpTo limit

def listCodecUpTo (limit : Nat) : Codec KeyList where
  encode list := Json.ofMembers (listMembers (encodeAll list.keys) list.threshold)
  decode := decodeList (decodeUpTo limit)

theorem listRecord_restores {limit : Nat} {list : KeyList}
    (h : ∀ key ∈ list.keys, (codecUpTo limit).Restores key) :
    (listRecord (decodeUpTo limit)).Restores list :=
  Record.restores
    (.cons (Slot.restores_defaulted (Codec.restores_list h)) <|
      .cons (Slot.restores_optional rfl fun k _ => Codec.restores_uint32 k) .nil)
    (show ["keys", "threshold"].Nodup by decide) (by simp) (by simp) (fun _ => rfl)

theorem listRecord_encode (limit : Nat) (list : KeyList) :
    (listRecord (decodeUpTo limit)).codec.encode list = (listCodecUpTo limit).encode list := by
  obtain ⟨keys, threshold⟩ := list
  show _ = Json.ofMembers (listMembers (encodeAll keys) threshold)
  rw [encodeAll_eq_map]
  cases threshold with
  | none => rfl
  | some threshold => rfl

theorem listCodecUpTo_restores {limit : Nat} {list : KeyList}
    (inner : ∀ key ∈ list.keys, (codecUpTo limit).Restores key)
    (range : ∀ k, list.threshold = some k → 1 ≤ k.toNat ∧ k.toNat ≤ list.keys.length) :
    (listCodecUpTo limit).Restores list := by
  have record := (listRecord_restores inner).codec
  have text := listRecord_encode limit list
  refine ⟨text ▸ record.written, text ▸ record.ne_null, ?_⟩
  intro deep tree presents
  have read := record.decode (text ▸ deep) tree (text ▸ presents)
  have checked : (KeyList.ofKeys list.keys).setThreshold list.threshold = .ok list :=
    KeyList.setThreshold_of_range range
  show decodeList (decodeUpTo limit) tree = _
  rw [decodeList, read]
  show Codec.ofResult ((KeyList.ofKeys list.keys).setThreshold list.threshold) = _
  rw [checked]
  rfl

theorem decodeUpTo_member {limit : Nat} {tag : String} {json : Json} {ends : Json.Ending}
    {key : Key} (closed : ends ≠ .broken) (h : decodeTagged (decodeUpTo limit) tag json = .ok key) :
    decodeUpTo (limit + 1) (.object [(tag, json)] ends) = .ok key := by
  rw [decodeUpTo, h]
  simp [closed, bind, Except.bind, pure, Except.pure]

theorem codecUpTo_restores_member {limit : Nat} {tag : String} {α : Type} {codec : Codec α}
    {value : α} {build : α → Key} (h : codec.Restores value)
    (encoded : encode (build value) = Json.ofMembers [(tag, codec.encode value)])
    (tagged : ∀ json, decodeTagged (decodeUpTo limit) tag json = build <$> codec.decode json) :
    (codecUpTo (limit + 1)).Restores (build value) := by
  have text : (codecUpTo (limit + 1)).encode (build value) =
      Json.ofMembers [(tag, codec.encode value)] := encoded
  refine ⟨?_, ?_, ?_⟩
  · rw [text]
    exact h.written.member tag
  · rw [text]
    intro null
    cases null
  · intro deep tree presents
    rw [text] at deep presents
    rw [Json.depth_member] at deep
    obtain ⟨inner, ends, rfl, closed, presents⟩ := presents.of_member
    refine decodeUpTo_member closed ?_
    rw [tagged, h.decode (Nat.le_of_succ_le deep) inner presents]
    rfl

theorem depth_list (keys : List Key) (threshold : Option UInt32) :
    (encode (.list keys threshold)).depth =
      (Json.ofMembers (listMembers (encodeAll keys) threshold)).depth + 1 := by
  rw [encode, Json.depth_member]

theorem depth_key_le {keys : List Key} {key : Key} (h : key ∈ keys) (threshold : Option UInt32) :
    (encode key).depth + 3 ≤ (encode (.list keys threshold)).depth := by
  have item : (encode key).depth ≤ Json.depthOfItems (encodeAll keys) := by
    rw [encodeAll_eq_map]
    exact Json.depth_le_of_mem_items (List.mem_map_of_mem h)
  have first : ("keys", Json.ofItems (encodeAll keys)) ∈ listMembers (encodeAll keys) threshold :=
    List.mem_cons_self
  have members := Json.depth_le_of_mem_members first
  rw [Json.depth_ofItems] at members
  rw [depth_list, Json.depth_ofMembers]
  omega

theorem exists_less {key : Key} {limit : Nat} (deep : (encode key).depth ≤ limit) :
    ∃ less, limit = less + 1 := by
  have object : 1 ≤ (encode key).depth := by
    cases key <;> rw [encode, Json.depth_ofMembers] <;> exact Nat.le_add_left 1 _
  exact ⟨limit - 1, by omega⟩

theorem codecUpTo_restores {key : Key} (h : key.WellFormed) {limit : Nat}
    (deep : (encode key).depth ≤ limit) : (codecUpTo limit).Restores key := by
  induction h generalizing limit with
  | single key =>
    obtain ⟨limit, rfl⟩ := exists_less deep
    refine codecUpTo_restores_member key.codec_restores (by rw [encode]; rfl) ?_
    intro json
    rw [decodeTagged, if_pos rfl]
  | contract id =>
    obtain ⟨limit, rfl⟩ := exists_less deep
    refine codecUpTo_restores_member id.codec_restores (by rw [encode]; rfl) ?_
    intro json
    rw [decodeTagged, if_neg (by decide), if_pos rfl]
  | delegatableContract id =>
    obtain ⟨limit, rfl⟩ := exists_less deep
    refine codecUpTo_restores_member id.codec_restores (by rw [encode]; rfl) ?_
    intro json
    rw [decodeTagged, if_neg (by decide), if_neg (by decide), if_pos rfl]
  | @list keys threshold all range ih =>
    obtain ⟨limit, rfl⟩ := exists_less deep
    have inner : ∀ key ∈ keys, (codecUpTo limit).Restores key := by
      intro key hk
      have nested := depth_key_le hk threshold
      exact ih key hk (by omega)
    have list : (listCodecUpTo limit).Restores ⟨keys, threshold⟩ :=
      listCodecUpTo_restores inner range
    have encoded : encode (KeyList.toKey ⟨keys, threshold⟩) =
        Json.ofMembers [("keyList", (listCodecUpTo limit).encode ⟨keys, threshold⟩)] := by
      show encode (.list keys threshold) = _
      rw [encode]
      rfl
    show (codecUpTo (limit + 1)).Restores (KeyList.toKey ⟨keys, threshold⟩)
    refine codecUpTo_restores_member list encoded ?_
    intro json
    rw [decodeTagged, if_neg (by decide), if_neg (by decide), if_neg (by decide), if_pos rfl]
    rfl

theorem codec_restores {key : Key} (h : key.WellFormed) : codec.Restores key where
  written := (codecUpTo_restores h (Nat.le_refl _)).written
  ne_null := (codecUpTo_restores h (Nat.le_refl _)).ne_null
  decode deep := (codecUpTo_restores h (Nat.le_succ_of_le deep)).decode deep

theorem decodeList_wellFormed {decodeKey : Json → Decoded Key}
    (inner : ∀ json key, decodeKey json = .ok key → key.WellFormed) {json : Json} {list : KeyList}
    (h : decodeList decodeKey json = .ok list) : list.toKey.WellFormed := by
  obtain ⟨read, decoded, h⟩ := Except.bind_eq_ok h
  have kept : ∀ slot ∈ (listRecord decodeKey).slots,
      slot.Preserves fun list : KeyList => ∀ key ∈ list.keys, key.WellFormed := by
    intro slot hs
    simp only [listRecord, List.mem_cons, List.not_mem_nil, or_false] at hs
    rcases hs with rfl | rfl
    · refine Slot.preserves_reader rfl ?_
      intro json keys record decoded _ key hk
      obtain ⟨item, read⟩ := Codec.decode_of_list decoded key hk
      exact inner item key read
    · exact Slot.preserves_reader rfl fun _ _ _ _ before => before
  have all := Record.decode_preserves kept (fun key hk => nomatch hk) decoded
  cases set : (KeyList.ofKeys read.keys).setThreshold read.threshold with
  | error cause =>
    rw [set] at h
    cases h
  | ok changed =>
    rw [set] at h
    cases h
    obtain ⟨rfl, range⟩ := KeyList.setThreshold_eq_ok set
    exact WellFormed.list all range

theorem decodeTagged_wellFormed {decodeKey : Json → Decoded Key}
    (inner : ∀ json key, decodeKey json = .ok key → key.WellFormed) {tag : String} {json : Json}
    {key : Key} (h : decodeTagged decodeKey tag json = .ok key) : key.WellFormed := by
  rw [decodeTagged] at h
  split at h
  · obtain ⟨key, -, rfl⟩ := Except.map_eq_ok h
    exact WellFormed.single key
  split at h
  · obtain ⟨id, -, rfl⟩ := Except.map_eq_ok h
    exact WellFormed.contract id
  split at h
  · obtain ⟨id, -, rfl⟩ := Except.map_eq_ok h
    exact WellFormed.delegatableContract id
  split at h
  · obtain ⟨list, decoded, rfl⟩ := Except.map_eq_ok h
    exact decodeList_wellFormed inner decoded
  · cases h

theorem decodeUpTo_wellFormed {limit : Nat} {json : Json} {key : Key}
    (h : decodeUpTo limit json = .ok key) : key.WellFormed := by
  induction limit generalizing json key with
  | zero =>
    unfold decodeUpTo at h
    cases h
  | succ limit ih =>
    unfold decodeUpTo at h
    split at h
    · next same =>
      cases same
      split at h
      · cases h
      · obtain ⟨read, decoded, h⟩ := Except.bind_eq_ok h
        split at h
        · cases h
          exact decodeTagged_wellFormed (fun _ _ => ih) decoded
        · cases h
    · cases h

end Key

namespace KeyList

theorem wellFormed_push {list : KeyList} {key : Key} (h : list.toKey.WellFormed)
    (hk : key.WellFormed) : (list.push key).toKey.WellFormed := by
  cases h with
  | list all range =>
    refine .list ?_ ?_
    · intro other ho
      rcases List.mem_append.mp ho with ho | ho
      · exact all other ho
      · rw [List.mem_singleton.mp ho]
        exact hk
    · intro k same
      have inRange := range k same
      have grown : (list.push key).keys.length = list.keys.length + 1 := List.length_append
      omega

theorem wellFormed_setThreshold {list changed : KeyList} {threshold : Option UInt32}
    (h : list.toKey.WellFormed) (set : list.setThreshold threshold = .ok changed) :
    changed.toKey.WellFormed := by
  obtain ⟨rfl, range⟩ := setThreshold_eq_ok set
  cases h with
  | list all _ => exact .list all range

theorem wellFormed_ofKeys {keys : List Key} (all : ∀ key ∈ keys, key.WellFormed) :
    (ofKeys keys).toKey.WellFormed :=
  .list all nofun

end KeyList

mutual

theorem Key.Built.wellFormed {key : Key} : key.Built → key.WellFormed
  | .single key => .single key
  | .contract id => .contract id
  | .delegatableContract id => .delegatableContract id
  | .list built => built.wellFormed
  | .item built hk => by
    cases built.wellFormed with
    | list all _ => exact all _ hk
  | .decoded h => Key.decodeUpTo_wellFormed h

theorem KeyList.Built.wellFormed {list : KeyList} : list.Built → list.toKey.WellFormed
  | .ofKey built => built.wellFormed
  | .ofKeys all => KeyList.wellFormed_ofKeys fun key hk => (all key hk).wellFormed
  | .withThreshold all h =>
    KeyList.wellFormed_setThreshold
      (KeyList.wellFormed_ofKeys fun key hk => (all key hk).wellFormed) h
  | .setThreshold built h => KeyList.wellFormed_setThreshold built.wellFormed h
  | .push built hk => KeyList.wellFormed_push built.wellFormed hk.wellFormed
  | .decoded h => Key.decodeList_wellFormed (fun _ _ => Key.decodeUpTo_wellFormed) h

end

end LedgerClient
