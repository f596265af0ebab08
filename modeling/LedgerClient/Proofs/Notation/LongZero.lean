import LedgerClient.AccountId
import LedgerClient.Proofs.Bytes

/-! Long-zero addresses. Shard, realm and number take up all of the 20 bytes, each in a place of its
own, so every address is the long-zero address of exactly one entity, and the entities that have one
are those whose shard fits four bytes. -/

namespace LedgerClient

namespace EvmAddress

theorem toNat_field {bytes : Bytes} {width : Nat} (length : bytes.length = width)
    (narrow : width ≤ 8) :
    (UInt64.ofNat (Bytes.toNatBigEndian bytes)).toNat = Bytes.toNatBigEndian bytes := by
  have bound := Bytes.toNatBigEndian_lt bytes
  have word : 256 ^ bytes.length ≤ 256 ^ 8 := Nat.pow_le_pow_right (by decide) (length ▸ narrow)
  exact UInt64.toNat_ofNat_of_lt' (Nat.lt_of_lt_of_le bound word)

variable {shard realm num : UInt64} (address : EvmAddress)

theorem length_shardBytes : (address.bytes.take 4).length = 4 := by
  simp [address.length_bytes]

theorem length_realmBytes : ((address.bytes.drop 4).take 8).length = 8 := by
  simp [address.length_bytes]

theorem length_numBytes : (address.bytes.drop 12).length = 8 := by
  simp [address.length_bytes]

theorem shard_lt : address.shard.toNat < UInt32.size := by
  have bound := Bytes.toNatBigEndian_lt (address.bytes.take 4)
  rw [shard, toNat_field address.length_shardBytes (by decide)]
  rwa [length_shardBytes] at bound

theorem bytes_eq : address.bytes =
    Bytes.bigEndian 4 address.shard.toNat ++ Bytes.bigEndian 8 address.realm.toNat ++
      Bytes.bigEndian 8 address.num.toNat := by
  have first := Bytes.bigEndian_toNatBigEndian (address.bytes.take 4)
  have second := Bytes.bigEndian_toNatBigEndian ((address.bytes.drop 4).take 8)
  have third := Bytes.bigEndian_toNatBigEndian (address.bytes.drop 12)
  rw [length_shardBytes] at first
  rw [length_realmBytes] at second
  rw [length_numBytes] at third
  rw [shard, realm, num, toNat_field address.length_shardBytes (by decide),
    toNat_field address.length_realmBytes (by decide),
    toNat_field address.length_numBytes (by decide), first, second, third, List.append_assoc,
    show address.bytes.drop 12 = (address.bytes.drop 4).drop 8 by rw [List.drop_drop],
    List.take_append_drop, List.take_append_drop]

theorem fields_of_bytes {address : EvmAddress} (fits : shard.toNat < UInt32.size)
    (same : address.bytes = Bytes.bigEndian 4 shard.toNat ++ Bytes.bigEndian 8 realm.toNat ++
      Bytes.bigEndian 8 num.toNat) :
    address.shard = shard ∧ address.realm = realm ∧ address.num = num := by
  have front : address.bytes.take 4 = Bytes.bigEndian 4 shard.toNat := by
    rw [same, List.append_assoc, List.take_left' (Bytes.length_bigEndian _ _)]
  have middle : (address.bytes.drop 4).take 8 = Bytes.bigEndian 8 realm.toNat := by
    rw [same, List.append_assoc, List.drop_left' (Bytes.length_bigEndian _ _),
      List.take_left' (Bytes.length_bigEndian _ _)]
  have back : address.bytes.drop 12 = Bytes.bigEndian 8 num.toNat := by
    rw [same, List.drop_left' (by simp)]
  rw [EvmAddress.shard, EvmAddress.realm, EvmAddress.num, front, middle, back,
    Bytes.toNatBigEndian_bigEndian (Nat.lt_of_lt_of_le fits (by decide)),
    Bytes.toNatBigEndian_bigEndian (Nat.lt_of_lt_of_le realm.toNat_lt (by decide)),
    Bytes.toNatBigEndian_bigEndian (Nat.lt_of_lt_of_le num.toNat_lt (by decide))]
  exact ⟨UInt64.ofNat_toNat, UInt64.ofNat_toNat, UInt64.ofNat_toNat⟩

theorem ofEntity_eq_ok_iff {address : EvmAddress} :
    ofEntity shard realm num = .ok address ↔
      address.shard = shard ∧ address.realm = realm ∧ address.num = num := by
  constructor
  · intro written
    rw [ofEntity] at written
    split at written
    · next fits =>
      cases written
      exact fields_of_bytes fits rfl
    · cases written
  · rintro ⟨rfl, rfl, rfl⟩
    rw [ofEntity, if_pos address.shard_lt]
    refine congrArg Except.ok ?_
    rw [mk.injEq, ← bytes_eq]

theorem exists_ofEntity_eq_ok_iff :
    (∃ address, ofEntity shard realm num = .ok address) ↔ shard.toNat < UInt32.size := by
  constructor
  · rintro ⟨address, written⟩
    exact (ofEntity_eq_ok_iff.mp written).1 ▸ address.shard_lt
  · intro fits
    rw [ofEntity, if_pos fits]
    exact ⟨_, rfl⟩

theorem ofEntity_of_le (wide : UInt32.size ≤ shard.toNat) :
    ofEntity shard realm num = .error (.invalidArgument (.solidityShard shard)) :=
  if_neg (Nat.not_lt.mpr wide)

end EvmAddress

/-- How the addresses of ids are written and read; `bare` is an id without its checksum. -/
structure EvmAddress.LongZero {α : Type} (numeric : α → Prop) (shard : α → UInt64) (bare : α → α)
    (write : α → Except LedgerError EvmAddress) (read : EvmAddress → α) : Prop where
  writes_iff : ∀ id, numeric id →
    ((∃ address, write id = .ok address) ↔ (shard id).toNat < UInt32.size)
  refuses : ∀ id, numeric id → UInt32.size ≤ (shard id).toNat →
    write id = .error (.invalidArgument (.solidityShard (shard id)))
  reads_back : ∀ id address, numeric id → write id = .ok address → read address = bare id
  writes_back : ∀ address, numeric (read address) ∧ write (read address) = .ok address

theorem EntityId.longZero (kind : EntityKind) :
    EvmAddress.LongZero (fun _ : EntityId kind => True) (·.shard) ({ · with checksum := none })
      toEvmAddress ofEvmAddress where
  writes_iff _ _ := EvmAddress.exists_ofEntity_eq_ok_iff
  refuses _ _ wide := EvmAddress.ofEntity_of_le wide
  reads_back id address _ written := by
    obtain ⟨shard, realm, num⟩ := EvmAddress.ofEntity_eq_ok_iff.mp written
    rw [ofEvmAddress, shard, realm, num]
  writes_back address := ⟨trivial, EvmAddress.ofEntity_eq_ok_iff.mpr ⟨rfl, rfl, rfl⟩⟩

theorem AccountId.toEvmAddress_of_isNumeric {id : AccountId} (numeric : id.isNumeric = true) :
    id.toEvmAddress = EvmAddress.ofEntity id.shard id.realm id.num := by
  obtain ⟨shard, realm, form⟩ := id
  cases form with
  | number num checksum => rfl
  | key key => cases numeric
  | address address => cases numeric

theorem AccountId.longZero :
    EvmAddress.LongZero (fun id : AccountId => id.isNumeric = true) (·.shard)
      (fun id => new id.shard id.realm id.num) toEvmAddress ofEvmAddress where
  writes_iff id numeric := by
    rw [toEvmAddress_of_isNumeric numeric]
    exact EvmAddress.exists_ofEntity_eq_ok_iff
  refuses id numeric wide := by
    rw [toEvmAddress_of_isNumeric numeric]
    exact EvmAddress.ofEntity_of_le wide
  reads_back id address numeric written := by
    rw [toEvmAddress_of_isNumeric numeric] at written
    obtain ⟨shard, realm, num⟩ := EvmAddress.ofEntity_eq_ok_iff.mp written
    rw [ofEvmAddress, shard, realm, num]
  writes_back address := ⟨rfl, EvmAddress.ofEntity_eq_ok_iff.mpr ⟨rfl, rfl, rfl⟩⟩

/-- Entities of all kinds and numeric accounts correspond to the addresses one to one, up to their
checksums and as far as their shards fit. An account with an address of its own has no other one, and
an account that is addressed by a key has none. -/
theorem EvmAddress.long_zero_exact :
    (∀ kind : EntityKind, LongZero (fun _ : EntityId kind => True) (·.shard)
      ({ · with checksum := none }) EntityId.toEvmAddress EntityId.ofEvmAddress) ∧
    LongZero (fun id : AccountId => id.isNumeric = true) (·.shard)
      (fun id => .new id.shard id.realm id.num) AccountId.toEvmAddress AccountId.ofEvmAddress ∧
    (∀ (shard realm : UInt64) (address : EvmAddress),
      (AccountId.ofAddress shard realm address).toEvmAddress = .ok address) ∧
    ∀ (shard realm : UInt64) (key : PublicKey),
      (AccountId.ofKey shard realm key).toEvmAddress = .error (.invalidArgument .aliasSolidity) :=
  ⟨EntityId.longZero, AccountId.longZero, fun _ _ _ => rfl, fun _ _ _ => rfl⟩

/-- The largest numbers fill the address. -/
example :
    (EntityId.toEvmAddress (⟨0xFFFFFFFF, 1, 0xFFFFFFFFFFFFFFFF, none⟩ : TokenId)).toOption.map
        EvmAddress.bytes =
      some ([0xFF, 0xFF, 0xFF, 0xFF, 0, 0, 0, 0, 0, 0, 0, 1] ++ List.replicate 8 0xFF) := by
  decide

end LedgerClient
