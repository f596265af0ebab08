import LedgerClient.Json.Scalar
import LedgerClient.Proofs.Notation.AccountGrammar

/-!
Account ids as records of all their fields. However such a record is made, it holds an alias key or
an address but not both, and beside either of them no number and no checksum; so it is one of the
forms in which an account is addressed, and its text tells all of its fields.
-/

namespace LedgerClient

structure AccountFields where
  shard : UInt64
  realm : UInt64
  num : UInt64 := 0
  aliasKey : Option PublicKey := none
  evmAddress : Option EvmAddress := none
  checksum : Option Checksum := none
  deriving DecidableEq

namespace AccountFields

def isNumeric (fields : AccountFields) : Bool :=
  fields.aliasKey.isNone && fields.evmAddress.isNone

/-- Sets the checksum beside a number only. -/
def withChecksum (fields : AccountFields) (checksum : Checksum) : AccountFields :=
  if fields.isNumeric then { fields with checksum := some checksum } else fields

def text (fields : AccountFields) : String :=
  let realm := toString fields.shard.toNat ++ "." ++ toString fields.realm.toNat ++ "."
  match fields.aliasKey, fields.evmAddress with
  | some key, _ => realm ++ key.text
  | none, some address => realm ++ address.hex
  | none, none =>
    match fields.checksum with
    | none => realm ++ toString fields.num.toNat
    | some checksum => realm ++ toString fields.num.toNat ++ "-" ++ checksum.text

structure Consistent (fields : AccountFields) : Prop where
  exclusive : fields.aliasKey = none ∨ fields.evmAddress = none
  unnumbered : fields.aliasKey.isSome ∨ fields.evmAddress.isSome → fields.num = 0
  unchecked : fields.aliasKey.isSome ∨ fields.evmAddress.isSome → fields.checksum = none

end AccountFields

namespace AccountId

def fields (id : AccountId) : AccountFields :=
  ⟨id.shard, id.realm, id.num, id.aliasKey, id.evmAddress, id.checksum⟩

theorem text_fields (id : AccountId) : id.fields.text = id.text := by
  obtain ⟨shard, realm, form⟩ := id
  cases form with
  | number num checksum => cases checksum <;> rfl
  | key key => rfl
  | address address => rfl

theorem fields_withChecksum (id : AccountId) (checksum : Checksum) :
    (id.withChecksum checksum).fields = id.fields.withChecksum checksum := by
  obtain ⟨shard, realm, form⟩ := id
  cases form <;> rfl

theorem consistent_fields (id : AccountId) : id.fields.Consistent := by
  obtain ⟨shard, realm, form⟩ := id
  cases form with
  | number num checksum => exact ⟨.inl rfl, by simp [fields, aliasKey, evmAddress],
      by simp [fields, aliasKey, evmAddress]⟩
  | key key => exact ⟨.inr rfl, fun _ => rfl, fun _ => rfl⟩
  | address address => exact ⟨.inl rfl, fun _ => rfl, fun _ => rfl⟩

end AccountId

namespace AccountFields

inductive Built : AccountFields → Prop
  | new (shard realm num : UInt64) : Built { shard, realm, num }
  | ofKey (shard realm : UInt64) (key : PublicKey) : Built { shard, realm, aliasKey := some key }
  | ofAddress (shard realm : UInt64) (address : EvmAddress) :
    Built { shard, realm, evmAddress := some address }
  | ofLongZero (address : EvmAddress) :
    Built { shard := address.shard, realm := address.realm, num := address.num }
  | withChecksum {fields : AccountFields} (built : Built fields) (checksum : Checksum) :
    Built (fields.withChecksum checksum)
  | parsed {input : String} {id : AccountId} (h : AccountId.parse input = .ok id) :
    Built id.fields
  | decoded {json : Json} {id : AccountId} (h : AccountId.codec.decode json = .ok id) :
    Built id.fields

theorem Built.exists_id {fields : AccountFields} (built : fields.Built) :
    ∃ id : AccountId, id.fields = fields := by
  induction built with
  | new shard realm num => exact ⟨.new shard realm num, rfl⟩
  | ofKey shard realm key => exact ⟨.ofKey shard realm key, rfl⟩
  | ofAddress shard realm address => exact ⟨.ofAddress shard realm address, rfl⟩
  | ofLongZero address => exact ⟨.ofEvmAddress address, rfl⟩
  | withChecksum _ checksum ih =>
    obtain ⟨id, rfl⟩ := ih
    exact ⟨id.withChecksum checksum, id.fields_withChecksum checksum⟩
  | parsed h => exact ⟨_, rfl⟩
  | decoded h => exact ⟨_, rfl⟩

/-- Every record that can be made obeys the rule between its fields, is read from its text, and is
the only one with this text. -/
theorem Built.reads_back {fields : AccountFields} (built : fields.Built) :
    fields.Consistent ∧
      (∃ id : AccountId, id.fields = fields ∧ id.text = fields.text ∧
        AccountId.parse fields.text = .ok id) ∧
      ∀ other : AccountFields, other.Built → other.text = fields.text → other = fields := by
  obtain ⟨id, rfl⟩ := built.exists_id
  have read : AccountId.parse id.fields.text = .ok id := by
    rw [id.text_fields, id.parse_text]
  refine ⟨id.consistent_fields, ⟨id, rfl, id.text_fields.symm, read⟩, ?_⟩
  intro other made same
  obtain ⟨twin, rfl⟩ := made.exists_id
  rw [← same, twin.text_fields, twin.parse_text] at read
  rw [Except.ok.inj read]

/-- An address all of whose digits are decimal, in the last shard and realm. -/
def decimalAddress : AccountFields where
  shard := 18446744073709551615
  realm := 18446744073709551615
  evmAddress := some ⟨List.replicate 20 0x42, rfl⟩

theorem Built.reads_back_decimalAddress :
    decimalAddress.text = "18446744073709551615.18446744073709551615." ++
        "4242424242424242424242424242424242424242" ∧
      decimalAddress.num = 0 ∧ decimalAddress.checksum = none ∧
      ∃ id : AccountId, id.fields = decimalAddress ∧ id.text = decimalAddress.text ∧
        AccountId.parse decimalAddress.text = .ok id := by
  have laws := reads_back (.ofAddress 18446744073709551615 18446744073709551615
    ⟨List.replicate 20 0x42, rfl⟩)
  exact ⟨by decide +kernel, laws.1.unnumbered (.inr rfl), laws.1.unchecked (.inr rfl), laws.2.1⟩

end AccountFields

end LedgerClient
