import LedgerClient.Operation.Basic
import LedgerClient.Proofs.Json.Plain
import LedgerClient.Proofs.Operation.RoundTrip

/-! How bodies are laid out. Whatever an operation holds, its body is written as plain JSON, and at
the name of a field stands what the body has there, or nothing. -/

namespace LedgerClient

@[simp] theorem EntityId.codec_plain {kind : EntityKind} :
    (codec : Codec (EntityId kind)).WritesPlain := Codec.plain_text

@[simp] theorem AccountId.codec_plain : codec.WritesPlain := Codec.plain_text

@[simp] theorem TransactionId.codec_plain : codec.WritesPlain := Codec.plain_text

@[simp] theorem Hbar.codec_plain : codec.WritesPlain := fun amount =>
  Codec.plain_int64 amount.tinybars

@[simp] theorem Duration.codec_plain : codec.WritesPlain := fun _ => Codec.plain_uint64 _

@[simp] theorem Instant.codec_plain : codec.WritesPlain := fun _ => .string _

namespace Key

theorem listMembers_plain {keys : List Json} (plain : ∀ key ∈ keys, key.Plain)
    (threshold : Option UInt32) : (Json.ofMembers (listMembers keys threshold)).Plain := by
  cases threshold with
  | none => exact (Json.Plain.items plain).member "keys"
  | some threshold =>
    have names : ["keys", "threshold"].Nodup := by decide
    exact .members names
      (List.forall_iff_forall_mem.mp ⟨.items plain, Codec.plain_uint32 threshold⟩)

mutual

theorem encode_plain : (key : Key) → (encode key).Plain
  | .single key => (Json.Plain.string key.text).member "single"
  | .contract id => (Json.Plain.string id.text).member "contractId"
  | .delegatableContract id => (Json.Plain.string id.text).member "delegatableContractId"
  | .list keys threshold => (listMembers_plain (encodeAll_plain keys) threshold).member "keyList"

theorem encodeAll_plain : (keys : List Key) → ∀ json ∈ encodeAll keys, json.Plain
  | [] => nofun
  | key :: rest => List.forall_mem_cons.mpr ⟨encode_plain key, encodeAll_plain rest⟩

end

@[simp] theorem codec_plain : codec.WritesPlain := encode_plain

end Key

theorem HbarAllowance.record_plain : record.WritesPlain where
  names := by decide
  slots := by simp [record]

theorem TokenAllowance.record_plain : record.WritesPlain where
  names := by decide
  slots := by simp [record]

theorem NftAllowance.record_plain : record.WritesPlain where
  names := by decide
  slots := by simp [record]

theorem Payment.record_plain : record.WritesPlain where
  names := by decide
  slots := by simp [record]

theorem TransactionKind.record_plain (kind : TransactionKind) :
    kind.operation.record.WritesPlain where
  names := (TransactionBody.names_nodup kind).of_append_left
  slots := by
    cases kind with
    | accountAllowanceApprove =>
      show ∀ slot ∈ AllowanceApproval.record.slots, slot.WritesPlain
      simp [AllowanceApproval.record, HbarAllowance.record_plain.codec,
        TokenAllowance.record_plain.codec, NftAllowance.record_plain.codec]
    | contractUpdate =>
      show ∀ slot ∈ ContractUpdate.record.slots, slot.WritesPlain
      simp [ContractUpdate.record]
    | tokenBurn =>
      show ∀ slot ∈ TokenBurn.record.slots, slot.WritesPlain
      simp [TokenBurn.record]
    | tokenFreeze =>
      show ∀ slot ∈ TokenRelation.record.slots, slot.WritesPlain
      simp [TokenRelation.record]
    | tokenRevokeKyc =>
      show ∀ slot ∈ TokenRelation.record.slots, slot.WritesPlain
      simp [TokenRelation.record]
    | tokenUnpause =>
      show ∀ slot ∈ TokenUnpause.record.slots, slot.WritesPlain
      simp [TokenUnpause.record]
    | tokenWipe =>
      show ∀ slot ∈ TokenWipe.record.slots, slot.WritesPlain
      simp [TokenWipe.record]
    | topicCreate =>
      show ∀ slot ∈ TopicCreate.record.slots, slot.WritesPlain
      simp [TopicCreate.record]
    | topicMessageSubmit =>
      show ∀ slot ∈ TopicMessageSubmit.record.slots, slot.WritesPlain
      simp [TopicMessageSubmit.record]
    | topicUpdate =>
      show ∀ slot ∈ TopicUpdate.record.slots, slot.WritesPlain
      simp [TopicUpdate.record]

theorem QueryKind.record_plain (kind : QueryKind) : kind.operation.record.WritesPlain where
  names := (QueryBody.names_nodup kind).of_append_left
  slots := by
    cases kind with
    | accountBalance =>
      show ∀ slot ∈ AccountBalanceQuery.record.slots, slot.WritesPlain
      simp [AccountBalanceQuery.record]
    | accountInfo =>
      show ∀ slot ∈ AccountInfoQuery.record.slots, slot.WritesPlain
      simp [AccountInfoQuery.record]
    | transactionReceipt =>
      show ∀ slot ∈ TransactionReceiptQuery.record.slots, slot.WritesPlain
      simp [TransactionReceiptQuery.record]

open Json (valuesAt)

theorem Record.valuesAt_append {α β : Type} {first : Record α} {second : Record β}
    (names : (first.slots.map Slot.name ++ second.slots.map Slot.name).Nodup) {a : α} {b : β}
    {name : String} {written : Option Json}
    (there : (name, written) ∈ first.fields a ++ second.fields b) (path : List String) :
    valuesAt (name :: path) (Json.ofMembers (first.members a ++ second.members b)) =
      written.toList.flatMap (valuesAt path) := by
  rw [members_eq, members_eq, ← Json.membersOf_append]
  refine Json.valuesAt_membersOf ?_ there
  rw [List.map_append, names_fields, names_fields]
  exact names

theorem Record.valuesAt_name {α β : Type} {first : Record α} {second : Record β}
    (names : (first.slots.map Slot.name ++ second.slots.map Slot.name).Nodup) {a : α} {b : β}
    {name : String} {written : Option Json}
    (there : (name, written) ∈ first.fields a ++ second.fields b) :
    valuesAt [name] (Json.ofMembers (first.members a ++ second.members b)) = written.toList :=
  (valuesAt_append names there []).trans (Json.flatMap_valuesAt_nil written)

namespace TransactionBody

variable {kind : TransactionKind} (body : TransactionBody kind)

theorem common_plain : (common : Record (TransactionBody kind)).WritesPlain where
  names := (names_nodup kind).of_append_right
  slots := by simp [common]

theorem encode_plain : body.encode.Plain :=
  Record.plain_append kind.record_plain common_plain (names_nodup kind) body.data body

theorem valuesAt_encode {name : String} {written : Option Json}
    (there : (name, written) ∈ kind.operation.record.fields body.data ++ common.fields body) :
    valuesAt [name] body.encode = written.toList :=
  Record.valuesAt_name (names_nodup kind) there

end TransactionBody

namespace QueryBody

variable {kind : QueryKind} (body : QueryBody kind)

theorem common_plain : (common : Record (QueryBody kind)).WritesPlain where
  names := (names_nodup kind).of_append_right
  slots := List.forall_iff_forall_mem.mp (Slot.plain_defaulted Payment.record_plain.codec)

theorem encode_plain : body.encode.Plain :=
  Record.plain_append kind.record_plain common_plain (names_nodup kind) body.data body

theorem valuesAt_encode {name : String} {written : Option Json}
    (there : (name, written) ∈ kind.operation.record.fields body.data ++ common.fields body) :
    valuesAt [name] body.encode = written.toList :=
  Record.valuesAt_name (names_nodup kind) there

theorem valuesAt_payment {name : String} {written : Option Json}
    (there : (name, written) ∈ Payment.record.fields body.payment) :
    valuesAt ["payment", name] body.encode = written.toList := by
  have payment : ("payment", some (Payment.codec.encode body.payment)) ∈
      kind.operation.record.fields body.data ++ common.fields body :=
    List.mem_append_right _ List.mem_cons_self
  have outside := Record.valuesAt_append (names_nodup kind) payment [name]
  have inside : valuesAt [name] (Payment.codec.encode body.payment) = written.toList := by
    show valuesAt _ (Json.ofMembers (Payment.record.members body.payment)) = _
    rw [Record.members_eq, Json.valuesAt_membersOf _ there, Json.flatMap_valuesAt_nil]
    rw [Record.names_fields]
    exact Payment.record_plain.names
  rw [Option.toList_some, List.flatMap_singleton, inside] at outside
  exact outside

end QueryBody

end LedgerClient
