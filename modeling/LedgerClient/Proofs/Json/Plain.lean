import LedgerClient.Json.Record
import LedgerClient.Proofs.Json.Path
import LedgerClient.Proofs.Json.Record

/-! JSON without null. What a codec writes is plain whatever the value, also of values that are not
read back; a record of such codecs leaves out what is not set. -/

namespace LedgerClient

inductive Json.Plain : Json → Prop
  | bool (value : Bool) : Json.Plain (.bool value)
  | string (value : String) : Json.Plain (.string value)
  | integer {n : Int} (low : -9223372036854775808 ≤ n) (high : n ≤ 18446744073709551615) :
    Json.Plain (ofInt n)
  | items {items : List Json} (all : ∀ item ∈ items, Json.Plain item) : Json.Plain (ofItems items)
  | members {members : List (String × Json)} (names : (members.map Prod.fst).Nodup)
    (all : ∀ member ∈ members, Json.Plain member.2) : Json.Plain (ofMembers members)

namespace Json

theorem Plain.written {json : Json} (plain : json.Plain) : json.Written := by
  induction plain with
  | bool value => exact .bool value
  | string value => exact .string value
  | integer low high => exact .integer low high
  | items _ ih => exact .items ih
  | members names _ ih => exact .members names ih

theorem Plain.not_contains_null {json : Json} (plain : json.Plain) : ¬ json.Contains .null := by
  induction plain with
  | bool value => exact nofun
  | string value => exact nofun
  | integer low high => exact nofun
  | items _ ih =>
    intro found
    rw [ofItems] at found
    cases found with
    | item there inside => exact ih _ there inside
  | members _ _ ih =>
    intro found
    rw [ofMembers] at found
    cases found with
    | member there inside => exact ih _ there inside

theorem Plain.natural {n : Nat} (h : n < 18446744073709551616) : (ofNat n).Plain := by
  rw [ofNat_eq_ofInt]
  exact .integer (by omega) (by omega)

theorem Plain.member {value : Json} (plain : value.Plain) (name : String) :
    (ofMembers [(name, value)]).Plain := by
  refine .members (by simp) fun member hm => ?_
  rw [List.mem_singleton.mp hm]
  exact plain

end Json

namespace Codec

variable {α : Type}

def WritesPlain (codec : Codec α) : Prop :=
  ∀ value, (codec.encode value).Plain

@[simp] theorem plain_string : string.WritesPlain := fun value => .string value

@[simp] theorem plain_bool : bool.WritesPlain := fun value => .bool value

@[simp] theorem plain_text {write : α → String} {parse : String → Except LedgerError α} :
    (text write parse).WritesPlain := fun _ => .string _

@[simp] theorem plain_base64Bytes : base64Bytes.WritesPlain := fun _ => .string _

@[simp] theorem plain_uint64 : uint64.WritesPlain := fun n => .natural n.toNat_lt

@[simp] theorem plain_uint32 : uint32.WritesPlain := fun n =>
  .natural (Nat.lt_trans n.toNat_lt (by decide))

@[simp] theorem plain_int64 : int64.WritesPlain := by
  intro n
  have low := n.le_toInt
  have high := n.toInt_lt
  exact Json.Plain.integer (by omega) (by omega)

@[simp] theorem plain_list {codec : Codec α} (plain : codec.WritesPlain) :
    codec.list.WritesPlain := by
  intro values
  refine .items fun item hi => ?_
  obtain ⟨value, -, rfl⟩ := List.mem_map.mp hi
  exact plain value

end Codec

namespace Slot

variable {α β : Type} {name : String} {codec : Codec β}

def WritesPlain (slot : Slot α) : Prop :=
  ∀ value json, slot.write value = some json → json.Plain

@[simp] theorem plain_mandatory {get : α → β} {set : β → α → α} (plain : codec.WritesPlain) :
    (mandatory name codec get set).WritesPlain := fun _ _ wrote =>
  Option.some.inj wrote ▸ plain _

@[simp] theorem plain_defaulted {get : α → β} {set : β → α → α} (plain : codec.WritesPlain) :
    (defaulted name codec get set).WritesPlain := fun _ _ wrote =>
  Option.some.inj wrote ▸ plain _

@[simp] theorem plain_optional {get : α → Option β} {set : Option β → α → α}
    (plain : codec.WritesPlain) :
    (optional name codec get set).WritesPlain := by
  intro value json wrote
  obtain ⟨b, -, rfl⟩ := Option.map_eq_some_iff.mp wrote
  exact plain b

@[simp] theorem plain_memo {get : α → String} {set : String → α → α} :
    (memo name get set).WritesPlain := by
  intro value json wrote
  rw [memo] at wrote
  dsimp only at wrote
  split at wrote
  · cases wrote
  · exact Option.some.inj wrote ▸ .string _

end Slot

namespace Record

variable {α β : Type} {first : Record α} {second : Record β}

/-- The fields have names of their own, and nothing that is written for them is null. -/
structure WritesPlain (record : Record α) : Prop where
  names : (record.slots.map Slot.name).Nodup
  slots : ∀ slot ∈ record.slots, slot.WritesPlain

theorem WritesPlain.field {record : Record α} (plain : record.WritesPlain) {value : α}
    {name : String} {json : Json} (there : (name, some json) ∈ record.fields value) :
    json.Plain := by
  obtain ⟨slot, hs, same⟩ := List.mem_map.mp there
  exact plain.slots slot hs value json (Prod.mk.inj same).2

theorem plain_append (ha : first.WritesPlain) (hb : second.WritesPlain)
    (names : (first.slots.map Slot.name ++ second.slots.map Slot.name).Nodup) (a : α) (b : β) :
    (Json.ofMembers (first.members a ++ second.members b)).Plain := by
  rw [members_eq, members_eq, ← Json.membersOf_append]
  refine .members ?_ ?_
  · refine (Json.names_membersOf_sublist _).nodup ?_
    rw [List.map_append, names_fields, names_fields]
    exact names
  · rintro ⟨name, json⟩ hm
    rcases List.mem_append.mp (Json.mem_membersOf.mp hm) with there | there
    · exact ha.field there
    · exact hb.field there

theorem WritesPlain.codec {record : Record α} (plain : record.WritesPlain) :
    record.codec.WritesPlain := by
  intro value
  show (Json.ofMembers (record.members value)).Plain
  rw [members_eq]
  refine .members ?_ ?_
  · refine (Json.names_membersOf_sublist _).nodup ?_
    rw [names_fields]
    exact plain.names
  · rintro ⟨name, json⟩ hm
    exact plain.field (Json.mem_membersOf.mp hm)

end Record

end LedgerClient
