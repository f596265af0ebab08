import LedgerClient.Proofs.Json.Decoded

/-! Where the faults of reading come from. A property of faults that malformed values have, and that
every fault of a part has, holds of each fault of the whole. A check that is added to reading refuses
some values of those that are read without it. -/

namespace LedgerClient

theorem Except.bind_eq_error {ε α β : Type} {first : Except ε α} {next : α → Except ε β}
    {fault : ε} (h : first >>= next = .error fault) :
    first = .error fault ∨ ∃ value, first = .ok value ∧ next value = .error fault := by
  cases first with
  | error other => exact .inl (congrArg _ (Except.error.inj h))
  | ok value => exact .inr ⟨value, rfl, h⟩

theorem Except.map_eq_error {ε α β : Type} {f : α → β} {first : Except ε α} {fault : ε}
    (h : f <$> first = .error fault) : first = .error fault := by
  cases first with
  | error other => exact congrArg _ (Except.error.inj h)
  | ok value => cases h

variable {holds : DecodeFault → Prop}

namespace Codec

variable {α : Type} {codec : Codec α}

theorem fault_of_checkEnding (malformed : holds .malformed) {ending : Json.Ending}
    {fault : DecodeFault} (h : checkEnding ending = .error fault) : holds fault := by
  cases ending with
  | broken => exact Except.error.inj h ▸ malformed
  | closed | counted => cases h

theorem fault_of_text (malformed : holds .malformed) {write : α → String}
    {parse : String → Except LedgerError α}
    (parts : ∀ text cause, parse text = .error cause → holds (.rejected cause)) {json : Json}
    {fault : DecodeFault} (h : (text write parse).decode json = .error fault) : holds fault := by
  cases json with
  | string value =>
    have refused : ofResult (parse value) = .error fault := h
    cases parsed : parse value with
    | ok value =>
      rw [parsed] at refused
      cases refused
    | error cause =>
      rw [parsed] at refused
      exact Except.error.inj refused ▸ parts value cause parsed
  | _ => exact Except.error.inj h ▸ malformed

theorem fault_of_decodeInt (malformed : holds .malformed) {low high : Int} {json : Json}
    {fault : DecodeFault} (h : decodeInt low high json = .error fault) : holds fault := by
  unfold decodeInt at h
  split at h
  · split at h
    · split at h
      · cases h
      · exact Except.error.inj h ▸ malformed
    · exact Except.error.inj h ▸ malformed
  · exact Except.error.inj h ▸ malformed

theorem fault_of_uint32 (malformed : holds .malformed) {json : Json} {fault : DecodeFault}
    (h : uint32.decode json = .error fault) : holds fault :=
  fault_of_decodeInt malformed (Except.map_eq_error h)

theorem fault_of_optional (parts : ∀ json fault, codec.decode json = .error fault → holds fault)
    {json : Json} {fault : DecodeFault} (h : codec.optional.decode json = .error fault) :
    holds fault := by
  cases json with
  | null => cases h
  | _ => exact parts _ _ (Except.map_eq_error h)

theorem fault_of_mapM (parts : ∀ json fault, codec.decode json = .error fault → holds fault)
    {items : List Json} {fault : DecodeFault} (h : items.mapM codec.decode = .error fault) :
    holds fault := by
  induction items with
  | nil => cases h
  | cons item rest ih =>
    rw [List.mapM_cons] at h
    rcases Except.bind_eq_error h with h | ⟨value, -, h⟩
    · exact parts item fault h
    · rcases Except.bind_eq_error h with h | ⟨others, -, h⟩
      · exact ih h
      · cases h

theorem fault_of_list (malformed : holds .malformed)
    (parts : ∀ json fault, codec.decode json = .error fault → holds fault) {json : Json}
    {fault : DecodeFault} (h : codec.list.decode json = .error fault) : holds fault := by
  cases json with
  | array items ending =>
    rcases Except.bind_eq_error h with h | ⟨values, -, h⟩
    · exact fault_of_mapM parts h
    · rcases Except.bind_eq_error h with h | ⟨_, -, h⟩
      · exact fault_of_checkEnding malformed h
      · cases h
  | _ => exact Except.error.inj h ▸ malformed

end Codec

namespace Record

variable {α : Type} {slots : List (Slot α)}

theorem fault_of_readMembers (malformed : holds .malformed)
    (parts : ∀ slot ∈ slots, ∀ json record fault, slot.read json record = .error fault →
      holds fault) {members : List (String × Json)} {seen : List String} {record : α}
    {fault : DecodeFault} (h : readMembers slots seen record members = .error fault) :
    holds fault := by
  induction members generalizing seen record with
  | nil => cases h
  | cons member rest ih =>
    obtain ⟨name, json⟩ := member
    rw [readMembers] at h
    split at h
    · exact ih h
    · next slot found =>
      split at h
      · exact Except.error.inj h ▸ malformed
      · rcases Except.bind_eq_error h with h | ⟨value, -, h⟩
        · exact parts slot (List.mem_of_find?_eq_some found) json record fault h
        · exact ih h

theorem fault_of_readItems (malformed : holds .malformed)
    (parts : ∀ slot ∈ slots, ∀ json record fault, slot.read json record = .error fault →
      holds fault) {items : List Json} {record : α} {fault : DecodeFault}
    (h : readItems slots record items = .error fault) : holds fault := by
  induction items generalizing slots record with
  | nil =>
    rw [readItems] at h
    split at h
    · exact Except.error.inj h ▸ malformed
    · cases h
  | cons json rest ih =>
    cases slots with
    | nil => exact Except.error.inj h ▸ malformed
    | cons slot slots =>
      rw [readItems] at h
      rcases Except.bind_eq_error h with h | ⟨value, -, h⟩
      · exact parts slot List.mem_cons_self json record fault h
      · exact ih (fun other ho => parts other (List.mem_cons_of_mem slot ho)) h

/-- Every fault of a record is one of its fields, or one of its form. -/
theorem fault_of_decode {record : Record α} (malformed : holds .malformed)
    (parts : ∀ slot ∈ record.slots, ∀ json value fault, slot.read json value = .error fault →
      holds fault) {json : Json} {fault : DecodeFault}
    (h : record.codec.decode json = .error fault) : holds fault := by
  cases json with
  | object members ending =>
    rcases Except.bind_eq_error h with h | ⟨⟨value, seen⟩, -, h⟩
    · exact fault_of_readMembers malformed parts h
    · rcases Except.bind_eq_error h with h | ⟨_, -, h⟩
      · exact Codec.fault_of_checkEnding malformed h
      · split at h
        · cases h
        · exact Except.error.inj h ▸ malformed
  | array items ending =>
    rcases Except.bind_eq_error h with h | ⟨value, -, h⟩
    · exact fault_of_readItems malformed parts h
    · rcases Except.bind_eq_error h with h | ⟨_, -, h⟩
      · exact Codec.fault_of_checkEnding malformed h
      · cases h
  | _ => exact Except.error.inj h ▸ malformed

end Record

/-- What a check adds to reading: where a value is read without it, the value is read, or refused for
a reason that lies in it. -/
def Checks {α : Type} (refusal : α → DecodeFault → Prop) (unchecked checked : Decoded α) : Prop :=
  ∀ value, unchecked = .ok value →
    checked = .ok value ∨ ∃ fault, refusal value fault ∧ checked = .error fault

namespace Checks

variable {α β : Type} {refusal : α → DecodeFault → Prop} {refusal' : β → DecodeFault → Prop}

theorem refl (decoded : Decoded α) : Checks refusal decoded decoded :=
  fun _ read => .inl read

theorem bind {unchecked checked : Decoded α} {next next' : α → Decoded β}
    (first : Checks refusal unchecked checked)
    (rest : ∀ value, Checks refusal' (next value) (next' value))
    (whole : ∀ value result fault, refusal value fault → next value = .ok result →
      refusal' result fault) : Checks refusal' (unchecked >>= next) (checked >>= next') := by
  intro result read
  obtain ⟨value, readFirst, read⟩ := Except.bind_eq_ok read
  rcases first value readFirst with same | ⟨fault, refused, failed⟩
  · rw [same]
    exact rest value result read
  · exact .inr ⟨fault, whole value result fault refused read, by rw [failed]; rfl⟩

theorem bind_refl (decoded : Decoded α) {next next' : α → Decoded β}
    (rest : ∀ value, Checks refusal' (next value) (next' value)) :
    Checks refusal' (decoded >>= next) (decoded >>= next') :=
  bind (refl decoded : Checks (fun _ _ => False) decoded decoded) rest
    fun _ _ _ refused => refused.elim

theorem map {unchecked checked : Decoded α} (build : α → β) (first : Checks refusal unchecked checked)
    (whole : ∀ value fault, refusal value fault → refusal' (build value) fault) :
    Checks refusal' (build <$> unchecked) (build <$> checked) := by
  intro result read
  obtain ⟨value, readFirst, rfl⟩ := Except.map_eq_ok read
  rcases first value readFirst with same | ⟨fault, refused, failed⟩
  · exact .inl (by rw [same]; rfl)
  · exact .inr ⟨fault, whole value fault refused, by rw [failed]; rfl⟩

end Checks

end LedgerClient
