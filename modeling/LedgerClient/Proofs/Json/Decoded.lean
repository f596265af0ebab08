import LedgerClient.Json.Record

/-! What holds of everything that is read: a property of records that the defaults have and that
every field keeps holds of each decoded record. -/

namespace LedgerClient

theorem Except.bind_eq_ok {ε α β : Type} {first : Except ε α} {next : α → Except ε β} {result : β}
    (h : first >>= next = .ok result) : ∃ value, first = .ok value ∧ next value = .ok result := by
  cases first with
  | error fault => cases h
  | ok value => exact ⟨value, rfl, h⟩

theorem Except.map_eq_ok {ε α β : Type} {f : α → β} {first : Except ε α} {result : β}
    (h : f <$> first = .ok result) : ∃ value, first = .ok value ∧ f value = result := by
  cases first with
  | error fault => cases h
  | ok value => exact ⟨value, rfl, Except.ok.inj h⟩

namespace Codec

variable {α : Type} {codec : Codec α}

theorem decode_of_optional {json : Json} {value : α}
    (h : codec.optional.decode json = .ok (some value)) :
    codec.decode json = .ok value := by
  cases json with
  | null => cases h
  | _ =>
    obtain ⟨_, read, same⟩ := Except.map_eq_ok h
    exact Option.some.inj same ▸ read

theorem mapM_mem {items : List Json} {values : List α} (h : items.mapM codec.decode = .ok values) :
    ∀ value ∈ values, ∃ item, codec.decode item = .ok value := by
  induction items generalizing values with
  | nil =>
    cases h
    intro value hv
    cases hv
  | cons item rest ih =>
    rw [List.mapM_cons] at h
    obtain ⟨first, read, h⟩ := Except.bind_eq_ok h
    obtain ⟨others, readRest, h⟩ := Except.bind_eq_ok h
    cases h
    intro value hv
    rcases List.mem_cons.mp hv with rfl | hv
    · exact ⟨item, read⟩
    · exact ih readRest value hv

theorem decode_of_list {json : Json} {values : List α} (h : codec.list.decode json = .ok values) :
    ∀ value ∈ values, ∃ item, codec.decode item = .ok value := by
  cases json with
  | array items ending =>
    obtain ⟨read, readAll, h⟩ := Except.bind_eq_ok h
    obtain ⟨-, -, h⟩ := Except.bind_eq_ok h
    cases h
    exact mapM_mem readAll
  | _ => cases h

end Codec

namespace Slot

variable {α β : Type} {holds : α → Prop}

def Preserves (holds : α → Prop) (slot : Slot α) : Prop :=
  ∀ json record result, holds record → slot.read json record = .ok result → holds result

theorem preserves_reader {slot : Slot α} {codec : Codec β} {set : β → α → α}
    (reads : slot.read = reader codec set)
    (h : ∀ json b record, codec.decode json = .ok b → holds record → holds (set b record)) :
    slot.Preserves holds := by
  intro json record result before read
  rw [reads] at read
  obtain ⟨b, decoded, rfl⟩ := Except.map_eq_ok read
  exact h json b record decoded before

theorem preserves_optional {name : String} {codec : Codec β} {get : α → Option β}
    {set : Option β → α → α}
    (h : ∀ b record, (∀ value, b = some value → ∃ json, codec.decode json = .ok value) →
      holds record → holds (set b record)) : (optional name codec get set).Preserves holds := by
  refine preserves_reader rfl ?_
  intro json b record decoded before
  refine h b record ?_ before
  rintro value rfl
  exact ⟨json, Codec.decode_of_optional decoded⟩

end Slot

namespace Record

variable {α : Type} {holds : α → Prop}

theorem readMembers_preserves {slots : List (Slot α)} {seen : List String}
    (kept : ∀ slot ∈ slots, slot.name ∉ seen → slot.Preserves holds)
    {members : List (String × Json)} {final : List String} {record result : α}
    (before : holds record) (h : readMembers slots seen record members = .ok (result, final)) :
    holds result := by
  induction members generalizing seen record with
  | nil =>
    cases h
    exact before
  | cons member rest ih =>
    obtain ⟨name, json⟩ := member
    rw [readMembers] at h
    split at h
    · exact ih kept before h
    · next slot found =>
      split at h
      · cases h
      · next fresh =>
        obtain ⟨value, read, h⟩ := Except.bind_eq_ok h
        have matched := List.find?_some found
        obtain rfl : slot.name = name := beq_iff_eq.mp matched
        have new : slot.name ∉ seen := fun hs => fresh (List.contains_iff_mem.mpr hs)
        have here := kept slot (List.mem_of_find?_eq_some found) new
        refine ih ?_ (here json record value before read) h
        exact fun other ho unseen => kept other ho fun hs => unseen (List.mem_cons_of_mem _ hs)

theorem readItems_preserves {slots : List (Slot α)} (kept : ∀ slot ∈ slots, slot.Preserves holds)
    {items : List Json} {record result : α} (before : holds record)
    (h : readItems slots record items = .ok result) : holds result := by
  induction items generalizing slots record with
  | nil =>
    rw [readItems] at h
    split at h
    · cases h
    · cases h
      exact before
  | cons json rest ih =>
    cases slots with
    | nil => cases h
    | cons slot slots =>
      rw [readItems] at h
      obtain ⟨value, read, h⟩ := Except.bind_eq_ok h
      exact ih (fun other ho => kept other (List.mem_cons_of_mem slot ho))
        (kept slot List.mem_cons_self json record value before read) h

theorem decodeMembers_eq_ok_iff {record : Record α} {members : List (String × Json)}
    {ending : Json.Ending} {value : α} :
    record.decodeMembers members ending = .ok value ↔
      ∃ seen, readMembers record.slots [] record.initial members = .ok (value, seen) ∧
        Codec.checkEnding ending = .ok () ∧
        ∀ slot ∈ record.slots, slot.required = true → slot.name ∈ seen := by
  constructor
  · intro h
    obtain ⟨⟨result, seen⟩, read, h⟩ := Except.bind_eq_ok h
    obtain ⟨_, ended, h⟩ := Except.bind_eq_ok h
    split at h
    · next complete =>
      cases h
      refine ⟨seen, read, ended, ?_⟩
      intro slot hs required
      have found := List.all_eq_true.mp complete slot hs
      rwa [required, Bool.not_true, Bool.false_or, List.contains_iff_mem] at found
    · cases h
  · rintro ⟨seen, read, ended, complete⟩
    have all : (record.slots.all fun slot => !slot.required || seen.contains slot.name) = true := by
      rw [List.all_eq_true]
      intro slot hs
      cases required : slot.required with
      | false => rfl
      | true => exact List.contains_iff_mem.mpr (complete slot hs required)
    rw [decodeMembers, read]
    show (do
      Codec.checkEnding ending
      if record.slots.all fun slot => !slot.required || seen.contains slot.name then return value
      else .error .malformed) = _
    rw [ended, all]
    rfl

theorem decodeMembers_preserves {record : Record α}
    (kept : ∀ slot ∈ record.slots, slot.Preserves holds) (initial : holds record.initial)
    {members : List (String × Json)} {ending : Json.Ending} {value : α}
    (h : record.decodeMembers members ending = .ok value) : holds value := by
  obtain ⟨seen, read, -⟩ := decodeMembers_eq_ok_iff.mp h
  exact readMembers_preserves (fun slot hs _ => kept slot hs) initial read

theorem decode_preserves {record : Record α} (kept : ∀ slot ∈ record.slots, slot.Preserves holds)
    (initial : holds record.initial) {json : Json} {value : α}
    (h : record.codec.decode json = .ok value) : holds value := by
  cases json with
  | object members ending => exact decodeMembers_preserves kept initial h
  | array items ending =>
    obtain ⟨result, read, h⟩ := Except.bind_eq_ok h
    obtain ⟨-, -, h⟩ := Except.bind_eq_ok h
    cases h
    exact readItems_preserves kept initial read
  | _ => cases h

end Record

end LedgerClient
