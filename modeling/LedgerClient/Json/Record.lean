import LedgerClient.Json.Codec

/-!
Records as JSON objects. A record is described by its slots: the name of each field, how it is
written, and how a value read for it is put into the record. Fields may be missing if they have a
default, unknown fields are passed over, and a field given twice is a fault. A record may also be
given as the array of its fields in their order.
-/

namespace LedgerClient

/-- A field of a record of type `α`. -/
structure Slot (α : Type) where
  name : String
  /-- The field's JSON, or none where the field is left out. -/
  write : α → Option Json
  read : Json → α → Decoded α
  required : Bool := false

/-- The fields of a record, and the record that has the default in every field. -/
structure Record (α : Type) where
  initial : α
  slots : List (Slot α)

namespace Slot

variable {α β : Type}

def reader (codec : Codec β) (set : β → α → α) (json : Json) (record : α) : Decoded α :=
  (set · record) <$> codec.decode json

/-- A field that is always written and must be there. -/
def mandatory (name : String) (codec : Codec β) (get : α → β) (set : β → α → α) : Slot α where
  name
  write record := some (codec.encode (get record))
  read := reader codec set
  required := true

/-- A field that is always written and may be missing. -/
def defaulted (name : String) (codec : Codec β) (get : α → β) (set : β → α → α) : Slot α where
  name
  write record := some (codec.encode (get record))
  read := reader codec set

/-- A field that is left out unless it is set. -/
def optional (name : String) (codec : Codec β) (get : α → Option β) (set : Option β → α → α) :
    Slot α where
  name
  write record := (get record).map codec.encode
  read := reader codec.optional set

/-- A field that is written as null where it is not set. -/
def nullable (name : String) (codec : Codec β) (get : α → Option β) (set : Option β → α → α) :
    Slot α :=
  defaulted name codec.optional get set

/-- A text that is left out while it is empty. -/
def memo (name : String) (get : α → String) (set : String → α → α) : Slot α where
  name
  write record := if get record = "" then none else some (.string (get record))
  read := reader Codec.string set

/-- The slot of a part as a slot of the whole. -/
def within (get : α → β) (set : β → α → α) (slot : Slot β) : Slot α where
  name := slot.name
  write record := slot.write (get record)
  read json record := (set · record) <$> slot.read json (get record)
  required := slot.required

end Slot

namespace Record

variable {α : Type}

def members (record : Record α) (value : α) : List (String × Json) :=
  record.slots.filterMap fun slot => (slot.write value).map (slot.name, ·)

/-- Reads members in the order of the text; `seen` holds the names of the fields read so far. -/
def readMembers (slots : List (Slot α)) (seen : List String) (value : α) :
    List (String × Json) → Decoded (α × List String)
  | [] => .ok (value, seen)
  | (name, json) :: rest =>
    match slots.find? (·.name == name) with
    | none => readMembers slots seen value rest
    | some slot =>
      if seen.contains name then .error .malformed
      else do
        let value ← slot.read json value
        readMembers slots (name :: seen) value rest

/-- Reads the items of an array into the slots one by one. -/
def readItems : List (Slot α) → (value : α) → List Json → Decoded α
  | slots, value, [] => if slots.any (·.required) then .error .malformed else .ok value
  | [], _, _ :: _ => .error .malformed
  | slot :: slots, value, json :: rest => do
    let value ← slot.read json value
    readItems slots value rest

def decodeMembers (record : Record α) (members : List (String × Json)) (ending : Json.Ending) :
    Decoded α := do
  let (value, seen) ← readMembers record.slots [] record.initial members
  Codec.checkEnding ending
  if record.slots.all fun slot => !slot.required || seen.contains slot.name then return value
  else .error .malformed

def codec (record : Record α) : Codec α where
  encode value := Json.ofMembers (record.members value)
  decode
    | .object members ending => record.decodeMembers members ending
    | .array items ending => do
      let value ← readItems record.slots record.initial items
      Codec.checkEnding ending
      return value
    | _ => .error .malformed

end Record

end LedgerClient
