import LedgerClient.Bytes

/-!
Strict reading of the distinguished encoding rules: every element is a tag byte, a length in its
shortest definite form, and that many bytes. A structure is read completely or refused.
-/

namespace LedgerClient.Der

structure Element where
  tag : UInt8
  contents : Bytes

namespace Tag

def integer : UInt8 := 0x02
def bitString : UInt8 := 0x03
def octetString : UInt8 := 0x04
def objectIdentifier : UInt8 := 0x06
def sequence : UInt8 := 0x30

def isContext (tag : UInt8) : Bool :=
  tag &&& 0xC0 == 0x80

def isConstructed (tag : UInt8) : Bool :=
  tag &&& 0x20 != 0

def number (tag : UInt8) : Nat :=
  (tag &&& 0x1F).toNat

/-- Tags of the universal types that are known, and those of all other classes with a number
below 31. -/
def isKnown (tag : UInt8) : Bool :=
  if tag < 0x40 then
    tag ∈ [0x01, 0x02, 0x03, 0x04, 0x05, 0x06, 0x09, 0x0A, 0x0C, 0x12, 0x13, 0x14, 0x15, 0x16, 0x17,
      0x18, 0x1A, 0x1E, 0x30, 0x31]
  else number tag < 31

end Tag

def maxLength : Nat := 0xFFFFFFF

/-- The bytes that follow the first one of a long length: the digits in base 256, none leading. -/
def lengthDigits (length : Nat) : Nat :=
  if length < 0x100 then 1 else if length < 0x10000 then 2 else if length < 0x1000000 then 3 else 4

/-- Reads a length in its shortest form. -/
def readLength : Bytes → Option (Nat × Bytes)
  | [] => none
  | first :: rest =>
    if first < 0x80 then some (first.toNat, rest)
    else
      let count := first.toNat - 0x80
      let length := Bytes.toNatBigEndian (rest.take count)
      if 1 ≤ count ∧ count ≤ 4 ∧ count ≤ rest.length ∧ 0x80 ≤ length ∧ length ≤ maxLength ∧
          lengthDigits length = count then
        some (length, rest.drop count)
      else none

def readElement : Bytes → Option (Element × Bytes)
  | [] => none
  | tag :: rest =>
    if Tag.isKnown tag then
      match readLength rest with
      | some (length, rest) =>
        if length ≤ rest.length then some (⟨tag, rest.take length⟩, rest.drop length) else none
      | none => none
    else none

theorem length_of_readLength {bytes rest : Bytes} {length : Nat}
    (h : readLength bytes = some (length, rest)) : rest.length < bytes.length := by
  cases bytes with
  | nil => simp [readLength] at h
  | cons first tail =>
    rw [readLength] at h
    split at h
    · obtain ⟨-, rfl⟩ := Prod.mk.inj (Option.some.inj h)
      simp
    · dsimp only at h
      split at h
      · obtain ⟨-, rfl⟩ := Prod.mk.inj (Option.some.inj h)
        simp only [List.length_drop, List.length_cons]
        omega
      · simp at h

/-- An element takes at least two bytes, so reading one always makes progress. -/
theorem length_of_readElement {bytes rest : Bytes} {element : Element}
    (h : readElement bytes = some (element, rest)) : rest.length < bytes.length := by
  cases bytes with
  | nil => simp [readElement] at h
  | cons tag tail =>
    simp only [readElement] at h
    split at h
    · split at h
      · next length after found =>
        have := length_of_readLength found
        split at h
        · obtain ⟨-, rfl⟩ := Prod.mk.inj (Option.some.inj h)
          simp only [List.length_drop, List.length_cons]
          omega
        · simp at h
      · simp at h
    · simp at h

def readTagged (tag : UInt8) (bytes : Bytes) : Option (Bytes × Bytes) := do
  let (element, rest) ← readElement bytes
  guard (element.tag = tag)
  some (element.contents, rest)

def readWhole (bytes : Bytes) : Option Element := do
  let (element, rest) ← readElement bytes
  guard rest.isEmpty
  some element

def readWholeTagged (tag : UInt8) (bytes : Bytes) : Option Bytes := do
  let element ← readWhole bytes
  guard (element.tag = tag)
  some element.contents

/-- The bytes of a bit string that ends at a byte's end. -/
def bitStringBytes : Bytes → Option Bytes
  | 0 :: bytes => some bytes
  | _ => none

/-- Whether the bytes are base-128 numbers of at most 32 bits; `place` counts the bytes of the
current one. -/
def areArcs (place : Nat) : Bytes → Bool
  | [] => place == 0
  | byte :: rest =>
    (place < 4 || byte &&& 0xF0 == 0) && areArcs (if byte &&& 0x80 == 0 then 0 else place + 1) rest

def isObjectIdentifier : Bytes → Bool
  | [] => false
  | first :: rest => 2 ≤ rest.length && rest.length < 39 && first < 120 && areArcs 0 rest

/-- Looks for the context-specific field `number`, passing over fields of lower numbers. Returns
the field, if it is there, and what remains. -/
def readField (number : Nat) (bytes : Bytes) : Option (Option Element × Bytes) :=
  match bytes.head? with
  | none => some (none, [])
  | some tag =>
    if !Tag.isKnown tag then none
    else if !Tag.isContext tag || number < Tag.number tag then some (none, bytes)
    else
      match _h : readElement bytes with
      | none => none
      | some (element, rest) =>
        if Tag.number tag = number then some (some element, rest) else readField number rest
termination_by bytes.length
decreasing_by exact length_of_readElement _h

/-- What a constructed context-specific field holds: one whole element. -/
def explicitContents (field : Element) : Option Element := do
  guard (Tag.isContext field.tag && Tag.isConstructed field.tag)
  readWhole field.contents

def areFields (bytes : Bytes) : Bool :=
  if bytes.isEmpty then true
  else
    match _h : readElement bytes with
    | none => false
    | some (field, rest) => (explicitContents field).isSome && areFields rest
termination_by bytes.length
decreasing_by exact length_of_readElement _h

structure Algorithm where
  identifier : Bytes
  parameters : Option Element

def readAlgorithm (contents : Bytes) : Option Algorithm := do
  let (identifier, rest) ← readTagged Tag.objectIdentifier contents
  if rest.isEmpty then some ⟨identifier, none⟩
  else
    let parameters ← readWhole rest
    some ⟨identifier, some parameters⟩

end LedgerClient.Der
