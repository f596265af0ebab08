import LedgerClient.AccountId
import LedgerClient.Proofs.Notation.Entity
import LedgerClient.Proofs.Notation.Key

/-! The texts of accounts in their three parts. The last part tells the forms apart: a written key holds
a letter, and an address has forty digits even if all of them are decimal ones. -/

namespace LedgerClient

open Text

namespace EvmAddress

theorem toList_hex (address : EvmAddress) : address.hex.toList = Hex.digits address.bytes :=
  Hex.toList_encode address.bytes

theorem dropLead_hex (address : EvmAddress) :
    dropLead ['0', 'x'] address.hex.toList = address.hex.toList := by
  rw [toList_hex, Hex.dropLead_digits]

theorem parse_eq_ok_iff {text : String} {address : EvmAddress} :
    parse text = .ok address ↔
      (dropLead ['0', 'x'] text.toList).map Char.toLower = Hex.digits address.bytes := by
  rw [← String.toList_ofList (l := dropLead ['0', 'x'] text.toList), ← Hex.decode_eq_ok_iff]
  constructor
  · intro read
    rw [parse] at read
    split at read
    · cases read
    · split at read
      · cases read
      · next bytes decoded =>
        split at read
        · cases read
          exact decoded
        · cases read
  · intro decoded
    have lower := Hex.decode_eq_ok_iff.mp decoded
    have size : (String.ofList (dropLead ['0', 'x'] text.toList)).utf8ByteSize = 40 := by
      rw [String.toList_ofList] at lower
      rw [utf8ByteSize_ofList (Hex.isAscii_of_map_toLower lower), Hex.length_of_map_toLower lower,
        address.length_bytes]
    rw [parse]
    simp only [size, decoded]
    simp [address.length_bytes]

theorem parse_hex (address : EvmAddress) : parse address.hex = .ok address := by
  rw [parse_eq_ok_iff, dropLead_hex, toList_hex, Hex.map_toLower_digits]

theorem parse_text (address : EvmAddress) : parse address.text = .ok address := by
  have marked : address.text.toList = ['0', 'x'] ++ address.hex.toList := by
    simp [text]
  rw [parse_eq_ok_iff, marked, dropLead_append, toList_hex, Hex.map_toLower_digits]

end EvmAddress

namespace PublicKey

theorem letter_mem_text (key : PublicKey) : 'a' ∈ key.text.toList := by
  have found : (0x2A : UInt8) ∈ key.derBytes := by
    rw [derBytes, List.mem_append]
    left
    cases key.kind with
    | ed25519 => decide
    | ecdsa => decide
  rw [text, Hex.toList_encode]
  exact List.mem_flatMap.mpr ⟨0x2A, found, by decide⟩

end PublicKey

theorem length_toString_toNat (n : UInt64) : (toString n.toNat).toList.length ≤ 20 := by
  rw [length_toString_le_iff (by decide)]
  have := n.toNat_lt
  omega

namespace AccountId

def lastText (id : AccountId) : List Char :=
  match id.form with
  | .number num none => (toString num.toNat).toList
  | .number num (some checksum) => (toString num.toNat).toList ++ '-' :: checksum.text.toList
  | .key key => key.text.toList
  | .address address => address.hex.toList

theorem toList_text (id : AccountId) : id.text.toList =
    (toString id.shard.toNat).toList ++ '.' :: ((toString id.realm.toNat).toList ++
      '.' :: id.lastText) := by
  obtain ⟨shard, realm, form⟩ := id
  cases form with
  | number num checksum => cases checksum <;> simp [text, lastText, realmText]
  | key key => simp [text, lastText, realmText]
  | address address => simp [text, lastText, realmText]

theorem threeParts_append {first second : List Char} (isFirst : '.' ∉ first)
    (isSecond : '.' ∉ second) (last : List Char) :
    threeParts (first ++ '.' :: (second ++ '.' :: last)) = some (first, second, last) := by
  rw [threeParts, splitFirst_append isFirst]
  simp only [Option.bind_eq_bind, Option.bind_some, splitFirst_append isSecond]

theorem eq_of_joined {first second last front middle back : List Char} (isFirst : '.' ∉ first)
    (isSecond : '.' ∉ second) (isFront : '.' ∉ front) (isMiddle : '.' ∉ middle)
    (same : first ++ '.' :: (second ++ '.' :: last) = front ++ '.' :: (middle ++ '.' :: back)) :
    first = front ∧ second = middle ∧ last = back := by
  have cut := congrArg threeParts same
  rw [threeParts_append isFirst isSecond, threeParts_append isFront isMiddle] at cut
  cases cut
  exact ⟨rfl, rfl, rfl⟩

theorem takeWhile_of_not_mem {separator : Char} {text : List Char} (h : separator ∉ text)
    {rest : List Char} (stop : rest.head?.all (· == separator) = true) :
    (text ++ rest).takeWhile (· != separator) = text := by
  have passes : ∀ c ∈ text, (c != separator) = true := by
    intro c hc
    rw [bne_iff_ne]
    intro same
    exact h (same ▸ hc)
  rw [List.takeWhile_append_of_pos passes]
  have stopped : rest.takeWhile (· != separator) = [] := by
    cases rest with
    | nil => rfl
    | cons c rest =>
      rw [List.takeWhile_cons_of_neg]
      simpa using stop
  rw [stopped, List.append_nil]

theorem eq_of_append_dash {number other rest behind : List Char} (isNumber : '-' ∉ number)
    (isOther : '-' ∉ other) (stop : rest.head?.all (· == '-') = true)
    (stopBehind : behind.head?.all (· == '-') = true) (same : number ++ rest = other ++ behind) :
    number = other ∧ rest = behind := by
  have front : number = other := by
    rw [← takeWhile_of_not_mem isNumber stop, same, takeWhile_of_not_mem isOther stopBehind]
  exact ⟨front, List.append_cancel_left (front ▸ same)⟩

theorem isNumberPart_append {number rest : List Char} (dash : '-' ∉ number)
    (stop : rest.head?.all (· == '-') = true) :
    isNumberPart (number ++ rest) = (isDigits number && number.length != 40) := by
  rw [isNumberPart]
  simp only [takeWhile_of_not_mem dash stop]

theorem isNumberPart_of_not_mem {last : List Char} (dash : '-' ∉ last) :
    isNumberPart last = (isDigits last && last.length != 40) := by
  have whole := isNumberPart_append dash (rfl : ([] : List Char).head?.all _ = true)
  rwa [List.append_nil] at whole

theorem text_number (shard realm num : UInt64) (checksum : Option Checksum) :
    (⟨shard, realm, .number num checksum⟩ : AccountId).text =
      (⟨shard, realm, num, checksum⟩ : EntityId .entity).text := by
  cases checksum with
  | none => rfl
  | some checksum => rfl

end AccountId

end LedgerClient
