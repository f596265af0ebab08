import LedgerClient.EntityId
import LedgerClient.Proofs.Text.Decimal
import LedgerClient.Proofs.Text.Hex
import LedgerClient.Proofs.Text.Split

/-! Checksums and entity ids are read from their texts. The numbers of an id are digits, so its first
dash, if there is one, begins the checksum. -/

namespace LedgerClient

open Text

namespace Checksum

def letter (place : Nat) : Char :=
  Char.ofNat ('a'.toNat + place % 26)

theorem bytes_letter : ∀ place < 26,
    String.utf8EncodeChar (letter place) = [UInt8.ofNat (97 + place)] ∧
      isLetter (UInt8.ofNat (97 + place)) = true ∧
      (UInt8.ofNat (97 + place) - 0x61).toNat = place := by
  decide

theorem letter_mod (place : Nat) : letter (place % 26) = letter place := by
  rw [letter, Nat.mod_mod, letter]

theorem letters_eq (checksum : Checksum) : checksum.letters =
    [letter (checksum.value.val / 456976), letter (checksum.value.val / 17576),
      letter (checksum.value.val / 676), letter (checksum.value.val / 26),
      letter checksum.value.val] := rfl

theorem ofLetterValues_places (checksum : Checksum) :
    ofLetterValues [checksum.value.val / 456976 % 26, checksum.value.val / 17576 % 26,
      checksum.value.val / 676 % 26, checksum.value.val / 26 % 26, checksum.value.val % 26] =
      checksum := by
  have bound := checksum.value.isLt
  have total : ((((0 * 26 + checksum.value.val / 456976 % 26) * 26 +
      checksum.value.val / 17576 % 26) * 26 + checksum.value.val / 676 % 26) * 26 +
      checksum.value.val / 26 % 26) * 26 + checksum.value.val % 26 = checksum.value.val := by
    omega
  rw [ofLetterValues]
  simp only [List.foldl_cons, List.foldl_nil, total]
  congr 1
  exact Fin.ext (Nat.mod_eq_of_lt bound)

theorem parse_text (checksum : Checksum) : parse checksum.text = .ok checksum := by
  have places : ∀ place : Nat, ∃ byte, String.utf8EncodeChar (letter place) = [byte] ∧
      isLetter byte = true ∧ (byte - 0x61).toNat = place % 26 := by
    intro place
    have found := bytes_letter (place % 26) (Nat.mod_lt _ (by decide))
    rw [letter_mod] at found
    exact ⟨_, found⟩
  obtain ⟨a, textA, letterA, valueA⟩ := places (checksum.value.val / 456976)
  obtain ⟨b, textB, letterB, valueB⟩ := places (checksum.value.val / 17576)
  obtain ⟨c, textC, letterC, valueC⟩ := places (checksum.value.val / 676)
  obtain ⟨d, textD, letterD, valueD⟩ := places (checksum.value.val / 26)
  obtain ⟨e, textE, letterE, valueE⟩ := places checksum.value.val
  have bytes : Bytes.ofText checksum.text = [a, b, c, d, e] := by
    rw [Bytes.ofText, text, String.toList_ofList, letters_eq]
    simp only [List.flatMap_cons, List.flatMap_nil, textA, textB, textC, textD, textE]
    rfl
  rw [parse]
  simp only [bytes, List.length_cons, List.length_nil, List.all_cons, List.all_nil, letterA, letterB,
    letterC, letterD, letterE, Bool.and_self, if_true, List.map_cons, List.map_nil, valueA, valueB,
    valueC, valueD, valueE, ofLetterValues_places]
  rfl

end Checksum

theorem parseComponent_digits {part : List Char} (h : isDigits part = true)
    (fits : digitsValue part < UInt64.size) (input : String) :
    parseComponent input part = .ok (.ofNat (digitsValue part)) := by
  rw [parseComponent, if_pos h,
    readMagnitude_digits (AllDigits.of_isDigits h) (Nat.le_sub_one_of_lt fits)]

theorem parseComponent_toString (n : UInt64) (input : String) :
    parseComponent input (toString n.toNat).toList = .ok n := by
  have fits : digitsValue (toString n.toNat).toList < UInt64.size := by
    rw [digitsValue_toString]
    exact n.toNat_lt
  rw [parseComponent_digits (isDigits_toString _) fits, digitsValue_toString, UInt64.ofNat_toNat]

theorem CheckedId.not_mem_text (id : CheckedId) {c : Char} (digit : c.isDigit = false)
    (point : c ≠ '.') : c ∉ id.text.toList := by
  have part : ∀ n : Nat, c ∉ (toString n).toList := fun n => (allDigits_toString n).not_mem digit
  simp only [CheckedId.text, String.toList_append, List.mem_append, not_or]
  have separator : c ∉ ".".toList := by
    simp [point]
  exact ⟨⟨⟨⟨part _, separator⟩, part _⟩, separator⟩, part _⟩

theorem CheckedId.toList_text (id : CheckedId) : id.text.toList =
    (toString id.shard.toNat).toList ++ '.' :: ((toString id.realm.toNat).toList ++
      '.' :: (toString id.num.toNat).toList) := by
  simp [CheckedId.text]

namespace EntityId

variable {kind : EntityKind}

theorem parseBody_text (id : EntityId kind) (input : String) (checksum : Option Checksum) :
    (parseBody input checksum id.baseText.toList : Except LedgerError (EntityId kind)) =
      .ok { id with checksum } := by
  have part : ∀ n : UInt64, '.' ∉ (toString n.toNat).toList := fun n =>
    (allDigits_toString _).not_mem (by decide)
  have split : splitAll '.' id.baseText.toList = [(toString id.shard.toNat).toList,
      (toString id.realm.toNat).toList, (toString id.num.toNat).toList] := by
    have text : id.baseText.toList = (toString id.shard.toNat).toList ++ '.' ::
        ((toString id.realm.toNat).toList ++ '.' :: (toString id.num.toNat).toList) :=
      id.checked.toList_text
    rw [text, splitAll_append (part id.shard), splitAll_append (part id.realm),
      splitAll_of_not_mem (part id.num)]
  rw [parseBody, split]
  simp only [parseComponent_toString]
  rfl

theorem parse_text (id : EntityId kind) : parse id.text = .ok id := by
  have dash : '-' ∉ id.baseText.toList := id.checked.not_mem_text (by decide) (by decide)
  cases carried : id.checksum with
  | none =>
    have text : id.text = id.baseText := by rw [EntityId.text, carried]
    rw [parse, text, splitFirst_of_not_mem dash]
    rw [parseBody_text, ← carried]
  | some checksum =>
    have text : id.text.toList = id.baseText.toList ++ '-' :: checksum.text.toList := by
      rw [EntityId.text, carried]
      simp
    rw [parse, text, splitFirst_append dash]
    simp only [String.ofList_toList, Checksum.parse_text, bind, Except.bind, parseBody_text,
      ← carried]

end EntityId

end LedgerClient
