import LedgerClient.AccountId
import LedgerClient.Proofs.Checksum.Formula
import LedgerClient.Proofs.Notation.Entity

/-! Checksums detect slips of the pen. A wrong or a swapped character changes one of the sums modulo
11, since digits and the point stand for different numbers up to ten; a missing or an additional one
changes the length modulo 5. -/

namespace LedgerClient

/-- One slip in a text: a wrong character, two neighbours in the wrong order, one character too many,
or one too few. -/
inductive Text.Edit {α : Type} : List α → List α → Prop
  | replace (front back : List α) {old new : α} :
      old ≠ new → Edit (front ++ old :: back) (front ++ new :: back)
  | swap (front back : List α) {left right : α} :
      left ≠ right → Edit (front ++ left :: right :: back) (front ++ right :: left :: back)
  | insert (front back : List α) (new : α) : Edit (front ++ back) (front ++ new :: back)
  | delete (front back : List α) (old : α) : Edit (front ++ old :: back) (front ++ back)

open Text

theorem Text.Edit.map {α β : Type} {first second : List α} (edit : Edit first second) {f : α → β}
    {p : α → Prop} (injective : ∀ a b, p a → p b → f a = f b → a = b) (ofFirst : ∀ a ∈ first, p a)
    (ofSecond : ∀ a ∈ second, p a) : Edit (first.map f) (second.map f) := by
  cases edit with
  | replace front back differ =>
    rw [List.map_append, List.map_append, List.map_cons, List.map_cons]
    exact .replace _ _ fun same =>
      differ (injective _ _ (ofFirst _ (by simp)) (ofSecond _ (by simp)) same)
  | swap front back differ =>
    simp only [List.map_append, List.map_cons]
    exact .swap _ _ fun same =>
      differ (injective _ _ (ofFirst _ (by simp)) (ofFirst _ (by simp)) same)
  | insert front back new =>
    simp only [List.map_append, List.map_cons]
    exact .insert _ _ _
  | delete front back old =>
    simp only [List.map_append, List.map_cons]
    exact .delete _ _ _

namespace Checksum

/-- Digits up to ten that are one edit apart differ in their length modulo 5 or in a sum modulo 11. -/
theorem textNumber_ne_of_edit {first second : List Nat} (edit : Edit first second)
    (ofFirst : ∀ digit ∈ first, digit ≤ 10) (ofSecond : ∀ digit ∈ second, digit ≤ 10) :
    textNumber first ≠ textNumber second := by
  intro same
  obtain ⟨length, even, odd, -⟩ := textNumber_eq_iff.1 same
  cases edit with
  | replace front back differ =>
    rename_i old new
    have old_le := ofFirst old (by simp)
    have new_le := ofSecond new (by simp)
    obtain ⟨evenFirst, oddFirst⟩ := evenSum_append_oddSum_append front (old :: back)
    obtain ⟨evenSecond, oddSecond⟩ := evenSum_append_oddSum_append front (new :: back)
    simp only [evenSum, oddSum] at evenFirst oddFirst evenSecond oddSecond
    rw [evenFirst, evenSecond] at even
    rw [oddFirst, oddSecond] at odd
    -- The place of the wrong digit decides which of the sums it is in.
    by_cases place : front.length % 2 = 0
    · simp only [if_pos place] at even
      omega
    · simp only [if_neg place] at odd
      omega
  | swap front back differ =>
    rename_i left right
    have left_le := ofFirst left (by simp)
    have right_le := ofFirst right (by simp)
    obtain ⟨evenFirst, oddFirst⟩ := evenSum_append_oddSum_append front (left :: right :: back)
    obtain ⟨evenSecond, oddSecond⟩ := evenSum_append_oddSum_append front (right :: left :: back)
    simp only [evenSum, oddSum] at evenFirst oddFirst evenSecond oddSecond
    rw [evenFirst, evenSecond] at even
    split at even <;> omega
  | insert front back new =>
    simp only [List.length_append, List.length_cons] at length
    omega
  | delete front back old =>
    simp only [List.length_append, List.length_cons] at length
    omega

/-! ## Texts of ids -/

def IsIdChar (c : Char) : Prop :=
  c.isDigit = true ∨ c = '.'

def IsIdText (text : String) : Prop :=
  ∀ c ∈ text.toList, IsIdChar c

instance : DecidablePred IsIdChar := fun c =>
  inferInstanceAs (Decidable (c.isDigit = true ∨ c = '.'))

instance : DecidablePred IsIdText := fun text => List.decidableBAll IsIdChar text.toList

def charDigit (c : Char) : Nat :=
  if c = '.' then 10 else digitValue c

def idChar (value : Nat) : Char :=
  if value = 10 then '.' else Char.ofNat (48 + value)

theorem idChar_charDigit {c : Char} (h : IsIdChar c) :
    charDigit c ≤ 10 ∧ idChar (charDigit c) = c := by
  rcases h with digit | rfl
  · obtain ⟨low, high⟩ := Char.isDigit_iff_toNat.1 digit
    have low : 48 ≤ c.toNat := low
    have high : c.toNat ≤ 57 := high
    have notPoint : c ≠ '.' := by
      rintro rfl
      cases digit
    have value : charDigit c = c.toNat - 48 := if_neg notPoint
    have notTen : c.toNat - 48 ≠ 10 := by omega
    rw [value, idChar, if_neg notTen, Nat.add_sub_of_le low, Char.ofNat_toNat]
    exact ⟨by omega, rfl⟩
  · decide

theorem charDigit_injective (c d : Char) (hc : IsIdChar c) (hd : IsIdChar d)
    (same : charDigit c = charDigit d) : c = d := by
  rw [← (idChar_charDigit hc).2, same, (idChar_charDigit hd).2]

theorem digits_utf8EncodeChar {c : Char} (h : IsIdChar c) :
    digits (String.utf8EncodeChar c) = [charDigit c] := by
  have encoded : ∀ value < 11, digits (String.utf8EncodeChar (idChar value)) = [value] := by decide
  obtain ⟨small, same⟩ := idChar_charDigit h
  have found := encoded (charDigit c) (Nat.lt_succ_of_le small)
  rwa [same] at found

theorem digits_ofText {text : String} (h : IsIdText text) :
    digits (Bytes.ofText text) = text.toList.map charDigit := by
  have bytes : ∀ characters : List Char, (∀ c ∈ characters, IsIdChar c) →
      digits (characters.flatMap String.utf8EncodeChar) = characters.map charDigit := by
    intro characters idChars
    induction characters with
    | nil => rfl
    | cons c rest ih =>
      obtain ⟨first, later⟩ := List.forall_mem_cons.1 idChars
      rw [List.flatMap_cons, digits, List.map_append, ← digits, ← digits, ih later,
        digits_utf8EncodeChar first]
      rfl
  exact bytes text.toList h

theorem generate_ne_of_edit {first second : String} (ofFirst : IsIdText first)
    (ofSecond : IsIdText second) (edit : Edit first.toList second.toList) (ledger : LedgerId) :
    generate first ledger ≠ generate second ledger := by
  intro same
  -- The ledger's part cancels, and what is left is below the modulus.
  have congruent := (generate_eq_iff.1 same).add_right_cancel'
  have equal := congruent.eq_of_lt_of_lt (textNumber_lt _) (textNumber_lt _)
  rw [digits_ofText ofFirst, digits_ofText ofSecond] at equal
  have edited : Edit (first.toList.map charDigit) (second.toList.map charDigit) :=
    edit.map charDigit_injective ofFirst ofSecond
  have small {text : String} (ofText : IsIdText text) :
      ∀ digit ∈ text.toList.map charDigit, digit ≤ 10 := by
    intro digit member
    obtain ⟨c, hc, rfl⟩ := List.mem_map.1 member
    exact (idChar_charDigit (ofText c hc)).1
  exact textNumber_ne_of_edit edited (small ofFirst) (small ofSecond) equal

end Checksum

namespace CheckedId

theorem isIdText_text (id : CheckedId) : Checksum.IsIdText id.text := by
  intro c member
  by_cases digit : c.isDigit = true
  · exact .inl digit
  by_cases point : c = '.'
  · exact .inr point
  exact absurd member (id.not_mem_text (Bool.eq_false_iff.2 digit) point)

theorem validate_of_edit (id other : CheckedId) {ledger : LedgerId}
    (edit : Edit id.text.toList other.text.toList)
    (carried : id.checksum = some (Checksum.generate other.text ledger)) :
    id.validate ledger =
      .error (.checksumMismatch id.text (Checksum.generate id.text ledger)
        (Checksum.generate other.text ledger) ledger) := by
  have differ := Checksum.generate_ne_of_edit id.isIdText_text other.isIdText_text edit ledger
  rw [validate_of_carried carried, if_neg differ]

end CheckedId

/-- On every ledger, one edit of an id's text changes its checksum, so that an id that carries the
checksum of its neighbour is refused there. -/
theorem Checksum.edits_detected (ledger : LedgerId) :
    (∀ first second : String, IsIdText first → IsIdText second →
      Edit first.toList second.toList → generate first ledger ≠ generate second ledger) ∧
    (∀ id other : CheckedId, Edit id.text.toList other.text.toList →
      id.checksum = some (generate other.text ledger) →
      id.validate ledger =
        .error (.checksumMismatch id.text (generate id.text ledger) (generate other.text ledger)
          ledger)) ∧
    (∀ (kind : EntityKind) (id : EntityId kind) (other : CheckedId),
      Edit id.baseText.toList other.text.toList →
      id.checksum = some (generate other.text ledger) →
      id.validateChecksum ledger =
        .error (.checksumMismatch id.baseText (generate id.baseText ledger)
          (generate other.text ledger) ledger)) ∧
    ∀ (id : AccountId) (other : CheckedId), Edit id.checked.text.toList other.text.toList →
      id.checksum = some (generate other.text ledger) →
      id.validateChecksum ledger =
        .error (.checksumMismatch id.checked.text (generate id.checked.text ledger)
          (generate other.text ledger) ledger) :=
  ⟨fun _ _ ofFirst ofSecond edit => generate_ne_of_edit ofFirst ofSecond edit ledger,
    fun id other => id.validate_of_edit other, fun _ id other => id.checked.validate_of_edit other,
    fun id other => id.checked.validate_of_edit other⟩

theorem Checksum.edits_detected_mainnet :
    generate "0.0.123" .mainnet ≠ generate "0.0.132" .mainnet ∧
      (⟨0, 0, 12, some (generate "0.0.123" .mainnet)⟩ : CheckedId).validate .mainnet =
        .error (.checksumMismatch "0.0.12" (generate "0.0.12" .mainnet)
          (generate "0.0.123" .mainnet) .mainnet) ∧
      (⟨0, 0, 173, some (generate "0.0.123" .mainnet)⟩ : TokenId).validateChecksum .mainnet =
        .error (.checksumMismatch "0.0.173" (generate "0.0.173" .mainnet)
          (generate "0.0.123" .mainnet) .mainnet) ∧
      (⟨0, 0, .number 1123 (some (generate "0.0.123" .mainnet))⟩ : AccountId).validateChecksum
          .mainnet =
        .error (.checksumMismatch "0.0.1123" (generate "0.0.1123" .mainnet)
          (generate "0.0.123" .mainnet) .mainnet) := by
  obtain ⟨texts, ids, entities, accounts⟩ := edits_detected .mainnet
  refine ⟨?_, ?_, ?_, ?_⟩
  · exact texts _ _ (by decide) (by decide)
      (.swap "0.0.1".toList [] (by decide : '2' ≠ '3'))
  · exact ids _ ⟨0, 0, 123, none⟩ (.insert "0.0.12".toList [] '3') rfl
  · exact entities .token _ ⟨0, 0, 123, none⟩
      (.replace "0.0.1".toList "3".toList (by decide : '7' ≠ '2')) rfl
  · exact accounts _ ⟨0, 0, 123, none⟩ (.delete "0.0.1".toList "23".toList '1') rfl

end LedgerClient
