import LedgerClient.AccountId
import LedgerClient.Proofs.Checksum.Formula

/-! Which ledgers a checksum tells apart: those whose bytes denote numbers in base 31 that are not
congruent modulo 26^5. The numbers of one-byte ledgers are below the modulus, so all of these are
told apart. -/

namespace LedgerClient

theorem LedgerId.number_singleton (byte : UInt8) : LedgerId.number ⟨[byte]⟩ = byte.toNat := by
  simp [number, Checksum.positional]

theorem LedgerId.not_modEq_of_ne {first second : UInt8} (differ : first ≠ second) :
    ¬ LedgerId.number ⟨[first]⟩ ≡ LedgerId.number ⟨[second]⟩ [MOD 26 ^ 5] := by
  intro congruent
  rw [number_singleton, number_singleton] at congruent
  have first_lt := first.toNat_lt
  have second_lt := second.toNat_lt
  have same := congruent.eq_of_lt_of_lt (by omega) (by omega)
  exact differ (UInt8.toNat_inj.1 same)

theorem Checksum.generate_eq_of_ledgers_iff {entity : String} {ledger other : LedgerId} :
    generate entity ledger = generate entity other ↔
      ledger.number ≡ other.number [MOD 26 ^ 5] := by
  -- The zero bytes behind a ledger multiply its number by a power of 31, which is invertible.
  have coprime : Nat.gcd (26 ^ 5) (31 ^ 6) = 1 := by decide
  rw [generate_eq_iff]
  constructor
  · intro congruent
    exact Nat.ModEq.cancel_right_of_coprime coprime congruent.add_left_cancel'
  · intro congruent
    exact (congruent.mul_right _).add_left _

namespace CheckedId

def stamped (id : CheckedId) (ledger : LedgerId) : CheckedId :=
  { id with checksum := some (Checksum.generate id.text ledger) }

theorem validate_stamped_of_not_modEq (id : CheckedId) {ledger other : LedgerId}
    (differ : ¬ ledger.number ≡ other.number [MOD 26 ^ 5]) :
    (id.stamped ledger).validate other =
      .error (.checksumMismatch id.text (Checksum.generate id.text other)
        (Checksum.generate id.text ledger) other) := by
  have checksums : Checksum.generate id.text other ≠ Checksum.generate id.text ledger :=
    fun same => differ (Checksum.generate_eq_of_ledgers_iff.1 same.symm)
  rw [validate_of_carried rfl]
  exact if_neg checksums

theorem validate_stamped_eq_ok_iff (id : CheckedId) (ledger other : LedgerId) :
    (id.stamped ledger).validate other = .ok () ↔ ledger.number ≡ other.number [MOD 26 ^ 5] := by
  constructor
  · intro accepted
    by_contra differ
    rw [id.validate_stamped_of_not_modEq differ] at accepted
    cases accepted
  · intro congruent
    have checksums : Checksum.generate id.text other = Checksum.generate id.text ledger :=
      (Checksum.generate_eq_of_ledgers_iff.2 congruent).symm
    rw [validate_of_carried rfl]
    exact if_pos checksums

end CheckedId

/-- A checksum that was generated for one ledger is accepted on another one exactly if their numbers
are congruent modulo 26^5, and refused with both checksums otherwise; in particular every one-byte
ledger refuses the checksums of all others. -/
theorem Checksum.discriminates_ledgers :
    (∀ (id : CheckedId) (ledger other : LedgerId),
      ((id.stamped ledger).validate other = .ok () ↔
        ledger.number ≡ other.number [MOD 26 ^ 5]) ∧
      (¬ ledger.number ≡ other.number [MOD 26 ^ 5] →
        (id.stamped ledger).validate other =
          .error (.checksumMismatch id.text (generate id.text other) (generate id.text ledger)
            other))) ∧
    (∀ (kind : EntityKind) (id : EntityId kind) (first second : UInt8), first ≠ second →
      ({ id with checksum := some (generate id.baseText ⟨[first]⟩) } : EntityId kind).validateChecksum
          ⟨[second]⟩ =
        .error (.checksumMismatch id.baseText (generate id.baseText ⟨[second]⟩)
          (generate id.baseText ⟨[first]⟩) ⟨[second]⟩)) ∧
    ∀ (id : AccountId) (first second : UInt8), id.isNumeric → first ≠ second →
      (id.withChecksum (generate id.checked.text ⟨[first]⟩)).validateChecksum ⟨[second]⟩ =
        .error (.checksumMismatch id.checked.text (generate id.checked.text ⟨[second]⟩)
          (generate id.checked.text ⟨[first]⟩) ⟨[second]⟩) := by
  refine ⟨fun id ledger other => ⟨id.validate_stamped_eq_ok_iff ledger other,
    id.validate_stamped_of_not_modEq⟩, fun kind id first second differ => ?_,
    fun id first second numeric differ => ?_⟩
  · exact id.checked.validate_stamped_of_not_modEq (LedgerId.not_modEq_of_ne differ)
  · obtain ⟨shard, realm, form⟩ := id
    cases form with
    | number num checksum =>
      exact CheckedId.validate_stamped_of_not_modEq ⟨shard, realm, num, checksum⟩
        (LedgerId.not_modEq_of_ne differ)
    | key key => cases numeric
    | address address => cases numeric

theorem Checksum.discriminates_ledgers_testnet :
    (CheckedId.stamped ⟨0, 0, 123, none⟩ .testnet).validate ⟨[0, 1]⟩ = .ok () ∧
      (CheckedId.stamped ⟨0, 0, 123, none⟩ .testnet).validate ⟨[1, 0]⟩ =
        .error (.checksumMismatch "0.0.123" (generate "0.0.123" ⟨[1, 0]⟩)
          (generate "0.0.123" .testnet) ⟨[1, 0]⟩) ∧
      (⟨0, 0, 123, some (generate "0.0.123" .testnet)⟩ : TopicId).validateChecksum .mainnet =
        .error (.checksumMismatch "0.0.123" (generate "0.0.123" .mainnet)
          (generate "0.0.123" .testnet) .mainnet) ∧
      ((AccountId.ofNum 123).withChecksum (generate "0.0.123" .testnet)).validateChecksum
          .previewnet =
        .error (.checksumMismatch "0.0.123" (generate "0.0.123" .previewnet)
          (generate "0.0.123" .testnet) .previewnet) := by
  -- A zero byte in front of a ledger does not change its number, so it shares its checksums.
  obtain ⟨ids, entities, accounts⟩ := discriminates_ledgers
  refine ⟨?_, ?_, ?_, ?_⟩
  · exact (ids ⟨0, 0, 123, none⟩ .testnet ⟨[0, 1]⟩).1.2 (by decide)
  · exact (ids ⟨0, 0, 123, none⟩ .testnet ⟨[1, 0]⟩).2 (by decide)
  · exact entities .topic ⟨0, 0, 123, none⟩ 1 0 (by decide)
  · exact accounts (.ofNum 123) 1 2 rfl (by decide)

end LedgerClient
