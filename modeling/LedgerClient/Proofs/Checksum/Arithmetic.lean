import LedgerClient.Proofs.Checksum.Edits
import Mathlib.Algebra.BigOperators.Fin

/-! The arithmetic of checksums. The words compute what the published formula says over unbounded
numbers, and they never overflow on the way: the same computation, with additions and multiplications
that stop where a word is too small, gives the same checksum for all bytes and every ledger. -/

namespace LedgerClient

namespace Checksum

/-! ## The published formula -/

/-- The number behind a checksum, from the digits of a text and the bytes of a ledger. -/
def published (digits ledger : List Nat) : Nat :=
  let bytes := ledger ++ List.replicate 6 0
  let s := (∑ i : Fin digits.length, digits[i] * 31 ^ (digits.length - 1 - i)) % 26 ^ 3
  let even := (∑ i : Fin digits.length with i.val % 2 = 0, digits[i]) % 11
  let odd := (∑ i : Fin digits.length with i.val % 2 = 1, digits[i]) % 11
  let h := (∑ i : Fin bytes.length, bytes[i] * 31 ^ (bytes.length - 1 - i)) % 26 ^ 5
  (((digits.length % 5 * 11 + even) * 11 + odd) * 26 ^ 3 + s + h) % 26 ^ 5 * 1000003 % 26 ^ 5

theorem positional_eq_sum (base : Nat) (digits : List Nat) :
    positional base digits =
      ∑ i : Fin digits.length, digits[i] * base ^ (digits.length - 1 - i) := by
  induction digits with
  | nil => rfl
  | cons digit rest ih =>
    simp only [List.length_cons]
    rw [positional, ih, Fin.sum_univ_succ]
    congr 1
    refine Finset.sum_congr rfl fun i _ => ?_
    have place : rest.length + 1 - 1 - i.succ = rest.length - 1 - i := by
      rw [Fin.val_succ]
      omega
    rw [place]
    rfl

theorem evenSum_oddSum_eq_sum (digits : List Nat) :
    evenSum digits = ∑ i : Fin digits.length with i.val % 2 = 0, digits[i] ∧
      oddSum digits = ∑ i : Fin digits.length with i.val % 2 = 1, digits[i] := by
  induction digits with
  | nil => exact ⟨rfl, rfl⟩
  | cons digit rest ih =>
    obtain ⟨even, odd⟩ := ih
    simp only [Finset.sum_filter, List.length_cons] at even odd ⊢
    rw [evenSum, oddSum, even, odd, Fin.sum_univ_succ, Fin.sum_univ_succ]
    -- Behind the first digit, even places become odd and odd ones even.
    simp [Nat.succ_mod_two_eq_zero_iff, Nat.succ_mod_two_eq_one_iff]

theorem val_generate_eq_published (entity : String) (ledger : LedgerId) :
    (generate entity ledger).value.val =
      published (digits (Bytes.ofText entity)) (ledger.bytes.map UInt8.toNat) := by
  have zeros : positional 31 (ledger.bytes.map UInt8.toNat ++ List.replicate 6 0) =
      ledger.number * 31 ^ 6 := by
    rw [positional_append, positional_replicate_zero, List.length_replicate, Nat.add_zero,
      LedgerId.number]
  have sums := evenSum_oddSum_eq_sum (digits (Bytes.ofText entity))
  rw [published, val_generate, textNumber, sums.1, sums.2, positional_eq_sum, ← zeros,
    positional_eq_sum 31 (_ ++ _), Nat.add_mod_mod]

theorem positional_letters (checksum : Checksum) :
    positional 26 (checksum.letters.map fun c => c.toNat - 'a'.toNat) = checksum.value.val := by
  have place (n : Nat) : (letter n).toNat - 'a'.toNat = n % 26 := by
    have small : ∀ n < 26, (letter n).toNat - 'a'.toNat = n := by decide
    rw [← letter_mod]
    exact small _ (Nat.mod_lt _ (by decide))
  have bound := checksum.value.isLt
  rw [letters_eq]
  simp only [List.map_cons, List.map_nil, place, positional, List.length_cons, List.length_nil]
  omega

/-! ## Words -/

/-- How words are added and multiplied, with what becomes of an overflow. -/
structure WordArithmetic (m : Type → Type) where
  add : UInt64 → UInt64 → m UInt64
  mul : UInt64 → UInt64 → m UInt64

namespace WordArithmetic

def wrapping : WordArithmetic Id where
  add a b := a + b
  mul a b := a * b

/-- There is no result beyond a word. -/
def trapping : WordArithmetic Option where
  add a b := if a.toNat + b.toNat < UInt64.size then some (a + b) else none
  mul a b := if a.toNat * b.toNat < UInt64.size then some (a * b) else none

variable {m : Type → Type} [Monad m] (words : WordArithmetic m)

def weigh (modulus sum digit : UInt64) : m UInt64 := do
  let shifted ← words.mul weight sum
  let total ← words.add shifted digit
  return total % modulus

def addDigit (sums : DigitSums) (d : UInt64) : m DigitSums := do
  let weighted ← words.weigh digitModulus sums.weighted d
  let length := sums.length + 1
  if sums.length % 2 = 0 then
    let even ← words.add sums.even d
    return { weighted, even := even % 11, odd := sums.odd, length }
  else
    let odd ← words.add sums.odd d
    return { weighted, even := sums.even, odd := odd % 11, length }

def combine (sums : DigitSums) (ledgerSum : UInt64) : m UInt64 := do
  let length ← words.mul (.ofNat (sums.length % 5)) 11
  let even ← words.add length sums.even
  let shifted ← words.mul even 11
  let odd ← words.add shifted sums.odd
  let raised ← words.mul odd digitModulus
  let weighted ← words.add raised sums.weighted
  let total ← words.add weighted ledgerSum
  let spread ← words.mul (total % modulus) multiplier
  return spread % modulus

def checksum (bytes : Bytes) (ledger : LedgerId) : m Checksum := do
  let sums ← bytes.foldlM (fun sums byte => words.addDigit sums (digit byte)) {}
  let ledgerSum ← (ledger.bytes ++ List.replicate 6 0).foldlM
    (fun sum (byte : UInt8) => words.weigh modulus sum byte.toUInt64) 0
  let value ← words.combine sums ledgerSum
  return ⟨⟨value.toNat % 11881376, Nat.mod_lt _ (by decide)⟩⟩

theorem wrapping_addDigit (sums : DigitSums) (d : UInt64) :
    wrapping.addDigit sums d = pure (sums.add d) := by
  rw [addDigit, DigitSums.add]
  split <;> rfl

theorem wrapping_addDigits (bytes : Bytes) :
    bytes.foldlM (fun sums byte => wrapping.addDigit sums (digit byte)) {} =
      (pure (DigitSums.ofBytes bytes) : Id DigitSums) := by
  simp only [wrapping_addDigit, List.foldlM_pure]
  rfl

theorem wrapping_ledgerSum (bytes : Bytes) :
    bytes.foldlM (fun sum (byte : UInt8) => wrapping.weigh modulus sum byte.toUInt64) 0 =
      (pure (bytes.foldl (fun sum byte => (weight * sum + byte.toUInt64) % modulus) 0) :
        Id UInt64) :=
  List.foldlM_pure

theorem wrapping_checksum (entity : String) (ledger : LedgerId) :
    (wrapping.checksum (Bytes.ofText entity) ledger).run = generate entity ledger := by
  rw [checksum, wrapping_addDigits, wrapping_ledgerSum]
  rfl

theorem trapping_add {a b : UInt64} {m n : Nat} (ha : a.toNat ≤ m) (hb : b.toNat ≤ n)
    (fits : m + n < UInt64.size) :
    trapping.add a b = some (a + b) ∧ (a + b).toNat ≤ m + n := by
  have small : a.toNat + b.toNat < UInt64.size := Nat.lt_of_le_of_lt (Nat.add_le_add ha hb) fits
  refine ⟨if_pos small, ?_⟩
  rw [UInt64.toNat_add]
  exact Nat.le_trans (Nat.mod_le _ _) (Nat.add_le_add ha hb)

theorem trapping_mul {a b : UInt64} {m n : Nat} (ha : a.toNat ≤ m) (hb : b.toNat ≤ n)
    (fits : m * n < UInt64.size) :
    trapping.mul a b = some (a * b) ∧ (a * b).toNat ≤ m * n := by
  have small : a.toNat * b.toNat < UInt64.size := Nat.lt_of_le_of_lt (Nat.mul_le_mul ha hb) fits
  refine ⟨if_pos small, ?_⟩
  rw [UInt64.toNat_mul]
  exact Nat.le_trans (Nat.mod_le _ _) (Nat.mul_le_mul ha hb)

theorem trapping_weigh {modulus sum d : UInt64} (sum_lt : sum.toNat < 26 ^ 5)
    (small : d.toNat < 256) :
    trapping.weigh modulus sum d = some ((weight * sum + d) % modulus) := by
  obtain ⟨shifted, bound⟩ := trapping_mul (Nat.le_refl weight.toNat) (Nat.le_of_lt sum_lt)
    (by decide)
  obtain ⟨total, -⟩ := trapping_add bound (Nat.le_of_lt small) (by decide)
  rw [weigh, shifted]
  simp only [Option.bind_eq_bind, Option.bind_some, total]
  rfl

theorem trapping_addDigit {sums : DigitSums} {taken : List Nat} (held : sums.Holds taken)
    {d : UInt64} (small : d.toNat < 256) : trapping.addDigit sums d = some (sums.add d) := by
  have weighted_lt : sums.weighted.toNat < 26 ^ 5 := by
    rw [held.weighted]
    exact Nat.lt_trans (Nat.mod_lt _ (by decide)) (by decide)
  have next (sum : UInt64) (sum_le : sum.toNat ≤ 11) : trapping.add sum d = some (sum + d) :=
    (trapping_add sum_le (Nat.le_of_lt small) (by decide)).1
  have even_le : sums.even.toNat ≤ 11 := held.even ▸ Nat.le_of_lt (Nat.mod_lt _ (by decide))
  have odd_le : sums.odd.toNat ≤ 11 := held.odd ▸ Nat.le_of_lt (Nat.mod_lt _ (by decide))
  rw [addDigit, trapping_weigh weighted_lt small, next _ even_le, next _ odd_le, DigitSums.add]
  split <;> rfl

theorem trapping_addDigits {sums : DigitSums} {taken : List Nat} (held : sums.Holds taken)
    (bytes : Bytes) :
    bytes.foldlM (fun sums byte => trapping.addDigit sums (digit byte)) sums =
      some (bytes.foldl (fun sums byte => sums.add (digit byte)) sums) := by
  induction bytes generalizing sums taken with
  | nil => rfl
  | cons byte rest ih =>
    have small := toNat_digit_lt byte
    rw [List.foldlM_cons, trapping_addDigit held small]
    exact ih (held.add small)

theorem trapping_ledgerSum {sum : UInt64} (sum_lt : sum.toNat < 26 ^ 5) (bytes : Bytes) :
    bytes.foldlM (fun sum (byte : UInt8) => trapping.weigh modulus sum byte.toUInt64) sum =
      some (bytes.foldl (fun sum byte => (weight * sum + byte.toUInt64) % modulus) sum) := by
  induction bytes generalizing sum with
  | nil => rfl
  | cons byte rest ih =>
    have small : byte.toUInt64.toNat < 256 := by
      rw [UInt8.toNat_toUInt64]
      exact byte.toNat_lt
    have reduced : ((weight * sum + byte.toUInt64) % modulus).toNat < 26 ^ 5 := by
      rw [UInt64.toNat_mod]
      exact Nat.mod_lt _ (by decide)
    rw [List.foldlM_cons, trapping_weigh sum_lt small]
    exact ih reduced

theorem bind_eq_some_of_eq_some {α β : Type} {first : Option α} {value : α} {next : α → Option β}
    {result : β} (found : first = some value) (rest : next value = some result) :
    first >>= next = some result :=
  Option.bind_eq_some_iff.mpr ⟨value, found, rest⟩

theorem trapping_combine {sums : DigitSums} {taken : List Nat} (held : sums.Holds taken)
    {ledgerSum : UInt64} (ledgerSum_lt : ledgerSum.toNat < 26 ^ 5) :
    trapping.combine sums ledgerSum = some (wrapping.combine sums ledgerSum).run := by
  have length_le : (UInt64.ofNat (sums.length % 5)).toNat ≤ 4 := by
    rw [UInt64.toNat_ofNat']
    omega
  have even_le : sums.even.toNat ≤ 10 := held.even ▸ Nat.le_of_lt_succ (Nat.mod_lt _ (by decide))
  have odd_le : sums.odd.toNat ≤ 10 := held.odd ▸ Nat.le_of_lt_succ (Nat.mod_lt _ (by decide))
  have weighted_le : sums.weighted.toNat ≤ 26 ^ 3 :=
    held.weighted ▸ Nat.le_of_lt (Nat.mod_lt _ (by decide))
  obtain ⟨length, length_le⟩ := trapping_mul length_le (Nat.le_refl (11 : UInt64).toNat) (by decide)
  obtain ⟨even, even_le⟩ := trapping_add length_le even_le (by decide)
  obtain ⟨shifted, shifted_le⟩ := trapping_mul even_le (Nat.le_refl (11 : UInt64).toNat) (by decide)
  obtain ⟨odd, odd_le⟩ := trapping_add shifted_le odd_le (by decide)
  obtain ⟨raised, raised_le⟩ := trapping_mul odd_le (Nat.le_refl digitModulus.toNat) (by decide)
  obtain ⟨weighted, weighted_le⟩ := trapping_add raised_le weighted_le (by decide)
  obtain ⟨total, -⟩ := trapping_add weighted_le (Nat.le_of_lt ledgerSum_lt) (by decide)
  have reduced (value : UInt64) : (value % modulus).toNat ≤ 26 ^ 5 := by
    rw [UInt64.toNat_mod]
    exact Nat.le_of_lt (Nat.mod_lt _ (by decide))
  have spread (value : UInt64) :=
    (trapping_mul (reduced value) (Nat.le_refl multiplier.toNat) (by decide)).1
  have wrapped : (wrapping.combine sums ledgerSum).run =
      (((UInt64.ofNat (sums.length % 5) * 11 + sums.even) * 11 + sums.odd) * digitModulus +
        sums.weighted + ledgerSum) % modulus * multiplier % modulus := rfl
  rw [wrapped, combine]
  refine bind_eq_some_of_eq_some length ?_
  refine bind_eq_some_of_eq_some even ?_
  refine bind_eq_some_of_eq_some shifted ?_
  refine bind_eq_some_of_eq_some odd ?_
  refine bind_eq_some_of_eq_some raised ?_
  refine bind_eq_some_of_eq_some weighted ?_
  refine bind_eq_some_of_eq_some total ?_
  exact bind_eq_some_of_eq_some (spread _) rfl

theorem trapping_checksum (bytes : Bytes) (ledger : LedgerId) :
    trapping.checksum bytes ledger = some (wrapping.checksum bytes ledger).run := by
  have start : ({} : DigitSums).Holds [] := ⟨rfl, rfl, rfl, rfl⟩
  have zero_lt : (0 : UInt64).toNat < 26 ^ 5 := by decide
  have ledgerSum_lt : (ledgerSum ledger).toNat < 26 ^ 5 := by
    rw [toNat_ledgerSum]
    exact Nat.mod_lt _ (by decide)
  have combined := trapping_combine (DigitSums.holds_ofBytes bytes) ledgerSum_lt
  rw [checksum, checksum, trapping_addDigits start, trapping_ledgerSum zero_lt,
    wrapping_addDigits, wrapping_ledgerSum]
  simp only [Option.bind_eq_bind, Option.bind_some]
  show (do
    let value ← trapping.combine (DigitSums.ofBytes bytes) (ledgerSum ledger)
    some (⟨⟨value.toNat % 11881376, Nat.mod_lt _ (by decide)⟩⟩ : Checksum)) = _
  rw [combined]
  rfl

end WordArithmetic

open WordArithmetic

/-- The checksum of a text of digits and points is the number of the published formula, written in base
26; and whatever the text, no word overflows on the way and the number is below 26^5. -/
theorem follows_published (ledger : LedgerId) :
    (∀ entity : String, IsIdText entity →
      (generate entity ledger).value.val =
          published (entity.toList.map charDigit) (ledger.bytes.map UInt8.toNat) ∧
        positional 26 ((generate entity ledger).letters.map fun c => c.toNat - 'a'.toNat) =
          published (entity.toList.map charDigit) (ledger.bytes.map UInt8.toNat)) ∧
    (∀ entity : String,
      (wrapping.checksum (Bytes.ofText entity) ledger).run = generate entity ledger ∧
        trapping.checksum (Bytes.ofText entity) ledger = some (generate entity ledger) ∧
        (generate entity ledger).value.val < 26 ^ 5) ∧
    ∀ bytes : Bytes,
      trapping.checksum bytes ledger = some (wrapping.checksum bytes ledger).run := by
  refine ⟨fun entity ofText => ?_, fun entity => ?_, fun bytes => trapping_checksum bytes ledger⟩
  · have value := val_generate_eq_published entity ledger
    rw [digits_ofText ofText] at value
    exact ⟨value, (positional_letters _).trans value⟩
  · have wrapped := wrapping_checksum entity ledger
    have trapped := trapping_checksum (Bytes.ofText entity) ledger
    rw [wrapped] at trapped
    exact ⟨wrapped, trapped, (generate entity ledger).value.isLt⟩

theorem follows_published_testnet :
    published [0, 10, 0, 10, 1, 2, 3] [1] = 2160293 ∧
      (generate "0.0.123" .testnet).value.val = 2160293 := by
  have formula : published [0, 10, 0, 10, 1, 2, 3] [1] = 2160293 := by
    rw [published, ← positional_eq_sum, ← positional_eq_sum, ← (evenSum_oddSum_eq_sum _).1,
      ← (evenSum_oddSum_eq_sum _).2]
    decide
  have digits : "0.0.123".toList.map charDigit = [0, 10, 0, 10, 1, 2, 3] := by decide
  have ledger : LedgerId.testnet.bytes.map UInt8.toNat = [1] := rfl
  have value := ((follows_published .testnet).1 "0.0.123" (by decide)).1
  rw [digits, ledger, formula] at value
  exact ⟨formula, value⟩

end Checksum

end LedgerClient
