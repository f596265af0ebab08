import LedgerClient.Checksum.Basic
import Mathlib.Data.Nat.ModEq

/-! The number behind a checksum, without machine words. A text contributes the number that its
length and its sums write in mixed radix, a ledger its value in base 31. No sum leaves the range of a
word, so the checksum is the sum of both, spread by the multiplier modulo 26^5; the multiplier is
invertible there, so equal checksums come from congruent sums. -/

namespace LedgerClient

namespace Checksum

/-- The number that digits denote in a base, the first one most significant. -/
def positional (base : Nat) : List Nat → Nat
  | [] => 0
  | digit :: rest => digit * base ^ rest.length + positional base rest

mutual

/-- The sum of the digits at even places, counted from zero. -/
def evenSum : List Nat → Nat
  | [] => 0
  | digit :: rest => digit + oddSum rest

def oddSum : List Nat → Nat
  | [] => 0
  | _ :: rest => evenSum rest

end

def digits (bytes : Bytes) : List Nat :=
  bytes.map fun byte => (digit byte).toNat

/-- The length and the sums of digits as one number. -/
def textNumber (digits : List Nat) : Nat :=
  ((digits.length % 5 * 11 + evenSum digits % 11) * 11 + oddSum digits % 11) * 26 ^ 3 +
    positional 31 digits % 26 ^ 3

end Checksum

/-- The number that the ledger's bytes denote in base 31. -/
def LedgerId.number (ledger : LedgerId) : Nat :=
  Checksum.positional 31 (ledger.bytes.map UInt8.toNat)

namespace Checksum

theorem positional_append (base : Nat) (front back : List Nat) :
    positional base (front ++ back) =
      positional base front * base ^ back.length + positional base back := by
  induction front with
  | nil => simp [positional]
  | cons digit rest ih =>
    rw [List.cons_append, positional, ih, positional, List.length_append, Nat.pow_add, Nat.add_mul,
      Nat.mul_assoc, Nat.add_assoc]

theorem positional_concat (base : Nat) (front : List Nat) (digit : Nat) :
    positional base (front ++ [digit]) = base * positional base front + digit := by
  rw [positional_append, positional, positional, List.length_singleton, List.length_nil,
    Nat.pow_one, Nat.pow_zero, Nat.mul_one, Nat.add_zero, Nat.mul_comm]

theorem positional_replicate_zero (base count : Nat) :
    positional base (List.replicate count 0) = 0 := by
  induction count with
  | zero => rfl
  | succ count ih => rw [List.replicate_succ, positional, ih, Nat.zero_mul]

theorem evenSum_append_oddSum_append (front back : List Nat) :
    evenSum (front ++ back) =
        evenSum front + (if front.length % 2 = 0 then evenSum back else oddSum back) ∧
      oddSum (front ++ back) =
        oddSum front + (if front.length % 2 = 0 then oddSum back else evenSum back) := by
  induction front with
  | nil => simp [evenSum, oddSum]
  | cons digit rest ih =>
    obtain ⟨even, odd⟩ := ih
    rw [List.cons_append, evenSum, oddSum, evenSum, oddSum, even, odd, List.length_cons]
    rcases Nat.mod_two_eq_zero_or_one rest.length with place | place
    · have next : (rest.length + 1) % 2 ≠ 0 := by omega
      simp only [if_pos place, if_neg next, Nat.add_assoc, and_self]
    · have next : (rest.length + 1) % 2 = 0 := by omega
      have other : rest.length % 2 ≠ 0 := by omega
      simp only [if_neg other, if_pos next, Nat.add_assoc, and_self]

/-! ## The sums of the words -/

structure DigitSums.Holds (sums : DigitSums) (digits : List Nat) : Prop where
  weighted : sums.weighted.toNat = positional 31 digits % 26 ^ 3
  even : sums.even.toNat = evenSum digits % 11
  odd : sums.odd.toNat = oddSum digits % 11
  length : sums.length = digits.length

theorem toNat_weighted_add {sum digit modulus : UInt64} {taken : List Nat}
    (held : sum.toNat = positional 31 taken % modulus.toNat) (small : digit.toNat < 256)
    (pos : 0 < modulus.toNat) (le : modulus.toNat ≤ 26 ^ 5) :
    ((weight * sum + digit) % modulus).toNat =
      positional 31 (taken ++ [digit.toNat]) % modulus.toNat := by
  have sum_lt : sum.toNat < modulus.toNat := held ▸ Nat.mod_lt _ pos
  have factor : weight.toNat = 31 := rfl
  have fits : (31 * sum.toNat + digit.toNat) % 2 ^ 64 = 31 * sum.toNat + digit.toNat := by omega
  rw [UInt64.toNat_mod, UInt64.toNat_add, UInt64.toNat_mul, factor, Nat.mod_add_mod, fits, held,
    positional_concat]
  simp [Nat.add_mod, Nat.mul_mod]

theorem toNat_digit_lt (byte : UInt8) : (digit byte).toNat < 256 := by
  unfold digit
  split
  · decide
  · rw [UInt8.toNat_toUInt64]
    exact UInt8.toNat_lt _

theorem DigitSums.Holds.add {sums : DigitSums} {taken : List Nat} (held : sums.Holds taken)
    {d : UInt64} (small : d.toNat < 256) : (sums.add d).Holds (taken ++ [d.toNat]) := by
  have even_lt : sums.even.toNat < 11 := held.even ▸ Nat.mod_lt _ (by decide)
  have odd_lt : sums.odd.toNat < 11 := held.odd ▸ Nat.mod_lt _ (by decide)
  have next (sum : UInt64) (sum_lt : sum.toNat < 11) :
      ((sum + d) % 11).toNat = (sum.toNat + d.toNat) % 11 := by
    rw [UInt64.toNat_mod, UInt64.toNat_add]
    congr 1
    omega
  obtain ⟨even, odd⟩ := evenSum_append_oddSum_append taken [d.toNat]
  simp only [evenSum, oddSum, Nat.add_zero] at even odd
  refine ⟨?_, ?_, ?_, ?_⟩
  · exact toNat_weighted_add held.weighted small (by decide) (by decide)
  · rw [even, DigitSums.add, held.length]
    split
    · rw [next _ even_lt, held.even, Nat.mod_add_mod]
    · rw [held.even, Nat.add_zero]
  · rw [odd, DigitSums.add, held.length]
    split
    · rw [held.odd, Nat.add_zero]
    · rw [next _ odd_lt, held.odd, Nat.mod_add_mod]
  · rw [DigitSums.add, held.length, List.length_append, List.length_singleton]

theorem DigitSums.Holds.foldl {sums : DigitSums} {taken : List Nat} (held : sums.Holds taken)
    (bytes : Bytes) :
    (bytes.foldl (fun sums byte => sums.add (digit byte)) sums).Holds
      (taken ++ digits bytes) := by
  induction bytes generalizing sums taken with
  | nil => simpa [digits] using held
  | cons byte rest ih =>
    have later := ih (held.add (toNat_digit_lt byte))
    rw [List.append_assoc] at later
    exact later

theorem DigitSums.holds_ofBytes (bytes : Bytes) : (ofBytes bytes).Holds (digits bytes) := by
  have start : ({} : DigitSums).Holds [] := ⟨rfl, rfl, rfl, rfl⟩
  exact start.foldl bytes

theorem toNat_ledgerFold {sum : UInt64} {taken : List Nat}
    (held : sum.toNat = positional 31 taken % 26 ^ 5) (bytes : Bytes) :
    (bytes.foldl (fun (sum : UInt64) (byte : UInt8) => (weight * sum + byte.toUInt64) % modulus)
        sum).toNat =
      positional 31 (taken ++ bytes.map UInt8.toNat) % 26 ^ 5 := by
  induction bytes generalizing sum taken with
  | nil => simpa using held
  | cons byte rest ih =>
    have small : byte.toUInt64.toNat < 256 := by
      rw [UInt8.toNat_toUInt64]
      exact byte.toNat_lt
    have step : ((weight * sum + byte.toUInt64) % modulus).toNat =
        positional 31 (taken ++ [byte.toNat]) % 26 ^ 5 := by
      rw [← UInt8.toNat_toUInt64]
      exact toNat_weighted_add held small (by decide) (by decide)
    have later := ih step
    rw [List.append_assoc] at later
    exact later

theorem toNat_ledgerSum (ledger : LedgerId) :
    (ledgerSum ledger).toNat = ledger.number * 31 ^ 6 % 26 ^ 5 := by
  have start : (0 : UInt64).toNat = positional 31 [] % 26 ^ 5 := rfl
  have zeros : (List.replicate 6 (0 : UInt8)).map UInt8.toNat = List.replicate 6 0 := rfl
  rw [ledgerSum, toNat_ledgerFold start, List.nil_append, List.map_append, zeros,
    positional_append, positional_replicate_zero, List.length_replicate, Nat.add_zero,
    LedgerId.number]

/-! ## The checksum -/

theorem textNumber_lt (digits : List Nat) : textNumber digits < 26 ^ 5 := by
  unfold textNumber
  omega

theorem textNumber_eq_iff {first second : List Nat} :
    textNumber first = textNumber second ↔
      first.length % 5 = second.length % 5 ∧ evenSum first % 11 = evenSum second % 11 ∧
        oddSum first % 11 = oddSum second % 11 ∧
        positional 31 first % 26 ^ 3 = positional 31 second % 26 ^ 3 := by
  unfold textNumber
  omega

theorem toNat_combined {sums : DigitSums} {taken : List Nat} (held : sums.Holds taken)
    {sum : UInt64} (sum_lt : sum.toNat < 26 ^ 5) :
    (((.ofNat (sums.length % 5) * 11 + sums.even) * 11 + sums.odd) * digitModulus +
        sums.weighted + sum).toNat = textNumber taken + sum.toNat := by
  have length_lt : taken.length % 5 < 5 := Nat.mod_lt _ (by decide)
  have even_lt : evenSum taken % 11 < 11 := Nat.mod_lt _ (by decide)
  have odd_lt : oddSum taken % 11 < 11 := Nat.mod_lt _ (by decide)
  have weighted_lt : positional 31 taken % 26 ^ 3 < 26 ^ 3 := Nat.mod_lt _ (by decide)
  have length : (UInt64.ofNat (sums.length % 5)).toNat = taken.length % 5 := by
    rw [held.length, UInt64.toNat_ofNat']
    omega
  have eleven : (11 : UInt64).toNat = 11 := rfl
  have modulus : digitModulus.toNat = 26 ^ 3 := rfl
  simp only [UInt64.toNat_add, UInt64.toNat_mul, length, eleven, modulus, held.weighted,
    held.even, held.odd, textNumber]
  omega

theorem val_generate (entity : String) (ledger : LedgerId) :
    (generate entity ledger).value.val =
      (textNumber (digits (Bytes.ofText entity)) + ledger.number * 31 ^ 6) % 26 ^ 5 * 1000003 %
        26 ^ 5 := by
  have held := DigitSums.holds_ofBytes (Bytes.ofText entity)
  have sum_lt : (ledgerSum ledger).toNat < 26 ^ 5 := by
    rw [toNat_ledgerSum]
    exact Nat.mod_lt _ (by decide)
  have whole : modulus.toNat = 26 ^ 5 := rfl
  have factor : multiplier.toNat = 1000003 := rfl
  have fits (value : Nat) : value % 26 ^ 5 * 1000003 % 2 ^ 64 = value % 26 ^ 5 * 1000003 := by
    omega
  rw [generate, Fin.val_ofNat, UInt64.toNat_mod, UInt64.toNat_mul, UInt64.toNat_mod,
    toNat_combined held sum_lt, whole, factor, fits, toNat_ledgerSum, Nat.add_mod_mod]
  exact Nat.mod_mod _ _

theorem generate_eq_iff {first second : String} {ledger other : LedgerId} :
    generate first ledger = generate second other ↔
      textNumber (digits (Bytes.ofText first)) + ledger.number * 31 ^ 6 ≡
        textNumber (digits (Bytes.ofText second)) + other.number * 31 ^ 6 [MOD 26 ^ 5] := by
  have values : generate first ledger = generate second other ↔
      (generate first ledger).value.val = (generate second other).value.val := by
    rw [Fin.val_inj, mk.injEq]
  have coprime : Nat.gcd (26 ^ 5) 1000003 = 1 := by decide
  rw [values, val_generate, val_generate]
  constructor
  · intro same
    have residues := Nat.ModEq.cancel_right_of_coprime coprime same
    exact (Nat.mod_modEq _ _).symm.trans (residues.trans (Nat.mod_modEq _ _))
  · intro congruent
    rw [congruent]

end Checksum

end LedgerClient
