import LedgerClient.Text.Base64
import Mathlib.Data.Option.Basic

/-! Base64 texts read back, whatever the length of the last group. -/

namespace LedgerClient.Text.Base64

theorem symbolValue?_symbol : ∀ value < 64, symbolValue? (symbol value) = some value := by
  decide

theorem symbol_ne_fill {value : Nat} (h : value < 64) : symbol value ≠ '=' := by
  intro fill
  have read := symbolValue?_symbol value h
  rw [fill] at read
  cases read

section

variable (a b c : UInt8)

theorem first_lt : a.toNat / 4 < 64 := by
  have := a.toNat_lt
  omega

theorem second_lt : a.toNat % 4 * 16 + b.toNat / 16 < 64 := by
  have := b.toNat_lt
  omega

theorem third_lt : b.toNat % 16 * 4 + c.toNat / 64 < 64 := by
  have := c.toNat_lt
  omega

theorem last_of_one_lt : a.toNat % 4 * 16 < 64 := by
  omega

theorem last_of_two_lt : b.toNat % 16 * 4 < 64 := by
  omega

theorem fourth_lt : c.toNat % 64 < 64 :=
  Nat.mod_lt _ (by decide)

theorem decodeOne_symbols :
    decodeOne (symbol (a.toNat / 4)) (symbol (a.toNat % 4 * 16)) = some [a] := by
  have unused : a.toNat % 4 * 16 % 16 = 0 := by omega
  have joined : a.toNat / 4 * 4 + a.toNat % 4 * 16 / 16 = a.toNat := by omega
  rw [decodeOne, symbolValue?_symbol _ (first_lt a), symbolValue?_symbol _ (last_of_one_lt a)]
  simp only [Option.bind_eq_bind, Option.bind_some, guard, if_pos unused, Option.pure_def, joined,
    UInt8.ofNat_toNat]

theorem decodeTwo_symbols :
    decodeTwo (symbol (a.toNat / 4)) (symbol (a.toNat % 4 * 16 + b.toNat / 16))
      (symbol (b.toNat % 16 * 4)) = some [a, b] := by
  have := b.toNat_lt
  have unused : b.toNat % 16 * 4 % 4 = 0 := by omega
  have first : a.toNat / 4 * 4 + (a.toNat % 4 * 16 + b.toNat / 16) / 16 = a.toNat := by omega
  have second : (a.toNat % 4 * 16 + b.toNat / 16) % 16 * 16 + b.toNat % 16 * 4 / 4 = b.toNat := by
    omega
  rw [decodeTwo, symbolValue?_symbol _ (first_lt a), symbolValue?_symbol _ (second_lt a b),
    symbolValue?_symbol _ (last_of_two_lt b)]
  simp only [Option.bind_eq_bind, Option.bind_some, guard, if_pos unused, Option.pure_def, first,
    second, UInt8.ofNat_toNat]

theorem decodeThree_symbols :
    decodeThree (symbol (a.toNat / 4)) (symbol (a.toNat % 4 * 16 + b.toNat / 16))
      (symbol (b.toNat % 16 * 4 + c.toNat / 64)) (symbol (c.toNat % 64)) = some [a, b, c] := by
  have := b.toNat_lt
  have := c.toNat_lt
  have first : a.toNat / 4 * 4 + (a.toNat % 4 * 16 + b.toNat / 16) / 16 = a.toNat := by omega
  have second : (a.toNat % 4 * 16 + b.toNat / 16) % 16 * 16 +
      (b.toNat % 16 * 4 + c.toNat / 64) / 4 = b.toNat := by omega
  have third : (b.toNat % 16 * 4 + c.toNat / 64) % 4 * 64 + c.toNat % 64 = c.toNat := by omega
  rw [decodeThree, symbolValue?_symbol _ (first_lt a), symbolValue?_symbol _ (second_lt a b),
    symbolValue?_symbol _ (third_lt b c), symbolValue?_symbol _ (fourth_lt c)]
  simp only [Option.bind_eq_bind, Option.bind_some, first, second, third, UInt8.ofNat_toNat]

end

theorem decodeGroups_encodeGroups (bytes : Bytes) :
    decodeGroups (encodeGroups bytes) = some bytes := by
  fun_induction encodeGroups bytes with
  | case1 => rfl
  | case2 a => exact decodeOne_symbols a
  | case3 a b =>
    rw [decodeGroups]
    · exact decodeTwo_symbols a b
    · exact symbol_ne_fill (last_of_two_lt b)
  | case4 a b c rest ih =>
    have third := symbol_ne_fill (third_lt b c)
    have fourth := symbol_ne_fill (fourth_lt c)
    rw [decodeGroups, decodeThree_symbols, ih]
    · rfl
    · intro h
      exact absurd h third
    · intro h
      exact absurd h fourth

theorem decode?_encode (bytes : Bytes) : decode? (encode bytes) = some bytes := by
  rw [decode?, encode, String.toList_ofList, decodeGroups_encodeGroups]

end LedgerClient.Text.Base64
