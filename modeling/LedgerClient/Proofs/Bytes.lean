import LedgerClient.Bytes
import Mathlib.Algebra.Group.Nat.Defs

/-! Numbers written in base 256 read back, in either order of their digits, and bytes are the digits
of the number that they are read as. -/

namespace LedgerClient.Bytes

theorem toNatLittleEndian_littleEndian (count value : Nat) :
    toNatLittleEndian (littleEndian count value) = value % 256 ^ count := by
  induction count generalizing value with
  | zero => rw [Nat.pow_zero, Nat.mod_one]; rfl
  | succ count ih =>
    have step : toNatLittleEndian (littleEndian (count + 1) value) =
        (UInt8.ofNat value).toNat + 256 * toNatLittleEndian (littleEndian count (value / 256)) :=
      rfl
    have digit : (UInt8.ofNat value).toNat = value % 256 := UInt8.toNat_ofNat'
    rw [step, ih, digit, Nat.pow_succ, Nat.mul_comm (256 ^ count) 256, Nat.mod_mul]

theorem toNatBigEndian_reverse (bytes : Bytes) :
    toNatBigEndian bytes.reverse = toNatLittleEndian bytes := by
  rw [toNatBigEndian, List.foldl_reverse, toNatLittleEndian]
  congr 1
  funext byte value
  omega

theorem littleEndian_toNatLittleEndian (bytes : Bytes) :
    littleEndian bytes.length (toNatLittleEndian bytes) = bytes := by
  induction bytes with
  | nil => rfl
  | cons byte rest ih =>
    have step : toNatLittleEndian (byte :: rest) = byte.toNat + 256 * toNatLittleEndian rest := rfl
    have small := byte.toNat_lt
    have digit : UInt8.ofNat (byte.toNat + 256 * toNatLittleEndian rest) = byte := by
      rw [← UInt8.toNat_inj, UInt8.toNat_ofNat']
      omega
    have others : (byte.toNat + 256 * toNatLittleEndian rest) / 256 = toNatLittleEndian rest := by
      omega
    rw [step, List.length_cons, littleEndian, digit, others, ih]

theorem bigEndian_toNatBigEndian (bytes : Bytes) :
    bigEndian bytes.length (toNatBigEndian bytes) = bytes := by
  have digits := littleEndian_toNatLittleEndian bytes.reverse
  rw [← toNatBigEndian_reverse, List.reverse_reverse, List.length_reverse] at digits
  rw [bigEndian, digits, List.reverse_reverse]

theorem toNatBigEndian_lt (bytes : Bytes) : toNatBigEndian bytes < 256 ^ bytes.length :=
  calc toNatBigEndian bytes
    _ = toNatBigEndian (bigEndian bytes.length (toNatBigEndian bytes)) := by
      rw [bigEndian_toNatBigEndian]
    _ = toNatBigEndian bytes % 256 ^ bytes.length := by
      rw [bigEndian, toNatBigEndian_reverse, toNatLittleEndian_littleEndian]
    _ < 256 ^ bytes.length := Nat.mod_lt _ (Nat.pow_pos (by decide))

theorem toNatBigEndian_bigEndian {count value : Nat} (h : value < 256 ^ count) :
    toNatBigEndian (bigEndian count value) = value := by
  rw [bigEndian, toNatBigEndian_reverse, toNatLittleEndian_littleEndian, Nat.mod_eq_of_lt h]

end LedgerClient.Bytes
