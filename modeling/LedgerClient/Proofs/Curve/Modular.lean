import LedgerClient.Curve.Modular
import Mathlib.FieldTheory.Finite.Basic
import Mathlib.Tactic.Ring

/-! Arithmetic on numbers below a prime is that of the field with so many elements. -/

namespace LedgerClient.Modular

variable {p : Nat} [prime : Fact p.Prime] {a b : Nat}

theorem mod_lt (n : Nat) : n % p < p :=
  Nat.mod_lt n prime.out.pos

theorem mod_le (n : Nat) : n % p ≤ p :=
  Nat.le_of_lt (mod_lt n)

theorem pow_lt (a k : Nat) : pow p a k < p :=
  pow_eq p a k ▸ mod_lt _

theorem sub_le (a b : Nat) : sub p a b ≤ p :=
  mod_le _

theorem cast_injOn (ha : a < p) (hb : b < p) (same : (a : ZMod p) = b) : a = b := by
  have mods := (ZMod.natCast_eq_natCast_iff' a b p).mp same
  rwa [Nat.mod_eq_of_lt ha, Nat.mod_eq_of_lt hb] at mods

theorem cast_sub (h : b ≤ p) : (sub p a b : ZMod p) = a - b := by
  rw [sub, ZMod.natCast_mod, Nat.cast_add, Nat.cast_sub h, ZMod.natCast_self]
  ring

theorem cast_pow (a k : Nat) : (pow p a k : ZMod p) = (a : ZMod p) ^ k := by
  rw [pow_eq, Nat.pow_eq, ZMod.natCast_mod, Nat.cast_pow]

section

variable (odd : p % 2 = 1)

include odd

theorem two_lt : 2 < p := by
  have := prime.out.two_le
  omega

theorem two_ne_zero : (2 : ZMod p) ≠ 0 := by
  intro zero
  have same : 2 = 0 := cast_injOn (two_lt odd) prime.out.pos (by exact_mod_cast zero)
  exact absurd same (by decide)

theorem cast_inverse (a : Nat) : (inverse p a : ZMod p) = (a : ZMod p)⁻¹ := by
  have large := two_lt odd
  rw [inverse, cast_pow]
  by_cases zero : (a : ZMod p) = 0
  · rw [zero, inv_zero, zero_pow (Nat.sub_ne_zero_of_lt large)]
  · have exponent : p - 2 + 1 = p - 1 := by omega
    refine eq_inv_of_mul_eq_one_left ?_
    rw [← pow_succ, exponent]
    exact ZMod.pow_card_sub_one_eq_one zero

/-- Of two opposite roots, the parity tells which one is meant. -/
theorem select_root {root x : Nat} (hr : root < p) (hx : x < p)
    (same : (root : ZMod p) ^ 2 = (x : ZMod p) ^ 2) :
    (if (root % 2 = 1) = (decide (x % 2 = 1) = true) then root else sub p 0 root) = x := by
  rcases sq_eq_sq_iff_eq_or_eq_neg.mp same with same | opposite
  · rw [cast_injOn hr hx same]
    simp
  · by_cases zero : x = 0
    · subst zero
      rw [Nat.cast_zero, neg_zero, ← Nat.cast_zero] at opposite
      rw [cast_injOn hr hx opposite]
      simp
    · have value : root = p - x := by
        refine cast_injOn hr (Nat.sub_lt prime.out.pos (Nat.pos_of_ne_zero zero)) ?_
        rw [opposite, Nat.cast_sub (Nat.le_of_lt hx), ZMod.natCast_self, zero_sub]
      have parity : ¬ (root % 2 = 1) = (decide (x % 2 = 1) = true) := by
        rw [decide_eq_true_eq, eq_iff_iff]
        omega
      have back : 0 + (p - (p - x)) = x := by omega
      rw [if_neg parity, sub, value, back, Nat.mod_eq_of_lt hx]

end

end LedgerClient.Modular
