/-!
Arithmetic modulo a prime, on natural numbers below it.
-/

namespace LedgerClient.Modular

/-- Repeated squaring: `base ^ exponent` modulo `modulus`. -/
def pow (modulus base exponent : Nat) : Nat :=
  if exponent = 0 then 1 % modulus
  else
    let rest := pow modulus (base * base % modulus) (exponent / 2)
    if exponent % 2 = 1 then base * rest % modulus else rest
termination_by exponent

/-- The inverse modulo a prime, by Fermat's little theorem; zero goes to zero. -/
def inverse (prime a : Nat) : Nat :=
  pow prime a (prime - 2)

def sub (modulus a b : Nat) : Nat :=
  (a + (modulus - b)) % modulus

theorem pow_eq (modulus base exponent : Nat) :
    pow modulus base exponent = Nat.pow base exponent % modulus := by
  rw [Nat.pow_eq]
  fun_induction pow modulus base exponent with
  | case1 => simp_all
  | case2 base exponent nonzero rest odd ih =>
    simp only [rest, ih]
    have split : exponent = 2 * (exponent / 2) + 1 := by omega
    conv => rhs; rw [split, Nat.pow_succ, Nat.pow_mul]
    rw [← Nat.pow_mod, Nat.pow_two, Nat.mul_mod_mod, Nat.mul_comm]
  | case3 base exponent nonzero rest even ih =>
    simp only [rest, ih]
    have split : exponent = 2 * (exponent / 2) := by omega
    conv => rhs; rw [split, Nat.pow_mul]
    rw [← Nat.pow_mod, Nat.pow_two]

end LedgerClient.Modular
