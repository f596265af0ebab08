import LedgerClient.Curve.Edwards25519
import LedgerClient.Curve.Secp256k1
import Mathlib.NumberTheory.LucasPrimality
import Mathlib.Tactic.NormNum.Prime

/-!
The sizes of the curves' fields are prime, and so is the order of secp256k1. A number is tested with
the primes that divide its predecessor; each of them is small, or was tested before.
-/

namespace LedgerClient

/-- A number with what the test takes: a base, and the prime factors of the predecessor. -/
structure PrimalityEntry where
  number : Nat
  base : Nat
  factors : List Nat

namespace PrimalityEntry

def passes (known : List Nat) (entry : PrimalityEntry) : Bool :=
  let power := Modular.pow entry.number entry.base
  1 < entry.number && entry.factors.prod == entry.number - 1 && power (entry.number - 1) == 1 &&
    entry.factors.all fun q => known.contains q && power ((entry.number - 1) / q) != 1

def allPass : (known : List Nat) → List PrimalityEntry → Bool
  | _, [] => true
  | known, entry :: rest => entry.passes known && allPass (entry.number :: known) rest

theorem pow_eq_one_iff {n : Nat} (h : 1 < n) (a k : Nat) :
    ((a : ZMod n) ^ k = 1) ↔ Modular.pow n a k = 1 := by
  have one : 1 % n = 1 := Nat.mod_eq_of_lt h
  rw [Modular.pow_eq, Nat.pow_eq, ← Nat.cast_pow, ← Nat.cast_one, ZMod.natCast_eq_natCast_iff', one]

theorem prime_of_passes {known : List Nat} {entry : PrimalityEntry} (h : entry.passes known = true)
    (primes : ∀ q ∈ known, q.Prime) : entry.number.Prime := by
  simp only [passes, Bool.and_eq_true, decide_eq_true_eq, beq_iff_eq, bne_iff_ne,
    List.all_eq_true, List.contains_iff_mem] at h
  obtain ⟨⟨⟨large, product⟩, whole⟩, each⟩ := h
  refine lucas_primality entry.number entry.base ((pow_eq_one_iff large _ _).mpr whole) ?_
  intro q prime divides
  rw [← product] at divides
  obtain ⟨factor, there, divides⟩ := prime.prime.dvd_prod_iff.mp divides
  obtain ⟨certified, part⟩ := each factor there
  obtain rfl := (Nat.prime_dvd_prime_iff_eq prime (primes factor certified)).mp divides
  exact fun one => part ((pow_eq_one_iff large _ _).mp one)

theorem prime_of_allPass {known : List Nat} {entries : List PrimalityEntry}
    (h : allPass known entries = true) (primes : ∀ q ∈ known, q.Prime) :
    ∀ entry ∈ entries, entry.number.Prime := by
  induction entries generalizing known with
  | nil => exact nofun
  | cons entry rest ih =>
    obtain ⟨first, others⟩ := (Bool.and_eq_true _ _).mp h
    have prime := prime_of_passes first primes
    exact List.forall_mem_cons.mpr ⟨prime, ih others (List.forall_mem_cons.mpr ⟨prime, primes⟩)⟩

end PrimalityEntry

namespace Edwards25519

def smallFactors : List Nat :=
  [2, 3, 5, 7, 13, 19, 31, 47, 107, 127, 223, 353, 2437, 4153, 57467, 65147, 75707, 132049, 430751,
    569003, 1923133, 8574133]

/-- The large ones, and the size itself. -/
def certificate : List PrimalityEntry :=
  [ ⟨2773320623, 5, [2, 2437, 569003]⟩,
    ⟨72106336199, 7, [2, 13, 2773320623]⟩,
    ⟨1919519569386763, 2, [2, 3, 7, 19, 47, 47, 127, 8574133]⟩,
    ⟨31757755568855353, 10, [2, 2, 2, 3, 31, 107, 223, 4153, 430751]⟩,
    ⟨75445702479781427272750846543864801, 7,
      [2, 2, 2, 2, 2, 3, 3, 5, 5, 75707, 72106336199, 1919519569386763]⟩,
    ⟨74058212732561358302231226437062788676166966415465897661863160754340907, 2,
      [2, 3, 353, 57467, 132049, 1923133, 31757755568855353,
        75445702479781427272750846543864801]⟩,
    ⟨prime, 2,
      [2, 2, 3, 65147, 74058212732561358302231226437062788676166966415465897661863160754340907]⟩ ]

theorem prime_prime : prime.Prime := by
  have small : ∀ q ∈ smallFactors, q.Prime := by norm_num [smallFactors]
  have passed : PrimalityEntry.allPass smallFactors certificate = true := by decide +kernel
  exact PrimalityEntry.prime_of_allPass passed small _ (List.mem_of_getElem? (i := 6) rfl)

end Edwards25519

namespace Secp256k1

def smallFactors : List Nat :=
  [2, 3, 5, 7, 11, 17, 29, 31, 41, 53, 59, 109, 149, 293, 461, 631, 797, 971, 1373, 1627, 2621,
    2657, 4051, 4423, 5323, 7723, 9349, 13441, 16699, 24809, 28181, 41201, 85831, 96557, 120233,
    305873, 1627771, 4681609, 7240687]

/-- The size of the field with the large primes that lead to it, then the order with those. -/
def certificate : List PrimalityEntry :=
  [ ⟨107590001, 3, [2, 2, 2, 2, 5, 5, 5, 5, 7, 29, 53]⟩,
    ⟨255515944373312847190720520512484175977, 3,
      [2, 2, 2, 7, 7, 11, 1627, 2657, 4423, 41201, 96557, 7240687, 107590001]⟩,
    ⟨13331831, 13, [2, 5, 971, 1373]⟩,
    ⟨173378833005251801, 6, [2, 2, 2, 5, 5, 2621, 24809, 13331831]⟩,
    ⟨22149492674086928081353, 5, [2, 2, 2, 3, 5323, 173378833005251801]⟩,
    ⟨132896956044521568488119, 6, [2, 3, 22149492674086928081353]⟩,
    ⟨205115282021455665897114700593932402728804164701536103180137503955397371, 10,
      [2, 3, 5, 29, 29, 31, 7723, 132896956044521568488119,
        255515944373312847190720520512484175977]⟩,
    ⟨prime, 3,
      [2, 3, 7, 13441, 205115282021455665897114700593932402728804164701536103180137503955397371]⟩,
    ⟨44706919, 6, [2, 3, 797, 9349]⟩,
    ⟨174723607534414371449, 3, [2, 2, 2, 17, 59, 4051, 120233, 44706919]⟩,
    ⟨107361793816595537, 3, [2, 2, 2, 2, 16699, 85831, 4681609]⟩,
    ⟨297159362677, 2, [2, 2, 3, 3, 11, 461, 1627771]⟩,
    ⟨545358713, 5, [2, 2, 2, 41, 59, 28181]⟩,
    ⟨29047611873442575647497758179, 2, [2, 293, 305873, 545358713, 297159362677]⟩,
    ⟨341948486974166000522343609283189, 2, [2, 2, 3, 3, 3, 109, 29047611873442575647497758179]⟩,
    ⟨order, 7,
      [2, 2, 2, 2, 2, 2, 3, 149, 631, 107361793816595537, 174723607534414371449,
        341948486974166000522343609283189]⟩ ]

theorem prime_of_mem_certificate : ∀ entry ∈ certificate, entry.number.Prime := by
  have small : ∀ q ∈ smallFactors, q.Prime := by norm_num [smallFactors]
  have passed : PrimalityEntry.allPass smallFactors certificate = true := by decide +kernel
  exact PrimalityEntry.prime_of_allPass passed small

theorem prime_prime : prime.Prime :=
  prime_of_mem_certificate _ (List.mem_of_getElem? (i := 7) rfl)

theorem order_prime : order.Prime :=
  prime_of_mem_certificate _ (List.mem_of_getElem? (i := 15) rfl)

end Secp256k1

end LedgerClient
