import LedgerClient.Proofs.Bytes
import LedgerClient.Proofs.Curve.Modular
import LedgerClient.Proofs.Curve.Primality
import Mathlib.NumberTheory.LegendreSymbol.Basic
import Mathlib.Tactic.FieldSimp
import Mathlib.Tactic.LinearCombination

/-!
The points that the formulas for sums lead to are points of the curve: no denominator is zero, since
`-1` is a square of the field and `d` is none. What is written of such a point is read as the point.
-/

namespace LedgerClient.Edwards25519

open Modular (cast_injOn cast_sub cast_pow cast_inverse mod_lt)

instance : Fact prime.Prime := ⟨prime_prime⟩

theorem prime_odd : prime % 2 = 1 := by decide +kernel

theorem two_ne : (2 : ZMod prime) ≠ 0 := Modular.two_ne_zero prime_odd

theorem root_sq : (rootOfMinusOne : ZMod prime) ^ 2 = -1 := by
  have square : rootOfMinusOne * rootOfMinusOne + 1 =
      prime * (rootOfMinusOne * rootOfMinusOne / prime + 1) := by decide +kernel
  have zero := congrArg (Nat.cast : Nat → ZMod prime) square
  push_cast [ZMod.natCast_self] at zero
  linear_combination zero

theorem d_ne_zero : (d : ZMod prime) ≠ 0 := by
  rw [Ne, ZMod.natCast_eq_zero_iff]
  exact Nat.not_dvd_of_pos_of_lt (by decide +kernel) (by decide +kernel)

theorem not_isSquare_d : ¬ IsSquare (d : ZMod prime) := by
  rw [ZMod.euler_criterion prime d_ne_zero, ← cast_pow]
  intro one
  have value : Modular.pow prime d (prime / 2) = prime - 1 := by decide +kernel
  rw [value, ← Nat.cast_one] at one
  have same : prime - 1 = 1 := cast_injOn (by decide +kernel) (by decide +kernel) one
  exact absurd same (by decide +kernel)

theorem eq_zero_of_sq_eq {a b : ZMod prime} (h : a ^ 2 = d * b ^ 2) : b = 0 := by
  by_contra ne
  refine not_isSquare_d ⟨a / b, ?_⟩
  field_simp
  exact h.symm

def OnCurve (x y : ZMod prime) : Prop :=
  y ^ 2 - x ^ 2 = 1 + d * x ^ 2 * y ^ 2

section

variable {x₁ y₁ x₂ y₂ : ZMod prime}

theorem OnCurve.product_sq_ne_one (h₁ : OnCurve x₁ y₁) (h₂ : OnCurve x₂ y₂) :
    (d * x₁ * x₂ * y₁ * y₂) ^ 2 ≠ 1 := by
  intro one
  obtain ⟨m, product⟩ : ∃ m, m = d * x₁ * x₂ * y₁ * y₂ := ⟨_, rfl⟩
  obtain ⟨i, root⟩ : ∃ i, i = (rootOfMinusOne : ZMod prime) := ⟨_, rfl⟩
  have square : i ^ 2 = -1 := root ▸ root_sq
  rw [OnCurve] at h₁ h₂
  rw [← product] at one
  have plus : (i * x₁ + m * y₁) ^ 2 = d * (x₁ * y₁ * (y₂ + i * x₂)) ^ 2 := by grind
  have minus : (i * x₁ - m * y₁) ^ 2 = d * (x₁ * y₁ * (y₂ - i * x₂)) ^ 2 := by grind
  have zeroPlus := eq_zero_of_sq_eq plus
  have zeroMinus := eq_zero_of_sq_eq minus
  have double : 2 * (x₁ * y₁ * y₂) = 0 := by linear_combination zeroPlus + zeroMinus
  have zero : x₁ * y₁ * y₂ = 0 := (mul_eq_zero.mp double).resolve_left two_ne
  have none : m = 0 := by linear_combination product + d * x₂ * zero
  rw [none] at one
  exact absurd one (by norm_num)

theorem onCurve_div {s t : ZMod prime} (hs : s ≠ 0) (ht : t ≠ 0)
    (h : y₁ ^ 2 * s ^ 2 - x₁ ^ 2 * t ^ 2 = s ^ 2 * t ^ 2 + d * x₁ ^ 2 * y₁ ^ 2) :
    OnCurve (x₁ / s) (y₁ / t) := by
  rw [OnCurve]
  field_simp
  linear_combination h

theorem OnCurve.denominators_ne_zero (h₁ : OnCurve x₁ y₁) (h₂ : OnCurve x₂ y₂) :
    1 + d * x₁ * x₂ * y₁ * y₂ ≠ 0 ∧ 1 - d * x₁ * x₂ * y₁ * y₂ ≠ 0 := by
  have ne := h₁.product_sq_ne_one h₂
  constructor
  · intro zero
    exact ne (by linear_combination (d * x₁ * x₂ * y₁ * y₂ - 1) * zero)
  · intro zero
    exact ne (by linear_combination (-1 - d * x₁ * x₂ * y₁ * y₂) * zero)

theorem OnCurve.add (h₁ : OnCurve x₁ y₁) (h₂ : OnCurve x₂ y₂) :
    OnCurve ((x₁ * y₂ + y₁ * x₂) / (1 + d * x₁ * x₂ * y₁ * y₂))
      ((y₁ * y₂ + x₁ * x₂) / (1 - d * x₁ * x₂ * y₁ * y₂)) := by
  obtain ⟨plus, minus⟩ := h₁.denominators_ne_zero h₂
  rw [OnCurve] at h₁ h₂
  exact onCurve_div plus minus (by grind)

end

/-- Whether extended coordinates are those of a point of the curve. -/
structure Point.Denotes (p : Point) (x y : ZMod prime) : Prop where
  x_lt : p.x < prime
  z_ne_zero : (p.z : ZMod prime) ≠ 0
  x_eq : (p.x : ZMod prime) = x * p.z
  y_eq : (p.y : ZMod prime) = y * p.z
  t_eq : (p.t : ZMod prime) = x * y * p.z
  onCurve : OnCurve x y

namespace Point

variable {p q : Point} {x₁ y₁ x₂ y₂ : ZMod prime}

theorem Denotes.add (hp : p.Denotes x₁ y₁) (hq : q.Denotes x₂ y₂) :
    (p.add q).Denotes ((x₁ * y₂ + y₁ * x₂) / (1 + d * x₁ * x₂ * y₁ * y₂))
      ((y₁ * y₂ + x₁ * x₂) / (1 - d * x₁ * x₂ * y₁ * y₂)) := by
  obtain ⟨plus, minus⟩ := hp.onCurve.denominators_ne_zero hq.onCurve
  obtain ⟨m, product⟩ : ∃ m, m = d * x₁ * x₂ * y₁ * y₂ := ⟨_, rfl⟩
  obtain ⟨k, scale⟩ : ∃ k : ZMod prime, k = (2 * p.z * q.z) ^ 2 := ⟨_, rfl⟩
  have le (n : Nat) : n % prime ≤ prime := Nat.le_of_lt (Nat.mod_lt _ prime_prime.pos)
  have coordinates : ((p.add q).x : ZMod prime) = k * (x₁ * y₂ + y₁ * x₂) * (1 - m) ∧
      ((p.add q).y : ZMod prime) = k * (y₁ * y₂ + x₁ * x₂) * (1 + m) ∧
      ((p.add q).z : ZMod prime) = k * (1 - m) * (1 + m) ∧
      ((p.add q).t : ZMod prime) = k * (x₁ * y₂ + y₁ * x₂) * (y₁ * y₂ + x₁ * x₂) := by
    simp only [Point.add, ZMod.natCast_mod, Nat.cast_mul, Nat.cast_add, cast_sub (le _),
      cast_sub (Nat.le_of_lt hp.x_lt), cast_sub (Nat.le_of_lt hq.x_lt), Nat.cast_ofNat, hp.x_eq,
      hp.y_eq, hp.t_eq, hq.x_eq, hq.y_eq, hq.t_eq, product, scale]
    refine ⟨?_, ?_, ?_, ?_⟩ <;> ring
  obtain ⟨x, y, z, t⟩ := coordinates
  have ne : k ≠ 0 :=
    scale ▸ pow_ne_zero 2 (mul_ne_zero (mul_ne_zero two_ne hp.z_ne_zero) hq.z_ne_zero)
  have onCurve := hp.onCurve.add hq.onCurve
  rw [← product] at plus minus onCurve ⊢
  refine ⟨Nat.mod_lt _ prime_prime.pos, ?_, ?_, ?_, ?_, onCurve⟩
  · rw [z]
    exact mul_ne_zero (mul_ne_zero ne minus) plus
  · rw [x, z]
    field_simp
  · rw [y, z]
    field_simp
  · rw [t, z]
    field_simp

theorem denotes_ofAffine {x y : Nat} (hx : x < prime) (h : OnCurve x y) :
    (ofAffine x y).Denotes x y where
  x_lt := hx
  z_ne_zero := by rw [ofAffine, Nat.cast_one]; exact one_ne_zero
  x_eq := by rw [ofAffine, Nat.cast_one, mul_one]
  y_eq := by rw [ofAffine, Nat.cast_one, mul_one]
  t_eq := by rw [ofAffine, ZMod.natCast_mod, Nat.cast_mul, Nat.cast_one, mul_one]
  onCurve := h

def Valid (p : Point) : Prop :=
  ∃ x y, p.Denotes x y

theorem valid_identity : identity.Valid :=
  ⟨_, _, denotes_ofAffine prime_prime.pos (by simp [OnCurve])⟩

theorem valid_base : base.Valid := by
  have equation (x y : Nat) (h : y * y % prime = (1 + d * (x * x) * (y * y) + x * x) % prime) :
      OnCurve x y := by
    have cast := (ZMod.natCast_eq_natCast_iff' _ _ prime).mpr h
    push_cast at cast
    rw [OnCurve]
    linear_combination cast
  exact ⟨_, _, denotes_ofAffine (by decide +kernel) (equation _ _ (by decide +kernel))⟩

theorem Valid.add (hp : p.Valid) (hq : q.Valid) : (p.add q).Valid := by
  obtain ⟨_, _, hp⟩ := hp
  obtain ⟨_, _, hq⟩ := hq
  exact ⟨_, _, hp.add hq⟩

theorem Valid.mul {scalar : Nat} (h : p.Valid) : (p.mul scalar).Valid := by
  fun_induction p.mul scalar with
  | case1 => exact valid_identity
  | case2 p scalar nonzero rest odd ih => exact h.add (ih (h.add h))
  | case3 p scalar nonzero rest even ih => exact ih (h.add h)

end Point

/-! ### Reading a written point -/

theorem candidate_check {u v x : ZMod prime} (ratio : u = x ^ 2 * v) :
    v * (u * v ^ 3 * (u * v ^ 7) ^ ((prime - 5) / 8)) ^ 2 = u ∨
      v * (u * v ^ 3 * (u * v ^ 7) ^ ((prime - 5) / 8)) ^ 2 = -u := by
  have exponent : prime / 2 = 4 * ((prime - 5) / 8) + 2 := by decide +kernel
  generalize (prime - 5) / 8 = n at exponent ⊢
  have power : v * (u * v ^ 3 * (u * v ^ 7) ^ n) ^ 2 = u * (x * v ^ 4) ^ (prime / 2) := by
    have square : u * v ^ 7 = (x * v ^ 4) ^ 2 := by
      rw [ratio]
      ring
    calc v * (u * v ^ 3 * (u * v ^ 7) ^ n) ^ 2
        = u * (u * v ^ 7) * ((u * v ^ 7) ^ n) ^ 2 := by ring
      _ = u * (x * v ^ 4) ^ (prime / 2) := by rw [square, exponent]; ring
  by_cases zero : x * v ^ 4 = 0
  · have none : u = 0 := by
      rw [ratio]
      rcases mul_eq_zero.mp zero with zero | zero
      · rw [zero]
        ring
      · rw [pow_eq_zero_iff four_ne_zero] at zero
        rw [zero, mul_zero]
    left
    rw [power, none, zero_mul]
  · rw [power]
    rcases ZMod.pow_div_two_eq_neg_one_or_one prime zero with one | minus
    · left
      rw [one, mul_one]
    · right
      rw [minus, mul_neg_one]

def candidate (u v : Nat) : Nat :=
  let v3 := v * v % prime * v % prime
  let v7 := v3 * v3 % prime * v % prime
  u * v3 % prime * Modular.pow prime (u * v7 % prime) ((prime - 5) / 8) % prime

theorem cast_candidate (u v : Nat) :
    (candidate u v : ZMod prime) = u * v ^ 3 * (u * v ^ 7) ^ ((prime - 5) / 8) := by
  simp only [candidate, ZMod.natCast_mod, Nat.cast_mul, cast_pow]
  ring

theorem rootOfRatio?_eq (u v : Nat) (odd : Bool) :
    rootOfRatio? u v odd =
      let check := v * candidate u v % prime * candidate u v % prime
      let root? :=
        if check = u % prime then some (candidate u v)
        else if check = Modular.sub prime 0 (u % prime) then
          some (candidate u v * rootOfMinusOne % prime)
        else none
      root?.map fun root => if (root % 2 = 1) = odd then root else Modular.sub prime 0 root := rfl

theorem rootOfRatio?_of_eq {u v x : Nat} (hu : u < prime) (hx : x < prime)
    (ne : (v : ZMod prime) ≠ 0) (ratio : (u : ZMod prime) = x ^ 2 * v) :
    rootOfRatio? u v (decide (x % 2 = 1)) = some x := by
  have lt (n : Nat) : n % prime < prime := mod_lt n
  have select (root : Nat) (small : root < prime) (square : v * (root : ZMod prime) ^ 2 = u) :
      (if (root % 2 = 1) = (decide (x % 2 = 1) = true) then root
        else Modular.sub prime 0 root) = x := by
    refine Modular.select_root prime_odd small hx (mul_left_cancel₀ ne ?_)
    rw [square, ratio, mul_comm]
  have check : ((v * candidate u v % prime * candidate u v % prime : Nat) : ZMod prime) =
      v * (candidate u v : ZMod prime) ^ 2 := by
    simp only [ZMod.natCast_mod, Nat.cast_mul]
    ring
  have cases := candidate_check ratio
  rw [← cast_candidate, ← check] at cases
  rw [rootOfRatio?_eq, Nat.mod_eq_of_lt hu]
  dsimp only
  by_cases same : v * candidate u v % prime * candidate u v % prime = u
  · rw [if_pos same, Option.map_some, select (candidate u v) (lt _)]
    rw [← check, same]
  · have opposite := cases.resolve_left fun found => same (cast_injOn (lt _) hu found)
    have found : v * candidate u v % prime * candidate u v % prime = Modular.sub prime 0 u := by
      refine cast_injOn (lt _) (lt _) ?_
      rw [opposite, cast_sub (Nat.le_of_lt hu), Nat.cast_zero, zero_sub]
    rw [if_neg same, if_pos found, Option.map_some, select (_ % prime) (lt _)]
    rw [ZMod.natCast_mod, Nat.cast_mul, mul_pow, root_sq, mul_neg_one, mul_neg, ← check, opposite,
      neg_neg]

def Point.writtenX (p : Point) : Nat :=
  p.x * Modular.inverse prime p.z % prime

def Point.writtenY (p : Point) : Nat :=
  p.y * Modular.inverse prime p.z % prime

theorem Point.Denotes.written {p : Point} {x y : ZMod prime} (h : p.Denotes x y) :
    (p.writtenX : ZMod prime) = x ∧ (p.writtenY : ZMod prime) = y := by
  rw [writtenX, writtenY, ZMod.natCast_mod, ZMod.natCast_mod, Nat.cast_mul, Nat.cast_mul,
    cast_inverse prime_odd, h.x_eq, h.y_eq]
  exact ⟨mul_inv_cancel_right₀ h.z_ne_zero x, mul_inv_cancel_right₀ h.z_ne_zero y⟩

theorem mul_sq_add_one_ne_zero (y : ZMod prime) : d * y ^ 2 + 1 ≠ 0 := by
  intro zero
  have none : y = 0 := eq_zero_of_sq_eq (a := rootOfMinusOne) (by linear_combination root_sq - zero)
  rw [none] at zero
  norm_num at zero

theorem decode?_encode {p : Point} (valid : p.Valid) :
    decode? p.encode = some (.ofAffine p.writtenX p.writtenY) := by
  obtain ⟨x, y, h⟩ := valid
  obtain ⟨cx, cy⟩ := h.written
  have lt (n : Nat) : n % prime < prime := mod_lt n
  have small : prime < Nat.pow 2 255 := by decide +kernel
  have hy : p.writtenY < prime := lt _
  have parity : p.writtenX % 2 = 0 ∨ p.writtenX % 2 = 1 := by omega
  have value : Bytes.toNatLittleEndian p.encode = p.writtenY + p.writtenX % 2 * Nat.pow 2 255 := by
    have room : 256 ^ 32 = 2 * Nat.pow 2 255 := by decide +kernel
    refine (Bytes.toNatLittleEndian_littleEndian 32 _).trans (Nat.mod_eq_of_lt ?_)
    show p.writtenY + p.writtenX % 2 * Nat.pow 2 255 < _
    rw [room]
    rcases parity with even | odd
    · rw [even]
      omega
    · rw [odd]
      omega
  have mark : decide (Nat.pow 2 255 ≤ Bytes.toNatLittleEndian p.encode) =
      decide (p.writtenX % 2 = 1) := by
    rw [value]
    refine decide_eq_decide.mpr ?_
    rcases parity with even | odd
    · rw [even]
      omega
    · rw [odd]
      omega
  have low : Bytes.toNatLittleEndian p.encode % Nat.pow 2 255 % prime = p.writtenY := by
    rw [value, Nat.add_mul_mod_self_right, Nat.mod_eq_of_lt (Nat.lt_trans hy small),
      Nat.mod_eq_of_lt hy]
  have root : rootOfRatio? (Modular.sub prime (p.writtenY * p.writtenY % prime) 1)
      ((d * (p.writtenY * p.writtenY % prime) + 1) % prime) (decide (p.writtenX % 2 = 1)) =
        some p.writtenX := by
    have one : 1 ≤ prime := prime_prime.one_lt.le
    have curve := h.onCurve
    rw [OnCurve, ← cx, ← cy] at curve
    refine rootOfRatio?_of_eq (lt _) (lt _) ?_ ?_
    · have ne := mul_sq_add_one_ne_zero y
      push_cast [ZMod.natCast_mod]
      rwa [cy, ← pow_two]
    · push_cast [cast_sub one, ZMod.natCast_mod]
      linear_combination curve
  have length : p.encode.length = 32 := Bytes.length_littleEndian 32 _
  rw [decode?, if_pos length]
  simp only [low, mark, root, Option.map_some]

end LedgerClient.Edwards25519
