import LedgerClient.Proofs.Curve.Modular
import LedgerClient.Proofs.Curve.Primality
import Mathlib.AlgebraicGeometry.EllipticCurve.Affine.Point
import Mathlib.GroupTheory.OrderOfElement
import Mathlib.Tactic.FieldSimp
import Mathlib.Tactic.LinearCombination

/-!
Jacobian coordinates stand for points of the curve's group, and sums and multiples of them for sums
and multiples in the group. The base point has prime order, so no smaller multiple of it is the point
at infinity, and the affine coordinates of such a multiple are lifted from the first one.
-/

namespace LedgerClient.Secp256k1

open Modular (cast_injOn cast_sub cast_pow cast_inverse mod_lt mod_le sub_le)
open WeierstrassCurve (Affine)
open WeierstrassCurve.Affine (negY addX addY negAddY slope_of_X_ne slope_of_Y_ne)

instance : Fact prime.Prime := ⟨prime_prime⟩

theorem prime_odd : prime % 2 = 1 := by decide +kernel

theorem two_ne : (2 : ZMod prime) ≠ 0 := Modular.two_ne_zero prime_odd

def curve : Affine (ZMod prime) :=
  ⟨0, 0, 0, 0, 7⟩

theorem discriminant_ne_zero : curve.Δ ≠ 0 := by
  have value : curve.Δ = -((21168 : Nat) : ZMod prime) := by
    simp only [curve, WeierstrassCurve.Δ, WeierstrassCurve.b₂, WeierstrassCurve.b₄,
      WeierstrassCurve.b₆, WeierstrassCurve.b₈]
    push_cast
    ring
  rw [value, neg_ne_zero, Ne, ZMod.natCast_eq_zero_iff]
  exact Nat.not_dvd_of_pos_of_lt (by decide) (by decide +kernel)

theorem nonsingular_iff {x y : ZMod prime} : curve.Nonsingular x y ↔ y ^ 2 = x ^ 3 + 7 := by
  rw [← curve.equation_iff_nonsingular_of_Δ_ne_zero discriminant_ne_zero, curve.equation_iff]
  simp [curve]

theorem y_ne_zero {x y : ZMod prime} (h : curve.Nonsingular x y) : y ≠ 0 := by
  -- There is no point of order two, since `-7` is no cube of the field.
  rintro rfl
  have cube : x ^ 3 = (prime - 7 : Nat) := by
    have equation := nonsingular_iff.mp h
    rw [Nat.cast_sub (by decide +kernel), ZMod.natCast_self]
    push_cast
    linear_combination -equation
  have ne : x ≠ 0 := by
    rintro rfl
    rw [zero_pow three_ne_zero, ← Nat.cast_zero] at cube
    have same : 0 = prime - 7 := cast_injOn (by decide +kernel) (by decide +kernel) cube
    exact absurd same (by decide +kernel)
  have exponent : prime - 1 = 3 * ((prime - 1) / 3) := by decide +kernel
  have one := ZMod.pow_card_sub_one_eq_one ne
  rw [exponent, pow_mul, cube, ← cast_pow, ← Nat.cast_one] at one
  have value : Modular.pow prime (prime - 7) ((prime - 1) / 3) = 1 :=
    cast_injOn (by decide +kernel) (by decide +kernel) one
  exact absurd value (by decide +kernel)

/-- Whether Jacobian coordinates are those of a point of the plane. -/
structure Point.Shows (p : Point) (x y : ZMod prime) : Prop where
  z_ne : (p.z : ZMod prime) ≠ 0
  x_eq : (p.x : ZMod prime) = x * p.z ^ 2
  y_eq : (p.y : ZMod prime) = y * p.z ^ 3

/-- Whether Jacobian coordinates are those of a point of the group. -/
inductive Point.Denotes (p : Point) : curve.Point → Prop
  | infinity (z_eq : p.z = 0) : Denotes p 0
  | affine {x y : ZMod prime} (h : curve.Nonsingular x y) (shown : p.Shows x y) :
    Denotes p (.some x y h)

namespace Point

variable {p q : Point} {a b : curve.Point} {x y x₁ y₁ x₂ y₂ : ZMod prime}

theorem Shows.finite (shown : p.Shows x y) : p.z ≠ 0 := fun zero =>
  shown.z_ne (by rw [zero, Nat.cast_zero])

theorem Shows.double (shown : p.Shows x y) (h : curve.Nonsingular x y) :
    p.double.Denotes (.some x y h + .some x y h) := by
  have ⟨z_ne, x_eq, y_eq⟩ := shown
  have y_ne := y_ne_zero h
  have finite : ¬ (p.z = 0 ∨ p.y = 0) := by
    rintro (zero | zero)
    · exact shown.finite zero
    · rw [zero, Nat.cast_zero] at y_eq
      exact mul_ne_zero y_ne (pow_ne_zero 3 z_ne) y_eq.symm
  have twice : y ≠ curve.negY x y := by
    intro same
    have zero : 2 * y = 0 := by
      rw [negY, curve] at same
      linear_combination same
    exact mul_ne_zero two_ne y_ne zero
  have slope : curve.slope x x y y = 3 * x ^ 2 / (2 * y) := by
    rw [slope_of_Y_ne rfl twice]
    simp [curve, negY, two_mul]
  have coordinates : (p.double.z : ZMod prime) = 2 * y * p.z ^ 4 ∧
      (p.double.x : ZMod prime) = (9 * x ^ 4 - 8 * x * y ^ 2) * p.z ^ 8 ∧
      (p.double.y : ZMod prime) =
        (3 * x ^ 2 * (12 * x * y ^ 2 - 9 * x ^ 4) - 8 * y ^ 4) * p.z ^ 12 := by
    simp only [Point.double, if_neg finite, ZMod.natCast_mod, Nat.cast_mul, Nat.cast_ofNat,
      cast_sub (mod_le _), cast_sub (sub_le _ _), x_eq, y_eq]
    refine ⟨?_, ?_, ?_⟩ <;> ring
  obtain ⟨z', x', y'⟩ := coordinates
  rw [Affine.Point.add_self_of_Y_ne twice]
  refine .affine _ ⟨?_, ?_, ?_⟩
  · rw [z']
    exact mul_ne_zero (mul_ne_zero two_ne y_ne) (pow_ne_zero 4 z_ne)
  · rw [x', z', slope, addX, curve]
    field_simp [two_ne]
    ring
  · rw [y', z', slope, addY, negAddY, negY, addX, curve]
    field_simp [two_ne]
    ring

/-- The first coordinate of `p` over the denominator that it has in common with `q`. -/
def scaledX (p q : Point) : Nat :=
  p.x * (q.z * q.z % prime) % prime

def scaledY (p q : Point) : Nat :=
  p.y * (q.z * q.z % prime) % prime * q.z % prime

/-- The sum of points whose first coordinates differ. -/
def chord (p q : Point) : Point :=
  let h := Modular.sub prime (q.scaledX p) (p.scaledX q)
  let r := Modular.sub prime (q.scaledY p) (p.scaledY q)
  let h3 := h * h % prime * h % prime
  let v := p.scaledX q * (h * h % prime) % prime
  let x := Modular.sub prime (Modular.sub prime (r * r % prime) h3) (2 * v % prime)
  let y := Modular.sub prime (r * Modular.sub prime v x % prime) (p.scaledY q * h3 % prime)
  ⟨x, y, p.z * q.z % prime * h % prime⟩

theorem add_eq (p q : Point) :
    p.add q =
      if p.z = 0 then q
      else if q.z = 0 then p
      else if p.scaledX q = q.scaledX p then
        if p.scaledY q = q.scaledY p then p.double else Secp256k1.infinity
      else p.chord q := rfl

theorem scaled_eq_iff {m n : Nat} {k u v : ZMod prime} (ne : k ≠ 0) (hm : m < prime)
    (hn : n < prime) (first : (m : ZMod prime) = k * u) (second : (n : ZMod prime) = k * v) :
    m = n ↔ u = v := by
  constructor
  · rintro rfl
    exact mul_left_cancel₀ ne (first.symm.trans second)
  · rintro rfl
    exact cast_injOn hm hn (first.trans second.symm)

section

variable (first : p.Shows x₁ y₁) (second : q.Shows x₂ y₂)

include first second

theorem Shows.scaledX_eq_iff : p.scaledX q = q.scaledX p ↔ x₁ = x₂ := by
  have ne : (p.z * q.z : ZMod prime) ^ 2 ≠ 0 := pow_ne_zero 2 (mul_ne_zero first.z_ne second.z_ne)
  refine scaled_eq_iff ne (mod_lt _) (mod_lt _) ?_ ?_
  all_goals
    simp only [scaledX, ZMod.natCast_mod, Nat.cast_mul, first.x_eq, second.x_eq]
    ring

theorem Shows.scaledY_eq_iff : p.scaledY q = q.scaledY p ↔ y₁ = y₂ := by
  have ne : (p.z * q.z : ZMod prime) ^ 3 ≠ 0 := pow_ne_zero 3 (mul_ne_zero first.z_ne second.z_ne)
  refine scaled_eq_iff ne (mod_lt _) (mod_lt _) ?_ ?_
  all_goals
    simp only [scaledY, ZMod.natCast_mod, Nat.cast_mul, first.y_eq, second.y_eq]
    ring

theorem Shows.chord (h₁ : curve.Nonsingular x₁ y₁) (h₂ : curve.Nonsingular x₂ y₂) (ne : x₁ ≠ x₂) :
    (p.chord q).Denotes (.some x₁ y₁ h₁ + .some x₂ y₂ h₂) := by
  have apart : x₂ - x₁ ≠ 0 := sub_ne_zero.mpr (Ne.symm ne)
  have apart' : x₁ - x₂ ≠ 0 := sub_ne_zero.mpr ne
  obtain ⟨pz_ne, px_eq, py_eq⟩ := first
  obtain ⟨qz_ne, qx_eq, qy_eq⟩ := second
  have coordinates : ((p.chord q).z : ZMod prime) = (p.z * q.z) ^ 3 * (x₂ - x₁) ∧
      ((p.chord q).x : ZMod prime) =
        (p.z * q.z) ^ 6 * ((y₂ - y₁) ^ 2 - (x₁ + x₂) * (x₂ - x₁) ^ 2) ∧
      ((p.chord q).y : ZMod prime) =
        (p.z * q.z) ^ 9 * ((y₂ - y₁) * (x₁ * (x₂ - x₁) ^ 2 -
          ((y₂ - y₁) ^ 2 - (x₁ + x₂) * (x₂ - x₁) ^ 2)) - y₁ * (x₂ - x₁) ^ 3) := by
    simp only [Point.chord, scaledX, scaledY, ZMod.natCast_mod, Nat.cast_mul, Nat.cast_ofNat,
      cast_sub (mod_le _), cast_sub (sub_le _ _), px_eq, py_eq, qx_eq, qy_eq]
    refine ⟨?_, ?_, ?_⟩ <;> ring
  obtain ⟨z', x', y'⟩ := coordinates
  rw [Affine.Point.add_of_X_ne ne]
  refine .affine _ ⟨?_, ?_, ?_⟩
  · rw [z']
    exact mul_ne_zero (pow_ne_zero 3 (mul_ne_zero pz_ne qz_ne)) apart
  · rw [x', z', slope_of_X_ne ne, addX, curve]
    field_simp
    ring
  · rw [y', z', slope_of_X_ne ne, addY, negAddY, negY, addX, curve]
    field_simp
    ring

theorem Shows.add (h₁ : curve.Nonsingular x₁ y₁) (h₂ : curve.Nonsingular x₂ y₂) :
    (p.add q).Denotes (.some x₁ y₁ h₁ + .some x₂ y₂ h₂) := by
  rw [add_eq, if_neg first.finite, if_neg second.finite]
  by_cases hx : x₁ = x₂
  · rw [if_pos ((first.scaledX_eq_iff second).mpr hx)]
    by_cases hy : y₁ = y₂
    · rw [if_pos ((first.scaledY_eq_iff second).mpr hy)]
      subst hx hy
      exact first.double h₁
    · rw [if_neg ((first.scaledY_eq_iff second).not.mpr hy)]
      have opposite : y₁ = curve.negY x₂ y₂ := by
        have square : y₁ ^ 2 = y₂ ^ 2 := by rw [nonsingular_iff.mp h₁, nonsingular_iff.mp h₂, hx]
        have neg := (sq_eq_sq_iff_eq_or_eq_neg.mp square).resolve_left hy
        rw [neg, negY, curve]
        ring
      rw [Affine.Point.add_of_Y_eq hx opposite]
      exact .infinity rfl
  · rw [if_neg ((first.scaledX_eq_iff second).not.mpr hx)]
    exact first.chord second h₁ h₂ hx

end

theorem Denotes.double (hp : p.Denotes a) : p.double.Denotes (a + a) := by
  cases hp with
  | infinity z_eq =>
    rw [Point.double, if_pos (.inl z_eq), add_zero]
    exact .infinity rfl
  | affine h shown => exact shown.double h

theorem Denotes.add (hp : p.Denotes a) (hq : q.Denotes b) : (p.add q).Denotes (a + b) := by
  cases hp with
  | infinity z_eq =>
    rw [add_eq, if_pos z_eq, zero_add]
    exact hq
  | affine h₁ first =>
    cases hq with
    | infinity z_eq =>
      rw [add_eq, if_neg first.finite, if_pos z_eq, add_zero]
      exact .affine h₁ first
    | affine h₂ second => exact first.add second h₁ h₂

theorem Denotes.mul {scalar : Nat} (hp : p.Denotes a) : (p.mul scalar).Denotes (scalar • a) := by
  induction scalar using Nat.strongRecOn generalizing p a with
  | ind scalar ih =>
    rw [Point.mul]
    by_cases zero : scalar = 0
    · rw [if_pos zero, zero, zero_nsmul]
      exact .infinity rfl
    · have rest := ih (scalar / 2) (by omega) hp.double
      rw [← two_nsmul, ← mul_nsmul] at rest
      rw [if_neg zero]
      by_cases odd : scalar % 2 = 1
      · have sum := hp.add rest
        have split : 2 * (scalar / 2) + 1 = scalar := by omega
        rw [← succ_nsmul', split] at sum
        rw [if_pos odd]
        exact sum
      · have split : 2 * (scalar / 2) = scalar := by omega
        rw [split] at rest
        rw [if_neg odd]
        exact rest

theorem Denotes.z_eq_zero_iff (hp : p.Denotes a) : p.z = 0 ↔ a = 0 := by
  cases hp with
  | infinity z_eq => exact ⟨fun _ => rfl, fun _ => z_eq⟩
  | affine h shown => exact ⟨fun zero => absurd zero shown.finite, fun zero => nomatch zero⟩

end Point

/-! ### Multiples of the base point -/

theorem nonsingular_base : curve.Nonsingular (base.x : ZMod prime) (base.y : ZMod prime) := by
  have equation : base.y * base.y % prime = (base.x * base.x * base.x + 7) % prime := by
    decide +kernel
  have cast := (ZMod.natCast_eq_natCast_iff' _ _ prime).mpr equation
  push_cast at cast
  rw [nonsingular_iff]
  linear_combination cast

def generator : curve.Point :=
  .some _ _ nonsingular_base

theorem denotes_base : base.Denotes generator :=
  .affine nonsingular_base ⟨by simp [base], by simp [base], by simp [base]⟩

theorem addOrderOf_generator : addOrderOf generator = order := by
  have : Fact order.Prime := ⟨order_prime⟩
  have whole : order • generator = 0 := by
    rw [← denotes_base.mul.z_eq_zero_iff]
    decide +kernel
  exact addOrderOf_eq_prime whole (Affine.Point.some_ne_zero nonsingular_base)

theorem nsmul_generator_ne_zero {scalar : Nat} (positive : 0 < scalar) (below : scalar < order) :
    scalar • generator ≠ 0 := by
  intro zero
  have divides := addOrderOf_dvd_of_nsmul_eq_zero zero
  rw [addOrderOf_generator] at divides
  exact Nat.not_dvd_of_pos_of_lt positive below divides

/-! ### Affine coordinates -/

theorem Point.Denotes.affine? {p : Point} {x y : ZMod prime} {h : curve.Nonsingular x y}
    (hp : p.Denotes (.some x y h)) :
    ∃ x' y', p.affine? = some (x', y') ∧ x' < prime ∧ y' < prime ∧
      (x' : ZMod prime) = x ∧ (y' : ZMod prime) = y := by
  cases hp with
  | affine _ shown =>
    have ⟨z_ne, x_eq, y_eq⟩ := shown
    rw [Point.affine?, if_neg shown.finite]
    refine ⟨_, _, rfl, mod_lt _, mod_lt _, ?_, ?_⟩
    · simp only [ZMod.natCast_mod, Nat.cast_mul, cast_inverse prime_odd, x_eq]
      field_simp
    · simp only [ZMod.natCast_mod, Nat.cast_mul, cast_inverse prime_odd, y_eq]
      field_simp

theorem liftX?_of_nonsingular {x y : Nat} (hx : x < prime) (hy : y < prime)
    (h : curve.Nonsingular (x : ZMod prime) (y : ZMod prime)) :
    liftX? x (decide (y % 2 = 1)) = some y := by
  let square := (x * x % prime * x + 7) % prime
  let root := Modular.pow prime square ((prime + 1) / 4)
  have square_eq : (square : ZMod prime) = (y : ZMod prime) ^ 2 := by
    push_cast [square, ZMod.natCast_mod]
    linear_combination -nonsingular_iff.mp h
  have root_sq : (root : ZMod prime) ^ 2 = (y : ZMod prime) ^ 2 := by
    have exponent : 2 * ((prime + 1) / 4 * 2) = prime - 1 + 2 := by decide +kernel
    rw [cast_pow, square_eq, ← pow_mul, ← pow_mul, exponent, pow_add,
      ZMod.pow_card_sub_one_eq_one (y_ne_zero h), one_mul]
  have check : root * root % prime = square := by
    refine cast_injOn (mod_lt _) (mod_lt _) ?_
    rw [ZMod.natCast_mod, Nat.cast_mul, ← pow_two, root_sq, square_eq]
  have selected := Modular.select_root prime_odd (Modular.pow_lt square _) hy root_sq
  rw [liftX?, if_pos hx]
  exact (if_pos check).trans (congrArg some selected)

end LedgerClient.Secp256k1
