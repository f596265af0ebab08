import LedgerClient.Text.Shortest

/-! The search for the shortest decimal ends on a grid that hits: the finest grid has smaller steps than
any interval around a double. So a positive number never has the digit zero alone. -/

namespace LedgerClient.Text

namespace Neighbourhood

variable {n : Neighbourhood}

theorem exists_onGrid {step : Nat} (pos : 0 < step) (low : n.low + step ≤ n.value)
    (high : n.value + step < n.high) : ∃ digits, 0 < digits ∧ n.onGrid step = some digits := by
  -- A grid hits away from zero if a step to either side stays inside the interval.
  have split : step * (n.value / step) + n.value % step = n.value := Nat.div_add_mod n.value step
  have offset : n.value % step < step := Nat.mod_lt n.value pos
  have below : n.holds step (n.value / step) = true := by
    rw [holds, Nat.mul_comm]
    split <;> simp only [Bool.and_eq_true, decide_eq_true_eq] <;> omega
  have above : n.holds step (n.value / step + 1) = true := by
    rw [holds, Nat.mul_comm, Nat.mul_add_one]
    split <;> simp only [Bool.and_eq_true, decide_eq_true_eq] <;> omega
  have positive : 0 < n.value / step := Nat.div_pos (by omega) pos
  rw [onGrid]
  simp only [below, above]
  split
  · exact ⟨_, positive, rfl⟩
  · exact ⟨_, Nat.succ_pos _, rfl⟩

theorem search_ne_zero {tries : Nat} {exponent : Int} {later : Nat} (tried : later < tries)
    (hits : ∃ digits, 0 < digits ∧
      (n.atExponent (exponent - later)).1.onGrid (n.atExponent (exponent - later)).2 = some digits) :
    (n.search tries exponent).1 ≠ 0 := by
  induction tries generalizing exponent later with
  | zero => cases tried
  | succ tries ih =>
    -- The grid that hits is not this one, so it is one of those that are left.
    have next (missed : ¬ ∃ digits, 0 < digits ∧
        (n.atExponent exponent).1.onGrid (n.atExponent exponent).2 = some digits) :
        (n.search tries (exponent - 1)).1 ≠ 0 := by
      cases later with
      | zero =>
        rw [Int.natCast_zero, Int.sub_zero] at hits
        exact absurd hits missed
      | succ later =>
        have shifted : exponent - (later + 1 : Nat) = exponent - 1 - later := by omega
        rw [shifted] at hits
        exact ih (Nat.lt_of_succ_lt_succ tried) hits
    rcases grid : n.atExponent exponent with ⟨scaled, step⟩
    rw [grid] at next
    rw [search, grid]
    dsimp only
    cases found : scaled.onGrid step with
    | none => exact next fun ⟨_, _, hit⟩ => nomatch found.symm.trans hit
    | some digits =>
      cases digits with
      | zero =>
        refine next fun ⟨digits, positive, hit⟩ => ?_
        obtain rfl := Option.some.inj (found.symm.trans hit)
        cases positive
      | succ digits => exact Nat.succ_ne_zero digits

theorem exists_onGrid_ofBinary {m : Nat} {q : Int} {narrow : Bool} {places : Nat} (pos : 0 < m)
    (fine : 4 * Nat.pow 2 (-q).toNat < Nat.pow 10 places) :
    ∃ digits, 0 < digits ∧ ((ofBinary m q narrow).atExponent (-places)).1.onGrid
      ((ofBinary m q narrow).atExponent (-places)).2 = some digits := by
  -- A grid hits a number if its steps are finer than the unit of the number.
  have upPositive : 0 < Nat.pow 2 q.toNat := Nat.pow_pos (by decide)
  have stepPositive : 0 < Nat.pow 2 (-q).toNat := Nat.pow_pos (by decide)
  have whole : (-(places : Int)).toNat = 0 := by omega
  have unscaled : Nat.pow 10 0 = 1 := rfl
  rw [ofBinary, atExponent, Int.neg_neg, Int.toNat_natCast, whole, unscaled, Nat.mul_one]
  generalize Nat.pow 2 q.toNat = up at *
  generalize Nat.pow 10 places = down at *
  generalize Nat.pow 2 (-q).toNat = step at *
  have unit : 4 * step < up * down :=
    Nat.lt_of_lt_of_le fine (Nat.le_mul_of_pos_left down upPositive)
  -- The interval reaches a unit below the number at least, and more than a unit above it.
  have below : (4 * m - if narrow then 1 else 2) * up * down + up * down ≤ 4 * m * up * down := by
    rw [Nat.mul_assoc, Nat.mul_assoc (4 * m), ← Nat.succ_mul]
    refine Nat.mul_le_mul_right _ ?_
    split <;> omega
  have above : 4 * m * up * down + up * down ≤ (4 * m + 2) * up * down := by
    rw [Nat.mul_assoc, Nat.mul_assoc (4 * m + 2), ← Nat.succ_mul]
    exact Nat.mul_le_mul_right _ (Nat.le_succ _)
  dsimp only
  exact exists_onGrid (by omega) (by dsimp only; omega) (by dsimp only; omega)

end Neighbourhood

/-- No positive multiple of the least double is written as zero. -/
theorem shortest_ne_zero {m : Nat} {q : Int} (pos : 0 < m) (least : -1074 ≤ q) (narrow : Bool) :
    (shortest m q narrow).1 ≠ 0 := by
  -- The grid that is tried last has 389 places.
  have places : (310 : Int) - (699 : Nat) = -(389 : Nat) := rfl
  refine Neighbourhood.search_ne_zero (by decide : 699 < 700) ?_
  rw [places]
  refine Neighbourhood.exists_onGrid_ofBinary pos ?_
  obtain ⟨limit, same⟩ : ∃ limit, limit = 1074 := ⟨1074, rfl⟩
  have power : Nat.pow 2 (-q).toNat ≤ Nat.pow 2 limit :=
    Nat.pow_le_pow_right (by decide) (by omega)
  refine Nat.lt_of_le_of_lt (Nat.mul_le_mul_left 4 power) ?_
  rw [same]
  decide +kernel

end LedgerClient.Text
