import LedgerClient.Text.Decimal
import Mathlib.Algebra.Group.Nat.Defs

/-! Decimal texts read back. The digits of a number denote it, also behind leading zeros, and the
bounded readers accept every run of digits whose value is within their bound. -/

namespace LedgerClient.Text

def AllDigits (text : List Char) : Prop :=
  ∀ c ∈ text, c.isDigit = true

theorem digitsValue_eq (digits : List Char) :
    digitsValue digits = Nat.ofDigitChars 10 digits 0 := by
  rw [digitsValue, Nat.ofDigitChars_eq_foldl]
  congr 1
  funext value c
  rw [digitValue, Nat.mul_comm]

theorem toList_toString (n : Nat) : (toString n).toList = Nat.toDigits 10 n := by
  rw [Nat.toString_eq_repr, Nat.toList_repr]

@[simp] theorem digitsValue_toString (n : Nat) : digitsValue (toString n).toList = n := by
  rw [digitsValue_eq, toList_toString, Nat.ofDigitChars_ten_toDigits]

theorem allDigits_toString (n : Nat) : AllDigits (toString n).toList := by
  intro c hc
  rw [toList_toString] at hc
  exact Nat.isDigit_of_mem_toDigits (by decide) (by decide) hc

@[simp] theorem toList_toString_ne_nil (n : Nat) : (toString n).toList ≠ [] := by
  rw [toList_toString]
  exact Nat.toDigits_ne_nil

theorem length_toString_le_iff {n k : Nat} (hk : 0 < k) :
    (toString n).toList.length ≤ k ↔ n < 10 ^ k := by
  rw [toList_toString]
  exact Nat.length_toDigits_le_iff (by decide) hk

namespace AllDigits

variable {text other : List Char}

theorem append (ht : AllDigits text) (ho : AllDigits other) : AllDigits (text ++ other) := by
  intro c hc
  rcases List.mem_append.mp hc with h | h
  · exact ht c h
  · exact ho c h

theorem replicate_zero (n : Nat) : AllDigits (List.replicate n '0') := by
  intro c hc
  rw [List.eq_of_mem_replicate hc]
  decide

theorem not_mem (h : AllDigits text) {c : Char} (hc : c.isDigit = false) : c ∉ text := by
  intro hm
  rw [h c hm] at hc
  cases hc

theorem isDigits (h : AllDigits text) (ne : text ≠ []) : isDigits text = true := by
  simp [Text.isDigits, List.all_eq_true, ne]
  exact h

theorem of_isDigits (h : Text.isDigits text = true) : AllDigits text := by
  intro c hc
  rw [Text.isDigits, Bool.and_eq_true] at h
  exact List.all_eq_true.mp h.2 c hc

theorem takeWhile_append (h : AllDigits text) {rest : List Char}
    (hr : rest.head?.all (fun c => !c.isDigit) = true) :
    (text ++ rest).takeWhile Char.isDigit = text := by
  rw [List.takeWhile_append_of_pos h]
  have stop : rest.takeWhile Char.isDigit = [] := by
    cases rest with
    | nil => rfl
    | cons c rest =>
      rw [List.takeWhile_cons_of_neg]
      simpa using hr
  rw [stop, List.append_nil]

end AllDigits

theorem isDigits_toString (n : Nat) : isDigits (toString n).toList = true :=
  (allDigits_toString n).isDigits (toList_toString_ne_nil n)

theorem toList_padZeros (width : Nat) (digits : String) :
    (padZeros width digits).toList =
      List.replicate (width - digits.toList.length) '0' ++ digits.toList := by
  rw [padZeros, String.toList_append, String.toList_ofList, String.length_toList]

theorem allDigits_padZeros (width n : Nat) : AllDigits (padZeros width (toString n)).toList := by
  rw [toList_padZeros]
  exact (AllDigits.replicate_zero _).append (allDigits_toString n)

@[simp] theorem digitsValue_padZeros (width n : Nat) :
    digitsValue (padZeros width (toString n)).toList = n := by
  rw [toList_padZeros, digitsValue_eq, Nat.ofDigitChars_append, Nat.ofDigitChars_replicate_zero,
    Nat.mul_zero, ← digitsValue_eq, digitsValue_toString]

theorem padZeros_ne_nil (width n : Nat) : (padZeros width (toString n)).toList ≠ [] := by
  rw [toList_padZeros]
  intro h
  exact toList_toString_ne_nil n (List.append_eq_nil_iff.mp h).2

theorem isDigits_padZeros (width n : Nat) : isDigits (padZeros width (toString n)).toList = true :=
  (allDigits_padZeros width n).isDigits (padZeros_ne_nil width n)

theorem length_padZeros {width n : Nat} (hw : 0 < width) (hn : n < 10 ^ width) :
    (padZeros width (toString n)).toList.length = width := by
  have short := (length_toString_le_iff hw).mpr hn
  rw [toList_padZeros, List.length_append, List.length_replicate]
  omega

theorem le_foldl_digits (digits : List Char) (value : Nat) :
    value ≤ digits.foldl (fun value c => value * 10 + digitValue c) value := by
  induction digits generalizing value with
  | nil => exact Nat.le_refl _
  | cons c rest ih =>
    rw [List.foldl_cons]
    have := ih (value * 10 + digitValue c)
    omega

theorem readMagnitude_foldl {limit : Nat} {overflow : NumberFault} {digits : List Char}
    (h : AllDigits digits) {value : Nat}
    (fits : digits.foldl (fun value c => value * 10 + digitValue c) value ≤ limit) :
    readMagnitude limit overflow value digits =
      .ok (digits.foldl (fun value c => value * 10 + digitValue c) value) := by
  -- Digits are read to their value if it is within the limit; no part of them then exceeds it.
  induction digits generalizing value with
  | nil => rfl
  | cons c rest ih =>
    rw [List.foldl_cons] at fits ⊢
    have small : value * 10 + digitValue c ≤ limit :=
      Nat.le_trans (le_foldl_digits rest _) fits
    rw [readMagnitude, if_pos (h c List.mem_cons_self)]
    simp only [if_pos small]
    exact ih (fun d hd => h d (List.mem_cons_of_mem c hd)) fits

theorem readMagnitude_digits {limit : Nat} {overflow : NumberFault} {digits : List Char}
    (h : AllDigits digits) (fits : digitsValue digits ≤ limit) :
    readMagnitude limit overflow 0 digits = .ok (digitsValue digits) :=
  readMagnitude_foldl h fits

theorem readMagnitude_toString {limit n : Nat} {overflow : NumberFault} (fits : n ≤ limit) :
    readMagnitude limit overflow 0 (toString n).toList = .ok n := by
  have small : digitsValue (toString n).toList ≤ limit := by
    rw [digitsValue_toString]
    exact fits
  rw [readMagnitude_digits (allDigits_toString n) small, digitsValue_toString]

theorem readSigned_digits {limit : Nat} {digits : List Char} (h : isDigits digits = true) :
    readSigned limit digits = Int.ofNat <$> readMagnitude limit .tooLarge 0 digits := by
  have all := AllDigits.of_isDigits h
  cases digits with
  | nil => cases h
  | cons c rest =>
    have plus : c ≠ '+' := fun hc => by
      have := all c List.mem_cons_self
      rw [hc] at this
      cases this
    have minus : c ≠ '-' := fun hc => by
      have := all c List.mem_cons_self
      rw [hc] at this
      cases this
    rw [readSigned] <;> simp_all

theorem readSigned_minus {limit : Nat} {digits : List Char} (h : digits ≠ []) :
    readSigned limit ('-' :: digits) =
      (fun value : Nat => -(value : Int)) <$> readMagnitude (limit + 1) .tooSmall 0 digits := by
  cases digits with
  | nil => exact absurd rfl h
  | cons c rest => rfl

theorem toString_ofNat (n : Nat) : toString (Int.ofNat n) = toString n := rfl

theorem toList_toString_negSucc (n : Nat) :
    (toString (Int.negSucc n)).toList = '-' :: (toString (n + 1)).toList := by
  have text : toString (Int.negSucc n) = "-" ++ toString (n + 1) := rfl
  rw [text, String.toList_append]
  rfl

theorem readSigned_toString {limit : Nat} {n : Int} (low : -(limit + 1 : Int) ≤ n)
    (high : n ≤ limit) :
    readSigned limit (toString n).toList = .ok n := by
  cases n with
  | ofNat k =>
    have fits : k ≤ limit := by
      have : (k : Int) ≤ limit := high
      omega
    rw [toString_ofNat, readSigned_digits (isDigits_toString k), readMagnitude_toString fits]
    rfl
  | negSucc k =>
    have fits : k + 1 ≤ limit + 1 := by omega
    rw [toList_toString_negSucc, readSigned_minus (toList_toString_ne_nil _),
      readMagnitude_toString fits]
    rfl

theorem mem_toString_int {n : Int} {c : Char} (h : c ∈ (toString n).toList) :
    c = '-' ∨ c.isDigit = true := by
  cases n with
  | ofNat k => exact Or.inr (allDigits_toString k c h)
  | negSucc k =>
    rw [toList_toString_negSucc, List.mem_cons] at h
    rcases h with h | h
    · exact Or.inl h
    · exact Or.inr (allDigits_toString _ c h)

end LedgerClient.Text
