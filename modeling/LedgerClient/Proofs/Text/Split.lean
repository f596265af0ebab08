import LedgerClient.Text.Split
import Mathlib.Data.List.Basic

/-! Joined texts come apart again at the separator that joined them, as long as the parts next to it
do not hold it. -/

namespace LedgerClient.Text

theorem splitFirst_append {separator : Char} {before : List Char} (h : separator ∉ before)
    (after : List Char) :
    splitFirst separator (before ++ separator :: after) = some (before, after) := by
  induction before with
  | nil => rw [List.nil_append, splitFirst, if_pos rfl]
  | cons c rest ih =>
    have hc : c ≠ separator := fun hc => h (hc ▸ List.mem_cons_self)
    have hr : separator ∉ rest := fun hr => h (List.mem_cons_of_mem c hr)
    rw [List.cons_append, splitFirst, if_neg hc, ih hr]
    rfl

theorem splitFirst_of_not_mem {separator : Char} {text : List Char} (h : separator ∉ text) :
    splitFirst separator text = none :=
  splitFirst_eq_none_iff.mpr h

theorem splitLast_of_forall {isSeparator : Char → Bool} {text : List Char}
    (h : ∀ c ∈ text, isSeparator c = false) : splitLast isSeparator text = none := by
  induction text with
  | nil => rfl
  | cons c rest ih =>
    have hc : isSeparator c = false := h c List.mem_cons_self
    have hr : ∀ d ∈ rest, isSeparator d = false := fun d hd => h d (List.mem_cons_of_mem c hd)
    rw [splitLast, ih hr]
    simp [hc]

theorem splitLast_append {isSeparator : Char → Bool} {separator : Char}
    (hs : isSeparator separator = true) (before : List Char) {after : List Char}
    (h : ∀ c ∈ after, isSeparator c = false) :
    splitLast isSeparator (before ++ separator :: after) = some (before, after) := by
  induction before with
  | nil =>
    rw [List.nil_append, splitLast, splitLast_of_forall h]
    simp [hs]
  | cons c rest ih => rw [List.cons_append, splitLast, ih]

theorem splitLast_eq_none_iff {isSeparator : Char → Bool} {text : List Char} :
    splitLast isSeparator text = none ↔ ∀ c ∈ text, isSeparator c = false := by
  refine ⟨fun none => ?_, splitLast_of_forall⟩
  induction text with
  | nil => exact List.forall_mem_nil _
  | cons c rest ih =>
    rw [splitLast] at none
    split at none
    · cases none
    · next later =>
      split at none
      · cases none
      · next other => exact List.forall_mem_cons.mpr ⟨Bool.eq_false_iff.mpr other, ih later⟩

theorem eq_append_of_splitLast {isSeparator : Char → Bool} {text before after : List Char}
    (h : splitLast isSeparator text = some (before, after)) :
    ∃ separator, isSeparator separator = true ∧ text = before ++ separator :: after ∧
      ∀ c ∈ after, isSeparator c = false := by
  induction text generalizing before with
  | nil => cases h
  | cons c rest ih =>
    rw [splitLast] at h
    split at h
    · next head tail found =>
      cases h
      obtain ⟨separator, isOne, rfl, behind⟩ := ih found
      exact ⟨separator, isOne, rfl, behind⟩
    · next none =>
      split at h
      · next isOne =>
        cases h
        exact ⟨c, isOne, rfl, splitLast_eq_none_iff.mp none⟩
      · cases h

theorem splitAll_of_not_mem {separator : Char} {text : List Char} (h : separator ∉ text) :
    splitAll separator text = [text] := by
  induction text with
  | nil => rfl
  | cons c rest ih =>
    have hc : c ≠ separator := fun hc => h (hc ▸ List.mem_cons_self)
    have hr : separator ∉ rest := fun hr => h (List.mem_cons_of_mem c hr)
    rw [splitAll, if_neg hc, ih hr]

theorem splitAll_append {separator : Char} {before : List Char} (h : separator ∉ before)
    (after : List Char) :
    splitAll separator (before ++ separator :: after) = before :: splitAll separator after := by
  induction before with
  | nil => rw [List.nil_append, splitAll, if_pos rfl]
  | cons c rest ih =>
    have hc : c ≠ separator := fun hc => h (hc ▸ List.mem_cons_self)
    have hr : separator ∉ rest := fun hr => h (List.mem_cons_of_mem c hr)
    rw [List.cons_append, splitAll, if_neg hc, ih hr]

theorem splitAll_ne_nil (separator : Char) (text : List Char) : splitAll separator text ≠ [] := by
  cases text with
  | nil => exact List.cons_ne_nil _ _
  | cons c rest =>
    rw [splitAll]
    split
    · exact List.cons_ne_nil _ _
    · split <;> exact List.cons_ne_nil _ _

theorem intercalate_splitAll (separator : Char) (text : List Char) :
    [separator].intercalate (splitAll separator text) = text := by
  induction text with
  | nil => rfl
  | cons c rest ih =>
    rw [splitAll]
    split
    · next here =>
      rw [List.intercalate_cons_of_ne_nil (splitAll_ne_nil separator rest), ih, here]
      rfl
    · split
      · next none => exact absurd none (splitAll_ne_nil separator rest)
      · next part parts split =>
        rw [split] at ih
        cases parts with
        | nil =>
          rw [List.intercalate_singleton] at ih ⊢
          rw [ih]
        | cons next others =>
          rw [List.intercalate_cons_cons] at ih ⊢
          rw [← ih]
          rfl

theorem isPrefixOf?_append (lead rest : List Char) :
    lead.isPrefixOf? (lead ++ rest) = some rest := by
  induction lead with
  | nil => cases rest <;> rfl
  | cons c lead ih => rw [List.cons_append, List.isPrefixOf?, if_pos (beq_self_eq_true c), ih]

theorem dropLead_append (lead rest : List Char) : dropLead lead (lead ++ rest) = rest := by
  rw [dropLead, isPrefixOf?_append]
  rfl

theorem isPrefixOf?_eq_some {lead text rest : List Char} (h : lead.isPrefixOf? text = some rest) :
    text = lead ++ rest := by
  induction lead generalizing text with
  | nil => cases text <;> simp_all [List.isPrefixOf?]
  | cons c lead ih =>
    cases text with
    | nil => simp [List.isPrefixOf?] at h
    | cons d text =>
      rw [List.isPrefixOf?] at h
      split at h
      · next same => rw [List.cons_append, ← ih h, eq_of_beq same]
      · cases h

theorem dropLead_of_ne {lead text : List Char} (h : ∀ rest, text ≠ lead ++ rest) :
    dropLead lead text = text := by
  have found : lead.isPrefixOf? text = none := by
    cases found : lead.isPrefixOf? text with
    | none => rfl
    | some rest => exact absurd (isPrefixOf?_eq_some found) (h rest)
  rw [dropLead, found]
  rfl

theorem mem_of_mem_dropLead (lead : List Char) {text : List Char} {c : Char} (h : c ∈ text) :
    c ∈ lead ∨ c ∈ dropLead lead text := by
  rw [dropLead]
  cases found : lead.isPrefixOf? text with
  | none => exact .inr h
  | some rest =>
    rw [isPrefixOf?_eq_some found] at h
    exact List.mem_append.mp h

theorem dropTail?_append (tail rest : List Char) : dropTail? tail (rest ++ tail) = some rest := by
  rw [dropTail?, List.isSuffixOf?, List.reverse_append, isPrefixOf?_append, Option.map_some,
    List.reverse_reverse]

theorem dropTail?_eq_some_iff {tail text rest : List Char} :
    dropTail? tail text = some rest ↔ text = rest ++ tail := by
  constructor
  · intro h
    rw [dropTail?, List.isSuffixOf?, Option.map_eq_some_iff] at h
    obtain ⟨reversed, found, rfl⟩ := h
    have joined := congrArg List.reverse (isPrefixOf?_eq_some found)
    rwa [List.reverse_reverse, List.reverse_append, List.reverse_reverse] at joined
  · rintro rfl
    exact dropTail?_append tail rest

theorem dropTail?_of_getLast? {tail text : List Char} (ne : tail ≠ [])
    (h : text.getLast? ≠ tail.getLast?) : dropTail? tail text = none := by
  cases found : dropTail? tail text with
  | none => rfl
  | some rest =>
    refine absurd ?_ h
    obtain ⟨last, final⟩ : ∃ last, tail.getLast? = some last :=
      Option.isSome_iff_exists.mp (List.getLast?_isSome.mpr ne)
    rw [dropTail?_eq_some_iff.mp found, List.getLast?_append, final, Option.some_or]

end LedgerClient.Text
