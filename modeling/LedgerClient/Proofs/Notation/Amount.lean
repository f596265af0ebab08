import LedgerClient.Hbar
import LedgerClient.Proofs.Text.Numeral
import LedgerClient.Proofs.Text.Split

/-! Texts of amounts. Every amount is read from its own text, between blanks of any kind, and what is
written in hbars is multiplied without reaching the ends of the range. -/

namespace LedgerClient

/-! ### Blanks around a text -/

theorem Text.dropWhile_isBlank_append {before text : List Char} {first : Char}
    (blank : ∀ c ∈ before, isBlank c = true) (head : text.head? = some first)
    (solid : isBlank first = false) (rest : List Char) :
    (before ++ (text ++ rest)).dropWhile isBlank = text ++ rest := by
  cases text with
  | nil => cases head
  | cons c tail =>
    obtain rfl : c = first := Option.some.inj head
    rw [List.dropWhile_append_of_pos blank, List.cons_append, List.dropWhile_cons_of_neg]
    rw [solid]
    exact Bool.false_ne_true

theorem Text.trim_append {before text after : List Char} {first last : Char}
    (blankBefore : ∀ c ∈ before, isBlank c = true) (blankAfter : ∀ c ∈ after, isBlank c = true)
    (head : text.head? = some first) (solidFirst : isBlank first = false)
    (final : text.getLast? = some last) (solidLast : isBlank last = false) :
    trim (before ++ text ++ after) = text := by
  have reversed : ∀ c ∈ after.reverse, isBlank c = true := fun c hc =>
    blankAfter c (List.mem_reverse.mp hc)
  have end_ : text.reverse.head? = some last := by
    rw [List.head?_reverse]
    exact final
  have back := dropWhile_isBlank_append reversed end_ solidLast []
  rw [List.append_nil] at back
  rw [trim, List.append_assoc, dropWhile_isBlank_append blankBefore head solidFirst,
    List.reverse_append, back, List.reverse_reverse]

namespace Hbar

/-! ### What the reader finds -/

def parts (input : String) : List Char × List Char :=
  (Text.splitFirst ' ' (Text.trim input.toList)).getD (Text.trim input.toList, ['ℏ'])

structure Finds (input : String) (count : Int64) (unit : List Char) : Prop where
  unit : (parts input).2 = unit
  count : Text.readSigned Text.maxInt64 (parts input).1 = .ok count.toInt

theorem toInt_of_readSigned {text : List Char} {n : Int}
    (read : Text.readSigned Text.maxInt64 text = .ok n) : (Int64.ofInt n).toInt = n := by
  obtain ⟨-, low, high⟩ := Text.readSigned_eq_ok_iff.mp read
  rw [Text.maxInt64] at low high
  exact Int64.toInt_ofInt_of_le (by omega) (by omega)

theorem parse_of_error {input : String} {fault : Text.NumberFault}
    (read : Text.readSigned Text.maxInt64 (parts input).1 = .error fault) :
    parse input = .error (.parse input (.amount (String.ofList (parts input).1) fault)) := by
  rw [parse, ← parts]
  generalize parts input = found at read ⊢
  cases found with
  | mk number unit =>
    dsimp only at read ⊢
    rw [read]

theorem parse_of_ok {input : String} {count : Int}
    (read : Text.readSigned Text.maxInt64 (parts input).1 = .ok count) :
    parse input =
      if (parts input).2 = ['ℏ'] then .ok (ofHbars (.ofInt count))
      else if (parts input).2 = ['t', 'ℏ'] then .ok ⟨.ofInt count⟩
      else .error (.parse input (.unit (String.ofList (parts input).2))) := by
  rw [parse, ← parts]
  generalize parts input = found at read ⊢
  cases found with
  | mk number unit =>
    dsimp only at read ⊢
    rw [read]

theorem parse_eq_ok_iff {input : String} {amount : Hbar} :
    parse input = .ok amount ↔
      (∃ hbars, Finds input hbars ['ℏ'] ∧ ofHbars hbars = amount) ∨
        Finds input amount.tinybars ['t', 'ℏ'] := by
  constructor
  · intro found
    cases read : Text.readSigned Text.maxInt64 (parts input).1 with
    | error fault =>
      rw [parse_of_error read] at found
      cases found
    | ok count =>
      have exact_ := toInt_of_readSigned read
      rw [parse_of_ok read] at found
      split_ifs at found with inHbars inTinybars
      · cases found
        exact .inl ⟨_, ⟨inHbars, exact_.symm ▸ read⟩, rfl⟩
      · cases found
        exact .inr ⟨inTinybars, exact_.symm ▸ read⟩
  · rintro (⟨hbars, ⟨unit, count⟩, rfl⟩ | ⟨unit, count⟩)
    · rw [parse_of_ok count, unit, Int64.ofInt_toInt]
      rfl
    · rw [parse_of_ok count, unit, Int64.ofInt_toInt]
      rfl

/-! ### What the writer writes -/

abbrev IsWhole (amount : Hbar) : Prop :=
  amount.tinybars.toInt % tinybarsPerHbar = 0

def count (amount : Hbar) : Int :=
  if amount.IsWhole then amount.tinybars.toInt / tinybarsPerHbar else amount.tinybars.toInt

def unit (amount : Hbar) : List Char :=
  if amount.IsWhole then ['ℏ'] else ['t', 'ℏ']

theorem toList_text (amount : Hbar) :
    amount.text.toList = (toString amount.count).toList ++ ' ' :: amount.unit := by
  by_cases whole : amount.IsWhole
  · rw [text, count, unit, if_pos whole, if_pos whole, if_pos whole, String.toList_append]
    rfl
  · rw [text, count, unit, if_neg whole, if_neg whole, if_neg whole, String.toList_append]
    rfl

theorem count_bounds (amount : Hbar) :
    -(Text.maxInt64 + 1 : Int) ≤ amount.count ∧ amount.count ≤ Text.maxInt64 := by
  have low := amount.tinybars.le_toInt
  have high := amount.tinybars.toInt_lt
  have factor : tinybarsPerHbar = 100000000 := rfl
  rw [count, Text.maxInt64]
  split
  · rw [factor]
    omega
  · omega

theorem toInt_count (amount : Hbar) : (Int64.ofInt amount.count).toInt = amount.count := by
  obtain ⟨low, high⟩ := amount.count_bounds
  rw [Text.maxInt64] at low high
  exact Int64.toInt_ofInt_of_le (by omega) (by omega)

variable {amount : Hbar} {before after : List Char}

theorem trim_text (blankBefore : ∀ c ∈ before, Text.isBlank c = true)
    (blankAfter : ∀ c ∈ after, Text.isBlank c = true) :
    Text.trim (before ++ amount.text.toList ++ after) = amount.text.toList := by
  have ne : (toString amount.count).toList ≠ [] := by
    cases amount.count with
    | ofNat n => exact Text.toList_toString_ne_nil n
    | negSucc n => rw [Text.toList_toString_negSucc]; exact List.cons_ne_nil _ _
  obtain ⟨first, tail, digits⟩ := List.exists_cons_of_ne_nil ne
  have solid : Text.isBlank first = false := by
    rcases Text.mem_toString_int (digits ▸ List.mem_cons_self : first ∈ _) with rfl | digit
    · rfl
    · exact Text.isBlank_eq_false_of_isDigit digit
  have final : amount.text.toList.getLast? = some 'ℏ' := by
    rw [toList_text, unit]
    split <;> simp
  refine Text.trim_append blankBefore blankAfter ?_ solid final rfl
  rw [toList_text, digits]
  rfl

theorem parts_text (blankBefore : ∀ c ∈ before, Text.isBlank c = true)
    (blankAfter : ∀ c ∈ after, Text.isBlank c = true) :
    parts (String.ofList (before ++ amount.text.toList ++ after)) =
      ((toString amount.count).toList, amount.unit) := by
  have apart : ' ' ∉ (toString amount.count).toList := by
    intro blank
    rcases Text.mem_toString_int blank with minus | digit
    · cases minus
    · cases digit
  rw [parts, String.toList_ofList, trim_text blankBefore blankAfter, toList_text,
    Text.splitFirst_append apart]
  rfl

theorem ofHbars_count (whole : amount.IsWhole) :
    amount.count * tinybarsPerHbar = amount.tinybars.toInt ∧
      ofHbars (.ofInt amount.count) = amount := by
  have product : amount.count * tinybarsPerHbar = amount.tinybars.toInt := by
    rw [count, if_pos whole, Int.ediv_mul_cancel (Int.dvd_of_emod_eq_zero whole)]
  have low := amount.tinybars.le_toInt
  have high := amount.tinybars.toInt_lt
  refine ⟨product, ?_⟩
  rw [ofHbars, toInt_count, product, clamp, Text.maxInt64, Int.min_eq_left (by omega),
    Int.max_eq_right (by omega), Int64.ofInt_toInt]

/-- An amount is read from its text between any blanks. The count of hbars that is multiplied on the
way, if any, has the amount as its exact product, so that nothing is cut off at the ends of the
range. -/
theorem parse_padded_text (amount : Hbar) {before after : List Char}
    (blankBefore : ∀ c ∈ before, Text.isBlank c = true)
    (blankAfter : ∀ c ∈ after, Text.isBlank c = true) :
    parse (String.ofList (before ++ amount.text.toList ++ after)) = .ok amount ∧
      ∀ hbars, Finds (String.ofList (before ++ amount.text.toList ++ after)) hbars ['ℏ'] →
        hbars.toInt * tinybarsPerHbar = amount.tinybars.toInt ∧
          Int64.minValue.toInt ≤ hbars.toInt * tinybarsPerHbar ∧
          hbars.toInt * tinybarsPerHbar ≤ Int64.maxValue.toInt := by
  have found := @parts_text amount _ _ blankBefore blankAfter
  have read := Text.readSigned_toString amount.count_bounds.1 amount.count_bounds.2
  constructor
  · rw [parse_eq_ok_iff]
    by_cases whole : amount.IsWhole
    · refine .inl ⟨.ofInt amount.count, ⟨?_, ?_⟩, (ofHbars_count whole).2⟩
      · rw [found, unit, if_pos whole]
      · rw [found, toInt_count, read]
    · refine .inr ⟨?_, ?_⟩
      · rw [found, unit, if_neg whole]
      · rw [found, read, count, if_neg whole]
  · rintro hbars ⟨inHbars, number⟩
    rw [found] at inHbars number
    have whole : amount.IsWhole := by
      by_contra fraction
      rw [unit, if_neg fraction] at inHbars
      cases inHbars
    have same : amount.count = hbars.toInt := Except.ok.inj (read.symm.trans number)
    have product := (ofHbars_count whole).1
    rw [same] at product
    exact ⟨product, product ▸ amount.tinybars.le_toInt, product ▸ amount.tinybars.toInt_le⟩

theorem parse_padded_text_lowest :
    parse "\u3000-92233720368 ℏ\n" = .ok ⟨-9223372036800000000⟩ ∧
      ∀ hbars, Finds "\u3000-92233720368 ℏ\n" hbars ['ℏ'] →
        hbars.toInt * tinybarsPerHbar = -9223372036800000000 := by
  have text : String.ofList (['\u3000'] ++ (text ⟨-9223372036800000000⟩).toList ++ ['\n']) =
      "\u3000-92233720368 ℏ\n" := by decide +kernel
  have padded := @parse_padded_text ⟨-9223372036800000000⟩ ['\u3000'] ['\n']
    (List.forall_mem_singleton.mpr rfl) (List.forall_mem_singleton.mpr rfl)
  rw [text] at padded
  exact ⟨padded.1, fun hbars found => (padded.2 hbars found).1⟩

example : parse "-9223372036854775808 tℏ" = .ok ⟨.minValue⟩ := by decide +kernel

end Hbar

end LedgerClient
