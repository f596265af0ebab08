import LedgerClient.Proofs.Text.Decimal

/-! The decimal texts that the bounded readers accept: a run of digits for a magnitude, and digits
behind an optional sign for a signed number, each of a value within the bound. Leading zeros are no
fault, blanks and signs of magnitudes are. -/

namespace LedgerClient.Text

/-- One or more digits that denote a number. -/
structure Numeral (text : List Char) (n : Nat) : Prop where
  ne_nil : text ≠ []
  digits : AllDigits text
  value : digitsValue text = n

/-- A numeral, optionally behind a sign. -/
inductive SignedNumeral : List Char → Int → Prop
  | unsigned {text : List Char} {n : Nat} (magnitude : Numeral text n) : SignedNumeral text n
  | plus {text : List Char} {n : Nat} (magnitude : Numeral text n) : SignedNumeral ('+' :: text) n
  | minus {text : List Char} {n : Nat} (magnitude : Numeral text n) : SignedNumeral ('-' :: text) (-n)

namespace Numeral

variable {text : List Char} {n : Nat}

theorem isDigits (numeral : Numeral text n) : isDigits text = true :=
  numeral.digits.isDigits numeral.ne_nil

theorem of_isDigits (h : Text.isDigits text = true) : Numeral text (digitsValue text) where
  ne_nil := by
    rintro rfl
    cases h
  digits := .of_isDigits h
  value := rfl

theorem not_mem (numeral : Numeral text n) {c : Char} (h : c.isDigit = false) : c ∉ text :=
  numeral.digits.not_mem h

theorem toString (n : Nat) : Numeral (ToString.toString n).toList n where
  ne_nil := toList_toString_ne_nil n
  digits := allDigits_toString n
  value := digitsValue_toString n

end Numeral

theorem foldl_of_readMagnitude {limit value n : Nat} {overflow : NumberFault} {text : List Char}
    (inside : value ≤ limit) (read : readMagnitude limit overflow value text = .ok n) :
    AllDigits text ∧ text.foldl (fun value c => value * 10 + digitValue c) value = n ∧ n ≤ limit := by
  induction text generalizing value with
  | nil =>
    cases read
    exact ⟨List.forall_mem_nil _, rfl, inside⟩
  | cons c rest ih =>
    rw [readMagnitude] at read
    split at read
    · next digit =>
      dsimp only at read
      split at read
      · next small =>
        obtain ⟨digits, folded, bound⟩ := ih small read
        exact ⟨List.forall_mem_cons.mpr ⟨digit, digits⟩, folded, bound⟩
      · cases read
    · cases read

theorem readMagnitude_eq_ok_iff {limit n : Nat} {overflow : NumberFault} {text : List Char} :
    readMagnitude limit overflow 0 text = .ok n ↔
      AllDigits text ∧ digitsValue text = n ∧ n ≤ limit := by
  constructor
  · exact foldl_of_readMagnitude (Nat.zero_le limit)
  · rintro ⟨digits, rfl, bound⟩
    exact readMagnitude_digits digits bound

theorem map_readMagnitude_eq_ok_iff {limit : Nat} {overflow : NumberFault} {text : List Char}
    {f : Nat → Int} {n : Int} (ne : text ≠ []) :
    f <$> readMagnitude limit overflow 0 text = .ok n ↔
      ∃ k, Numeral text k ∧ k ≤ limit ∧ f k = n := by
  constructor
  · intro mapped
    cases read : readMagnitude limit overflow 0 text with
    | error fault =>
      rw [read] at mapped
      cases mapped
    | ok k =>
      rw [read] at mapped
      obtain ⟨digits, value, inside⟩ := readMagnitude_eq_ok_iff.mp read
      exact ⟨k, ⟨ne, digits, value⟩, inside, Except.ok.inj mapped⟩
  · rintro ⟨k, numeral, inside, rfl⟩
    rw [readMagnitude_eq_ok_iff.mpr ⟨numeral.digits, numeral.value, inside⟩]
    rfl

theorem readSigned_plus {limit : Nat} {digits : List Char} (h : digits ≠ []) :
    readSigned limit ('+' :: digits) = Int.ofNat <$> readMagnitude limit .tooLarge 0 digits := by
  cases digits with
  | nil => exact absurd rfl h
  | cons c rest => rfl

theorem readSigned_eq_ok_iff {limit : Nat} {text : List Char} {n : Int} :
    readSigned limit text = .ok n ↔
      SignedNumeral text n ∧ -(limit + 1 : Int) ≤ n ∧ n ≤ limit := by
  constructor
  · intro read
    have low : -(limit + 1 : Int) ≤ 0 := by omega
    rw [readSigned.eq_def] at read
    split at read
    · cases read
    · cases read
    · cases read
    · next digits ne =>
      obtain ⟨k, numeral, inside, rfl⟩ := (map_readMagnitude_eq_ok_iff ne).mp read
      exact ⟨.plus numeral, Int.le_trans low (Int.natCast_nonneg k), Int.ofNat_le.mpr inside⟩
    · next digits ne =>
      obtain ⟨k, numeral, inside, rfl⟩ := (map_readMagnitude_eq_ok_iff ne).mp read
      exact ⟨.minus numeral, by omega, by omega⟩
    · next ne _ _ _ _ =>
      obtain ⟨k, numeral, inside, rfl⟩ := (map_readMagnitude_eq_ok_iff ne).mp read
      exact ⟨.unsigned numeral, Int.le_trans low (Int.natCast_nonneg k), Int.ofNat_le.mpr inside⟩
  · rintro ⟨signed, low, high⟩
    cases signed with
    | unsigned numeral =>
      rw [readSigned_digits numeral.isDigits, map_readMagnitude_eq_ok_iff numeral.ne_nil]
      exact ⟨_, numeral, Int.ofNat_le.mp high, rfl⟩
    | plus numeral =>
      rw [readSigned_plus numeral.ne_nil, map_readMagnitude_eq_ok_iff numeral.ne_nil]
      exact ⟨_, numeral, Int.ofNat_le.mp high, rfl⟩
    | minus numeral =>
      rw [readSigned_minus numeral.ne_nil, map_readMagnitude_eq_ok_iff numeral.ne_nil]
      exact ⟨_, numeral, by omega, rfl⟩

namespace SignedNumeral

variable {text : List Char} {n : Int}

theorem exists_getLast? (signed : SignedNumeral text n) :
    ∃ last, text.getLast? = some last ∧ last.isDigit = true := by
  have ends {digits : List Char} {k : Nat} (numeral : Numeral digits k) :
      ∃ last, digits.getLast? = some last ∧ last.isDigit = true := by
    obtain ⟨last, final⟩ := Option.isSome_iff_exists.mp (List.getLast?_isSome.mpr numeral.ne_nil)
    exact ⟨last, final, numeral.digits last (List.mem_of_getLast? final)⟩
  cases signed with
  | unsigned numeral => exact ends numeral
  | plus numeral =>
    obtain ⟨last, final, digit⟩ := ends numeral
    exact ⟨last, by rw [List.getLast?_cons, final]; rfl, digit⟩
  | minus numeral =>
    obtain ⟨last, final, digit⟩ := ends numeral
    exact ⟨last, by rw [List.getLast?_cons, final]; rfl, digit⟩

theorem mem_cases (signed : SignedNumeral text n) {c : Char} (h : c ∈ text) :
    c.isDigit = true ∨ c = '+' ∨ c = '-' := by
  cases signed with
  | unsigned numeral => exact .inl (numeral.digits c h)
  | plus numeral =>
    rcases List.mem_cons.mp h with sign | digit
    · exact .inr (.inl sign)
    · exact .inl (numeral.digits c digit)
  | minus numeral =>
    rcases List.mem_cons.mp h with sign | digit
    · exact .inr (.inr sign)
    · exact .inl (numeral.digits c digit)

end SignedNumeral

end LedgerClient.Text
