import LedgerClient.Json.Printer
import LedgerClient.Json.Reader
import LedgerClient.Proofs.Text.Decimal
import LedgerClient.Proofs.Text.Shortest
import Mathlib.Data.Option.Basic

/-! Numbers of JSON text read back: integers of a word as they were, and every other number as a number
again, unless it is beyond all doubles and written as null. -/

namespace LedgerClient.Json

-- Slow to derive, so the equations are derived once, before the proofs that rewrite with them.
attribute [local simp] print printItems printMembers

/-- What can stand behind a value inside a written text. -/
def Ends (rest : Symbols) : Prop :=
  ∀ c, rest.head? = some c → c = some ',' ∨ c = some ']' ∨ c = some '\x7d'

theorem Ends.nil : Ends [] := by
  intro c h
  cases h

theorem Ends.comma (rest : Symbols) : Ends (some ',' :: rest) := by
  intro c h
  exact Or.inl (Option.some.inj h).symm

theorem Ends.bracket (rest : Symbols) : Ends (some ']' :: rest) := by
  intro c h
  exact Or.inr (Or.inl (Option.some.inj h).symm)

theorem Ends.brace (rest : Symbols) : Ends (some '\x7d' :: rest) := by
  intro c h
  exact Or.inr (Or.inr (Option.some.inj h).symm)

/-! ### The parts of a number -/

def NoDigit (rest : Symbols) : Prop :=
  ∀ c, rest.head? = some (some c) → c.isDigit = false

theorem NoDigit.cons {c : Char} (h : c.isDigit = false) (rest : Symbols) :
    NoDigit (some c :: rest) := by
  intro other same
  obtain rfl := Option.some.inj (Option.some.inj same)
  exact h

theorem Ends.noDigit {rest : Symbols} (ends : Ends rest) : NoDigit rest := by
  intro c same
  rcases ends _ same with same | same | same
  all_goals
    obtain rfl := Option.some.inj same
    rfl

theorem readDigits_of_noDigit {rest : Symbols} (stop : NoDigit rest) :
    readDigits rest = ([], rest) := by
  cases rest with
  | nil => rfl
  | cons symbol rest =>
    cases symbol with
    | none => rfl
    | some c => rw [readDigits, stop c rfl, if_neg Bool.false_ne_true]

theorem readDigits_append {digits : List Char} (h : Text.AllDigits digits) {rest : Symbols}
    (stop : NoDigit rest) : readDigits (digits.map some ++ rest) = (digits, rest) := by
  induction digits with
  | nil => exact readDigits_of_noDigit stop
  | cons c digits ih =>
    have tail : Text.AllDigits digits := fun d hd => h d (List.mem_cons_of_mem c hd)
    rw [List.map_cons, List.cons_append, readDigits, if_pos (h c List.mem_cons_self), ih tail]

theorem readFraction_of_ends {rest : Symbols} (ends : Ends rest) :
    readFraction rest = some (none, rest) := by
  cases rest with
  | nil => rfl
  | cons c rest =>
    rcases ends c rfl with rfl | rfl | rfl
    all_goals rfl

theorem readExponent_of_ends {rest : Symbols} (ends : Ends rest) :
    readExponent rest = some (none, rest) := by
  cases rest with
  | nil => rfl
  | cons c rest =>
    rcases ends c rfl with rfl | rfl | rfl
    all_goals rfl

/-- The digits before the point: at least one, and no zero in front of others. -/
structure IsWhole (digits : List Char) : Prop where
  all : Text.AllDigits digits
  ne_nil : digits ≠ []
  canonical : digits.head? ≠ some '0' ∨ digits.length = 1

def fractionText : Option (List Char) → List Char
  | none => []
  | some digits => '.' :: digits

def powerText : Option Int → List Char
  | none => []
  | some exponent => Number.exponentText exponent

def Number.ofParts (negative : Bool) (whole : List Char) : Option (List Char) → Option Int → Number
  | none, none => .integer negative (Text.digitsValue whole)
  | fraction, exponent => .decimal negative whole (fraction.getD []) (exponent.getD 0)

theorem readExponent_powerText (exponent : Option Int) {rest : Symbols} (ends : Ends rest) :
    readExponent ((powerText exponent).map some ++ rest) = some (exponent, rest) := by
  cases exponent with
  | none => exact readExponent_of_ends ends
  | some e =>
    obtain ⟨first, tail, digits⟩ := List.exists_cons_of_ne_nil (Text.toList_toString_ne_nil e.natAbs)
    have read := readDigits_append (Text.allDigits_toString e.natAbs) ends.noDigit
    have value := Text.digitsValue_toString e.natAbs
    rw [powerText, Number.exponentText, List.map_cons, List.map_cons, List.cons_append,
      List.cons_append, readExponent, if_pos (Or.inl rfl)]
    rw [digits] at read value ⊢
    by_cases negative : e < 0
    · rw [if_pos negative, readExponentSign]
      simp only [read, value, if_true, Option.some.injEq, Prod.mk.injEq, and_true]
      omega
    · rw [if_neg negative, readExponentSign]
      simp only [read, value, Bool.false_eq_true, if_false, Option.some.injEq, Prod.mk.injEq, and_true]
      omega

theorem noDigit_powerText (exponent : Option Int) {rest : Symbols} (ends : Ends rest) :
    NoDigit ((powerText exponent).map some ++ rest) := by
  cases exponent with
  | none => exact ends.noDigit
  | some e => exact NoDigit.cons rfl _

theorem readFraction_fractionText {fraction : Option (List Char)}
    (digits : ∀ text, fraction = some text → Text.AllDigits text ∧ text ≠ [])
    (exponent : Option Int) {rest : Symbols} (ends : Ends rest) :
    readFraction ((fractionText fraction).map some ++ ((powerText exponent).map some ++ rest)) =
      some (fraction, (powerText exponent).map some ++ rest) := by
  cases fraction with
  | none =>
    cases exponent with
    | none => exact readFraction_of_ends ends
    | some e => rfl
  | some text =>
    obtain ⟨all, ne⟩ := digits text rfl
    have read := readDigits_append all (noDigit_powerText exponent ends)
    rw [fractionText, List.map_cons, List.cons_append, readFraction, read]
    obtain ⟨first, tail, rfl⟩ := List.exists_cons_of_ne_nil ne
    rfl

theorem noDigit_fractionText (fraction : Option (List Char)) (exponent : Option Int) {rest : Symbols}
    (ends : Ends rest) :
    NoDigit ((fractionText fraction).map some ++ ((powerText exponent).map some ++ rest)) := by
  cases fraction with
  | none => exact noDigit_powerText exponent ends
  | some text => exact NoDigit.cons rfl _

theorem readUnsigned_parts (negative : Bool) {whole : List Char} (isWhole : IsWhole whole)
    {fraction : Option (List Char)}
    (digits : ∀ text, fraction = some text → Text.AllDigits text ∧ text ≠ [])
    (exponent : Option Int) {rest : Symbols} (ends : Ends rest) :
    readUnsigned negative ((whole ++ fractionText fraction ++ powerText exponent).map some ++ rest) =
      some (.ofParts negative whole fraction exponent, rest) := by
  have read := readDigits_append isWhole.all (noDigit_fractionText fraction exponent ends)
  have canonical : (!whole.isEmpty && (whole.head? != some '0' || whole.length == 1)) = true := by
    simpa [isWhole.ne_nil] using isWhole.canonical
  have passed := (Option.guard_eq_some' ()).mpr canonical
  rw [List.map_append, List.map_append, List.append_assoc, List.append_assoc, readUnsigned, read]
  simp only [passed, Option.bind_eq_bind, Option.bind_some,
    readFraction_fractionText digits exponent ends, readExponent_powerText exponent ends]
  cases fraction with
  | none => cases exponent <;> rfl
  | some text => rfl

/-! ### Integers -/

theorem head?_toDigits_ne {n : Nat} (h : 0 < n) : (Nat.toDigits 10 n).head? ≠ some '0' := by
  induction n using Nat.strongRecOn with
  | ind n ih =>
    by_cases small : n < 10
    · rw [Nat.toDigits_of_lt_base small, List.head?_cons]
      intro zero
      rw [Option.some.injEq, Nat.digitChar_eq_zero] at zero
      omega
    · have ne : Nat.toDigits 10 (n / 10) ≠ [] := Nat.toDigits_ne_nil
      obtain ⟨first, tail, digits⟩ := List.exists_cons_of_ne_nil ne
      have smaller := ih (n / 10) (by omega) (by omega)
      rw [Nat.toDigits_of_base_le (by decide) (by omega), digits, List.cons_append,
        List.head?_cons]
      rw [digits, List.head?_cons] at smaller
      exact smaller

theorem isWhole_toString (n : Nat) : IsWhole (toString n).toList where
  all := Text.allDigits_toString n
  ne_nil := Text.toList_toString_ne_nil n
  canonical := by
    rcases Nat.eq_zero_or_pos n with rfl | pos
    · exact Or.inr rfl
    · rw [Text.toList_toString]
      exact Or.inl (head?_toDigits_ne pos)

/-- Whether a text is read as a number wherever it stands. -/
structure ReadsNumber (text : List Char) (number : Number) : Prop where
  opens : ∃ first tail, text = first :: tail ∧ (first = '-' ∨ first.isDigit = true)
  read : ∀ {rest : Symbols}, Ends rest → readNumber (text.map some ++ rest) = some (number, rest)

theorem readsNumber_parts (negative : Bool) {whole : List Char} (isWhole : IsWhole whole)
    (fraction : Option (List Char)) (exponent : Option Int)
    (digits : ∀ text, fraction = some text → Text.AllDigits text ∧ text ≠ []) :
    ReadsNumber ((if negative then ['-'] else []) ++
      (whole ++ fractionText fraction ++ powerText exponent))
        (.ofParts negative whole fraction exponent) := by
  obtain ⟨first, tail, same⟩ := List.exists_cons_of_ne_nil isWhole.ne_nil
  have digit : first.isDigit = true := isWhole.all first (same ▸ List.mem_cons_self)
  cases negative with
  | true =>
    refine ⟨⟨'-', _, rfl, Or.inl rfl⟩, ?_⟩
    intro rest ends
    exact readUnsigned_parts true isWhole digits exponent ends
  | false =>
    refine ⟨⟨first, tail ++ fractionText fraction ++ powerText exponent, by simp [same],
      Or.inr digit⟩, ?_⟩
    intro rest ends
    have read := readUnsigned_parts false isWhole digits exponent ends
    rw [if_neg Bool.false_ne_true, List.nil_append]
    rw [same, List.cons_append, List.cons_append, List.map_cons, List.cons_append] at read ⊢
    rw [readNumber]
    · exact read
    · intro rest minus
      obtain rfl := Option.some.inj (List.cons.inj minus).1
      cases digit

theorem readsNumber_toString (n : Int) :
    ReadsNumber (toString n).toList (.integer (n < 0) n.natAbs) := by
  have natural (negative : Bool) (k : Nat) :
      ReadsNumber ((if negative then ['-'] else []) ++ (toString k).toList)
        (.integer negative k) := by
    have reads := readsNumber_parts negative (isWhole_toString k) none none nofun
    rwa [fractionText, powerText, List.append_nil, List.append_nil, Number.ofParts,
      Text.digitsValue_toString] at reads
  cases n with
  | ofNat k => exact natural false k
  | negSucc k =>
    rw [Text.toList_toString_negSucc, decide_eq_true (Int.negSucc_lt_zero k)]
    exact natural true (k + 1)

theorem print_ofInt {n : Int} (low : -9223372036854775808 ≤ n) (high : n ≤ 18446744073709551615) :
    print (ofInt n) = (toString n).toList := by
  have word : Number.toWord? (.integer (n < 0) n.natAbs) = some n := by
    rw [Number.toWord?, toInt?_ofInt]
    simp [low, high]
  rw [ofInt, print, Number.text, word]

/-! ### Doubles -/

def IsUnsigned (text : List Char) : Prop :=
  ∃ whole fraction exponent, IsWhole whole ∧
    (∀ digits, fraction = some digits → Text.AllDigits digits ∧ digits ≠ []) ∧
    text = whole ++ fractionText fraction ++ powerText exponent

theorem IsUnsigned.exists_readsNumber {text : List Char} (h : IsUnsigned text) (negative : Bool) :
    ∃ number, ReadsNumber ((if negative then ['-'] else []) ++ text) number := by
  obtain ⟨whole, fraction, exponent, isWhole, digits, rfl⟩ := h
  exact ⟨_, readsNumber_parts negative isWhole fraction exponent digits⟩

theorem isUnsigned_fraction {whole digits : List Char} (isWhole : IsWhole whole)
    (all : Text.AllDigits digits) (ne : digits ≠ []) (exponent : Option Int) :
    IsUnsigned (whole ++ '.' :: digits ++ powerText exponent) :=
  ⟨whole, some digits, exponent, isWhole, fun _ same => Option.some.inj same ▸ ⟨all, ne⟩, rfl⟩

theorem isWhole_cons {first : Char} {others : List Char} (digit : first.isDigit = true)
    (nonzero : first ≠ '0') (all : Text.AllDigits others) : IsWhole (first :: others) where
  all := List.forall_mem_cons.mpr ⟨digit, all⟩
  ne_nil := List.cons_ne_nil _ _
  canonical := Or.inl fun zero => nonzero (Option.some.inj zero)

theorem isUnsigned_decimalText {first : Char} {others : List Char} (digit : first.isDigit = true)
    (nonzero : first ≠ '0') (all : Text.AllDigits others) (point : Int) :
    IsUnsigned (Number.decimalText (first :: others) point) := by
  have zeros := Text.AllDigits.replicate_zero
  rw [Number.decimalText]
  dsimp only
  split
  · have parts := isUnsigned_fraction
      (isWhole_cons digit nonzero (all.append (zeros (point - (first :: others).length).toNat)))
      (zeros 1) (by decide) none
    simpa [powerText] using parts
  split
  · next inFront inside =>
    obtain ⟨before, same⟩ : ∃ before, point.toNat = before + 1 := ⟨point.toNat - 1, by omega⟩
    have front : Text.AllDigits (others.take before) := fun c hc => all c (List.mem_of_mem_take hc)
    have back : Text.AllDigits (others.drop before) := fun c hc => all c (List.mem_of_mem_drop hc)
    have left : others.drop before ≠ [] := by
      intro none
      have length := List.drop_eq_nil_iff.mp none
      rw [List.length_cons] at inFront
      omega
    have parts := isUnsigned_fraction (isWhole_cons digit nonzero front) back left none
    rw [same]
    simpa [powerText] using parts
  split
  · have digits : Text.AllDigits (first :: others) := List.forall_mem_cons.mpr ⟨digit, all⟩
    have parts := isUnsigned_fraction (isWhole_toString 0) ((zeros (-point).toNat).append digits)
      (by simp) none
    simpa [powerText] using parts
  · cases others with
    | nil =>
      refine ⟨[first], none, some (point - 1), isWhole_cons digit nonzero all, nofun, ?_⟩
      simp [fractionText, powerText]
    | cons second others =>
      exact isUnsigned_fraction (isWhole_cons digit nonzero (zeros 0)) all (List.cons_ne_nil _ _)
        (some (point - 1))

theorem isUnsigned_decimalText_toString {n : Nat} (nonzero : n ≠ 0) (point : Int) :
    IsUnsigned (Number.decimalText (toString n).toList point) := by
  have all := Text.allDigits_toString n
  have head := head?_toDigits_ne (Nat.pos_of_ne_zero nonzero)
  rw [← Text.toList_toString] at head
  obtain ⟨first, others, digits⟩ := List.exists_cons_of_ne_nil (Text.toList_toString_ne_nil n)
  rw [digits] at all head ⊢
  exact isUnsigned_decimalText (all first List.mem_cons_self) (fun zero => head (congrArg some zero))
    (fun c hc => all c (List.mem_cons_of_mem _ hc)) point

/-- Every double is written as a number, also those that are not finite. -/
theorem exists_readsNumber_bitsText (bits : UInt64) :
    ∃ number, ReadsNumber (Number.bitsText bits) number := by
  have signed {text : List Char} (unsigned : IsUnsigned text) :
      ∃ number, ReadsNumber ((if bits >>> 63 = 0 then [] else ['-']) ++ text) number := by
    by_cases positive : bits >>> 63 = 0
    · rw [if_pos positive]
      exact unsigned.exists_readsNumber false
    · rw [if_neg positive]
      exact unsigned.exists_readsNumber true
  rw [Number.bitsText]
  dsimp only
  split
  · exact signed (isUnsigned_fraction (isWhole_toString 0) (Text.AllDigits.replicate_zero 1)
      (by decide) none)
  · next nonzero =>
    refine signed (isUnsigned_decimalText_toString ?_ _)
    split
    · next least =>
      have positive : 0 < (bits &&& 0xFFFFFFFFFFFFF).toNat :=
        Nat.pos_of_ne_zero fun zero => nonzero ⟨zero, least⟩
      exact Text.shortest_ne_zero positive (Int.le_refl _) _
    · exact Text.shortest_ne_zero (by omega) (by omega) _

theorem Number.text_eq_null_or_reads (value : Number) :
    value.text = "null" ∨ ∃ number, ReadsNumber value.text.toList number := by
  rw [text]
  split
  · next n _ => exact Or.inr ⟨_, readsNumber_toString n⟩
  · rw [floatText]
    split
    · next double _ =>
      rw [String.toList_ofList]
      exact Or.inr (exists_readsNumber_bitsText double.toBits)
    · exact Or.inl rfl

end LedgerClient.Json
