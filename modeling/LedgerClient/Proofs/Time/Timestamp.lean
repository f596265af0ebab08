import LedgerClient.Proofs.Text.Decimal
import LedgerClient.Proofs.Time.Calendar
import LedgerClient.Time.Timestamp
import Mathlib.Data.Option.Basic

/-! Timestamps read back: every instant of civil time in the supported years, leap seconds and years
outside 0 to 9999 among them. Any other leap second is written like the second after it, and read as
that. Each part of the text is followed by a character that ends it. -/

namespace LedgerClient.Timestamp

open Text

theorem skipBlanks_cons {c : Char} (h : Text.isBlank c = false) (rest : List Char) :
    skipBlanks (c :: rest) = c :: rest := by
  rw [skipBlanks, List.dropWhile_cons_of_neg]
  rw [h]
  exact Bool.false_ne_true

theorem readDigits_append {limit : Nat} {digits rest : List Char} (h : AllDigits digits)
    (ne : digits ≠ []) (short : digits.length ≤ limit) (fits : digitsValue digits ≤ maxInt64)
    (stop : rest.head?.all (fun c => !c.isDigit) = true) :
    readDigits limit (digits ++ rest) = some (digitsValue digits, rest) := by
  have taken : ((digits ++ rest).takeWhile Char.isDigit).take limit = digits := by
    rw [h.takeWhile_append stop, List.take_of_length_le short]
  have accepted : (!digits.isEmpty && decide (digitsValue digits ≤ maxInt64)) = true := by
    simp [ne, fits]
  simp only [readDigits, taken, accepted, guard, if_true, Option.pure_def, Option.bind_eq_bind,
    Option.bind_some, List.drop_left]

theorem readPart_pad {n : Nat} (h : n < 100) {rest : List Char}
    (stop : rest.head?.all (fun c => !c.isDigit) = true) :
    readPart ((pad 2 n).toList ++ rest) = some (n, rest) := by
  have digits := allDigits_padZeros 2 n
  have length : (padZeros 2 (toString n)).toList.length = 2 := length_padZeros (by decide) h
  have skip : skipBlanks ((pad 2 n).toList ++ rest) = (pad 2 n).toList ++ rest := by
    rw [pad]
    cases text : (padZeros 2 (toString n)).toList with
    | nil => exact absurd text (padZeros_ne_nil 2 n)
    | cons c tail =>
      exact skipBlanks_cons (isBlank_eq_false_of_isDigit (digits c (text ▸ List.mem_cons_self))) _
  rw [readPart, skip, pad, readDigits_append digits (padZeros_ne_nil 2 n) (Nat.le_of_eq length)
    _ stop, digitsValue_padZeros]
  rw [digitsValue_padZeros, maxInt64]
  omega

theorem readPart_pad_cons {n : Nat} (h : n < 100) {c : Char} (hc : c.isDigit = false)
    (rest : List Char) : readPart ((pad 2 n).toList ++ c :: rest) = some (n, c :: rest) :=
  readPart_pad h (by rw [List.head?_cons, Option.all_some, hc]; rfl)

theorem expect_cons {separator : Char} (h : Text.isBlank separator = false) (rest : List Char) :
    expect separator (separator :: rest) = some rest := by
  rw [expect, skipBlanks_cons h]
  simp

theorem readYear_digit {c : Char} (h : c.isDigit = true) (rest : List Char) :
    readYear (c :: rest) = (fun (n, rest) => ((n : Int), rest)) <$> readDigits 4 (c :: rest) := by
  rw [readYear, skipBlanks_cons (isBlank_eq_false_of_isDigit h)]
  split
  · next same => cases same; cases h
  · next same => cases same; cases h
  · rfl

theorem readYear_minus (rest : List Char) :
    readYear ('-' :: rest) =
      (fun (n, rest) => (-(n : Int), rest)) <$> readDigits rest.length rest := rfl

theorem readYear_plus (rest : List Char) :
    readYear ('+' :: rest) =
      (fun (n, rest) => ((n : Int), rest)) <$> readDigits rest.length rest := rfl

theorem readYear_yearText {year : Int} (h : year.natAbs ≤ maxInt64) {rest : List Char}
    (stop : rest.head?.all (fun c => !c.isDigit) = true) :
    readYear ((yearText year).toList ++ rest) = some (year, rest) := by
  have read : ∀ {limit n : Nat}, n ≤ maxInt64 → (pad 4 n).toList.length ≤ limit →
      readDigits limit ((pad 4 n).toList ++ rest) = some (n, rest) := by
    intro limit n fits short
    have value : digitsValue (pad 4 n).toList = n := digitsValue_padZeros 4 n
    have bound : digitsValue (pad 4 n).toList ≤ maxInt64 := Nat.le_trans (Nat.le_of_eq value) fits
    have read := readDigits_append (allDigits_padZeros 4 n) (padZeros_ne_nil 4 n) short bound stop
    rw [← pad, value] at read
    exact read
  rw [yearText]
  by_cases short : 0 ≤ year ∧ year ≤ 9999
  · have room : year.toNat < 10 ^ 4 := by omega
    have width : (pad 4 year.toNat).toList.length = 4 := length_padZeros (by decide) room
    have fits : year.toNat ≤ maxInt64 := by omega
    have four := read fits (Nat.le_of_eq width)
    rw [if_pos short]
    cases text : (pad 4 year.toNat).toList with
    | nil => exact absurd text (padZeros_ne_nil 4 _)
    | cons c tail =>
      have digit : c.isDigit = true := allDigits_padZeros 4 _ c (text ▸ List.mem_cons_self)
      rw [text] at four
      rw [List.cons_append, readYear_digit digit, ← List.cons_append, four, Option.map_eq_map,
        Option.map_some]
      simp only [Int.toNat_of_nonneg short.1]
  · have all := read h (Nat.le_trans (Nat.le_add_right _ rest.length)
      (Nat.le_of_eq List.length_append.symm))
    rw [if_neg short]
    by_cases negative : year < 0
    · have value : -(year.natAbs : Int) = year := by omega
      have text : ("-" ++ pad 4 year.natAbs).toList = '-' :: (pad 4 year.natAbs).toList := by simp
      rw [if_pos negative, text, List.cons_append, readYear_minus, all, Option.map_eq_map,
        Option.map_some]
      simp only [value]
    · have value : (year.natAbs : Int) = year := by omega
      have text : ("+" ++ pad 4 year.natAbs).toList = '+' :: (pad 4 year.natAbs).toList := by simp
      rw [if_neg negative, text, List.cons_append, readYear_plus, all, Option.map_eq_map,
        Option.map_some]
      simp only [value]

theorem toList_point (text : String) : ("." ++ text).toList = '.' :: text.toList := by
  simp

theorem readFraction_pad {width n : Nat} (hw : 0 < width) (short : width ≤ 9) (h : n < 10 ^ width)
    {rest : List Char} (stop : rest.head?.all (fun c => !c.isDigit) = true) :
    readFraction ('.' :: ((pad width n).toList ++ rest)) = some (n * 10 ^ (9 - width), rest) := by
  have length : (pad width n).toList.length = width := length_padZeros hw h
  have value : digitsValue (pad width n).toList = n := digitsValue_padZeros width n
  have digits := (allDigits_padZeros width n).takeWhile_append stop
  have kept : (pad width n).toList.take 9 = (pad width n).toList :=
    List.take_of_length_le (by omega)
  have ne : (!(pad width n).toList.isEmpty) = true := by
    rw [Bool.not_eq_true', List.isEmpty_eq_false_iff]
    exact padZeros_ne_nil width n
  have dropped : ((pad width n).toList ++ rest).drop width = rest := List.drop_left' length
  rw [← pad] at digits
  simp only [readFraction, digits, ne, guard, if_true, Option.pure_def, Option.bind_eq_bind,
    Option.bind_some, kept, value, length, dropped]
  rfl

theorem readFraction_fractionText {nanos : Nat} (h : nanos < nanosPerSecond) :
    readFraction ((fractionText nanos).toList ++ ['Z']) = some (nanos, ['Z']) := by
  rw [nanosPerSecond] at h
  rw [fractionText]
  by_cases whole : nanos = 0
  · subst whole
    rfl
  rw [if_neg whole]
  by_cases millis : nanos % 1000000 = 0
  · have value : nanos / 1000000 * 10 ^ (9 - 3) = nanos := by omega
    have room : nanos / 1000000 < 10 ^ 3 := by omega
    rw [if_pos millis, toList_point, List.cons_append]
    refine (readFraction_pad (by decide) (by decide) room rfl).trans ?_
    rw [value]
  rw [if_neg millis]
  by_cases micros : nanos % 1000 = 0
  · have value : nanos / 1000 * 10 ^ (9 - 6) = nanos := by omega
    have room : nanos / 1000 < 10 ^ 6 := by omega
    rw [if_pos micros, toList_point, List.cons_append]
    refine (readFraction_pad (by decide) (by decide) room rfl).trans ?_
    rw [value]
  · have value : nanos * 10 ^ (9 - 9) = nanos := Nat.mul_one nanos
    have room : nanos < 10 ^ 9 := h
    rw [if_neg micros, toList_point, List.cons_append]
    refine (readFraction_pad (by decide) (by decide) room rfl).trans ?_
    rw [value]

theorem head_fractionText (nanos : Nat) :
    ((fractionText nanos).toList ++ ['Z']).head?.all (fun c => !c.isDigit) = true := by
  rw [fractionText]
  split
  · rfl
  split
  · rw [toList_point]
    rfl
  split
  · rw [toList_point]
    rfl
  · rw [toList_point]
    rfl

section

variable (t : Instant)

def date : Calendar.Date :=
  Calendar.Date.ofDays (t.seconds / secondsPerDay)

def daySecond : Nat :=
  (t.seconds % secondsPerDay).toNat

/-- The seconds that a leap second is shown beyond its own. -/
def extra : Nat :=
  if t.isLeap then 1 else 0

def shownNanos : Nat :=
  if t.isLeap then t.nanos - nanosPerSecond else t.nanos

theorem toList_text : (text t).toList =
    (yearText (date t).year).toList ++ '-' :: ((pad 2 (date t).month).toList ++ '-' ::
      ((pad 2 (date t).day).toList ++ 'T' :: ((pad 2 (daySecond t / 3600)).toList ++ ':' ::
        ((pad 2 (daySecond t / 60 % 60)).toList ++ ':' ::
          ((pad 2 (daySecond t % 60 + extra t)).toList ++
            ((fractionText (shownNanos t)).toList ++ ['Z'])))))) := by
  have parts : (if t.isLeap then (1, t.nanos - nanosPerSecond) else (0, t.nanos)) =
      (extra t, shownNanos t) := by
    rw [extra, shownNanos]
    split <;> rfl
  rw [text]
  simp only [parts, String.toList_append, List.append_assoc]
  simp [date, daySecond]

theorem shownNanos_lt : shownNanos t < nanosPerSecond := by
  have := t.nanos_lt
  rw [shownNanos]
  split
  · omega
  · next early =>
    simp only [Instant.isLeap, decide_eq_true_eq] at early
    omega

theorem daySecond_lt : daySecond t < 86400 := by
  rw [daySecond, secondsPerDay]
  omega

theorem year_natAbs_le : (date t).year.natAbs ≤ maxInt64 := by
  have := t.seconds_ge
  have := t.seconds_le
  obtain ⟨era, year, day, split, hyear, hday, -, parts⟩ :=
    Calendar.ofDays_parts (t.seconds / secondsPerDay)
  have before : Calendar.daysBefore year ≤ 146097 := by
    rw [Calendar.daysBefore]
    omega
  rw [date, parts, maxInt64]
  rw [secondsPerDay] at split
  dsimp only
  split <;> omega

theorem assemble_parts (civil : t.IsCivil) :
    assemble (date t) (daySecond t / 3600) (daySecond t / 60 % 60) (daySecond t % 60 + extra t)
      (shownNanos t) 0 = some t := by
  -- The shown parts make up the instant again; second 60 is one moved into a leap second.
  have inDay := daySecond_lt t
  have whole : t.seconds = t.seconds / 86400 * 86400 + daySecond t := by
    rw [daySecond, secondsPerDay]
    omega
  have parts : (if daySecond t % 60 + extra t = 60 then (59, shownNanos t + nanosPerSecond)
      else (daySecond t % 60 + extra t, shownNanos t)) = (daySecond t % 60, t.nanos) := by
    by_cases leap : t.isLeap = true
    · have enough : nanosPerSecond ≤ t.nanos := of_decide_eq_true leap
      have late : daySecond t % 60 = 59 := by
        have ends := civil.resolve_left (Nat.not_lt.mpr enough)
        omega
      rw [extra, shownNanos, if_pos leap, if_pos leap, late, if_pos rfl, Nat.sub_add_cancel enough]
    · have early : ¬daySecond t % 60 = 60 := by omega
      rw [extra, shownNanos, if_neg leap, if_neg leap, Nat.add_zero, if_neg early]
  have inRange : daySecond t / 3600 < 24 ∧ daySecond t / 60 % 60 < 60 ∧
      daySecond t % 60 + extra t ≤ 60 := by
    rw [extra]
    split <;> omega
  have total : (date t).toDays * secondsPerDay + (daySecond t / 3600 : Nat) * 3600 +
      (daySecond t / 60 % 60 : Nat) * 60 + (daySecond t % 60 : Nat) = t.seconds := by
    rw [date, Calendar.toDays_ofDays, secondsPerDay]
    omega
  have valid : (date t).exists = true := Calendar.exists_ofDays _
  simp only [assemble, valid, parts, total, inRange.1, inRange.2.1, inRange.2.2, guard,
    decide_true, Bool.and_true, if_true, Int.sub_zero, civil.ofParts?_parts, Option.pure_def,
    Option.bind_eq_bind, Option.bind_some]
  rfl

theorem parse?_text (civil : t.IsCivil) : parse? (text t) = some t := by
  have inDay := daySecond_lt t
  have valid : (date t).exists = true := Calendar.exists_ofDays _
  obtain ⟨month, day⟩ : (date t).month < 100 ∧ (date t).day < 100 := by
    simp only [Calendar.Date.exists, Bool.and_eq_true, decide_eq_true_eq] at valid
    have short : Calendar.daysInMonth (date t).year (date t).month ≤ 31 := by
      rw [Calendar.daysInMonth]
      split
      · split <;> decide
      · split <;> decide
    omega
  obtain ⟨hour, minute, second⟩ : daySecond t / 3600 < 100 ∧ daySecond t / 60 % 60 < 100 ∧
      daySecond t % 60 + extra t < 100 := by
    rw [extra]
    split <;> omega
  have dash : ∀ rest, expect '-' ('-' :: rest) = some rest := expect_cons (by decide)
  have colon : ∀ rest, expect ':' (':' :: rest) = some rest := expect_cons (by decide)
  have zone : readZone (skipBlanks ['Z']) = some (0, []) := rfl
  rw [parse?, toList_text]
  -- Each reader takes its part of the text and leaves the rest to the next one.
  refine Option.bind_eq_some_iff.mpr ⟨_, readYear_yearText (year_natAbs_le t) rfl, ?_⟩
  refine Option.bind_eq_some_iff.mpr ⟨_, dash _, ?_⟩
  refine Option.bind_eq_some_iff.mpr ⟨_, readPart_pad_cons month (by decide) _, ?_⟩
  refine Option.bind_eq_some_iff.mpr ⟨_, dash _, ?_⟩
  refine Option.bind_eq_some_iff.mpr ⟨_, readPart_pad_cons day (by decide) _, ?_⟩
  refine Option.bind_eq_some_iff.mpr ⟨(), if_pos (Or.inl rfl), ?_⟩
  refine Option.bind_eq_some_iff.mpr ⟨_, readPart_pad_cons hour (by decide) _, ?_⟩
  refine Option.bind_eq_some_iff.mpr ⟨_, colon _, ?_⟩
  refine Option.bind_eq_some_iff.mpr ⟨_, readPart_pad_cons minute (by decide) _, ?_⟩
  refine Option.bind_eq_some_iff.mpr ⟨_, colon _, ?_⟩
  refine Option.bind_eq_some_iff.mpr ⟨_, readPart_pad second (head_fractionText _), ?_⟩
  refine Option.bind_eq_some_iff.mpr ⟨_, readFraction_fractionText (shownNanos_lt t), ?_⟩
  refine Option.bind_eq_some_iff.mpr ⟨_, zone, ?_⟩
  exact assemble_parts t civil

/-- The instant of civil time that is shown: a leap second that ends no minute is the second after. -/
def settled : Instant :=
  if h : t.IsCivil then t
  else
    { seconds := t.seconds + 1
      nanos := t.nanos - nanosPerSecond
      seconds_ge := Int.le_trans t.seconds_ge (by omega)
      seconds_le := by
        have := t.seconds_le
        have := (not_or.mp h).2
        omega
      nanos_lt := by
        have := t.nanos_lt
        omega }

theorem settled_isCivil : (settled t).IsCivil := by
  rw [settled]
  split
  · assumption
  · have := t.nanos_lt
    exact .inl (by dsimp only; omega)

theorem text_settled : text (settled t) = text t := by
  by_cases civil : t.IsCivil
  · rw [settled, dif_pos civil]
  obtain ⟨leap, inside⟩ := not_or.mp civil
  have seconds : (settled t).seconds = t.seconds + 1 := by rw [settled, dif_neg civil]
  have nanos : (settled t).nanos = t.nanos - nanosPerSecond := by rw [settled, dif_neg civil]
  have late : t.isLeap = true := decide_eq_true (Nat.not_lt.mp leap)
  have early : (settled t).isLeap = false := by
    have := t.nanos_lt
    exact decide_eq_false (by omega)
  have day : date (settled t) = date t := by
    rw [date, date, seconds, secondsPerDay]
    congr 1
    omega
  have second : daySecond (settled t) = daySecond t + 1 := by
    rw [daySecond, daySecond, seconds, secondsPerDay]
    omega
  -- The second counted further is not the first of a minute.
  have within : daySecond t % 60 ≠ 59 := by
    rw [daySecond, secondsPerDay]
    omega
  have hour : (daySecond t + 1) / 3600 = daySecond t / 3600 := by omega
  have minute : (daySecond t + 1) / 60 % 60 = daySecond t / 60 % 60 := by omega
  have place : (daySecond t + 1) % 60 = daySecond t % 60 + 1 := by omega
  have shown : extra (settled t) = 0 ∧ extra t = 1 ∧ shownNanos (settled t) = shownNanos t := by
    simp [extra, shownNanos, late, early, nanos]
  apply String.toList_injective
  simp only [toList_text, day, second, hour, minute, place, shown, Nat.add_zero]

/-- What is read from the timestamp of any instant. -/
theorem parse?_text_eq_settled : parse? (text t) = some (settled t) := by
  rw [← text_settled]
  exact parse?_text _ (settled_isCivil t)

end

/-- A leap second inside a minute, half of it gone; and the time that is shown for it. -/
def leapInside : Instant :=
  ⟨10, 1500000000, by decide, by decide, by decide⟩

def leapInsideShown : Instant :=
  ⟨11, 500000000, by decide, by decide, by decide⟩

example : settled leapInside = leapInsideShown := by decide

end LedgerClient.Timestamp
