import LedgerClient.Time.Calendar

/-! Days and dates correspond. An era of 400 years is cut into centuries of 36524 days, these into
spans of four years with 1461 days, and these into years; only the last year of a span may hold a
366th day, and the last span of a century holds it only at the end of the era. -/

namespace LedgerClient.Calendar

def yearOfEra (day : Nat) : Nat :=
  (day - day / 1460 + day / 36524 - day / 146096) / 365

/-- The days of an era before one of its years. -/
def daysBefore (year : Nat) : Nat :=
  365 * year + year / 4 - year / 100

theorem day_of_yearOfEra {day : Nat} (h : day < 146097) :
    ∃ rest, day = daysBefore (yearOfEra day) + rest ∧ yearOfEra day < 400 ∧ rest ≤ 365 ∧
      (rest = 365 → (yearOfEra day + 1) % 4 = 0 ∧
        ((yearOfEra day + 1) % 100 ≠ 0 ∨ (yearOfEra day + 1) % 400 = 0)) := by
  by_cases last : day = 146096
  · subst last
    exact ⟨365, by decide, by decide, by decide, by decide⟩
  · obtain ⟨century, inCentury, hday, hc, hr⟩ :
        ∃ century inCentury, day = 36524 * century + inCentury ∧ century ≤ 3 ∧ inCentury < 36524 :=
      ⟨day / 36524, day % 36524, by omega, by omega, by omega⟩
    obtain ⟨span, inSpan, hin, ht⟩ :
        ∃ span inSpan, inCentury = 1461 * span + inSpan ∧ inSpan < 1461 :=
      ⟨inCentury / 1461, inCentury % 1461, by omega, by omega⟩
    have hs : span ≤ 24 := by omega
    obtain ⟨year, rest, hyear, hy, hrest⟩ : ∃ year rest, inSpan = 365 * year + rest ∧ year ≤ 3 ∧
        (rest < 365 ∨ rest = 365 ∧ year = 3) := by
      by_cases final : inSpan = 1460
      · exact ⟨3, 365, by omega, by omega, by omega⟩
      · exact ⟨inSpan / 365, inSpan % 365, by omega, by omega, by omega⟩
    have value : yearOfEra day = 100 * century + 4 * span + year := by
      have spans : ∃ extra, day / 1460 = 25 * century + span + extra ∧
          (extra = 0 ∨ extra = 1 ∧ 1364 ≤ inSpan) ∧ (inSpan = 1460 → extra = 1) :=
        ⟨(24 * century + span + inSpan) / 1460, by omega, by omega, by omega⟩
      obtain ⟨extra, hextra, small, full⟩ := spans
      have centuries : day / 36524 = century := by omega
      have eras : day / 146096 = 0 := by omega
      rw [yearOfEra, hextra, centuries, eras]
      omega
    have before : daysBefore (yearOfEra day) = 36524 * century + 1461 * span + 365 * year := by
      have fours : (100 * century + 4 * span + year) / 4 = 25 * century + span := by omega
      have hundreds : (100 * century + 4 * span + year) / 100 = century := by omega
      rw [value, daysBefore, fours, hundreds]
      omega
    refine ⟨rest, by omega, by omega, by omega, fun full => ?_⟩
    rw [value]
    omega

/-- The month of a place in a year from March on. -/
def monthAt (place : Nat) : Nat :=
  if place < 10 then place + 3 else place - 9

theorem place_of_day : ∀ day ≤ 365,
    (5 * day + 2) / 153 ≤ 11 ∧ (153 * ((5 * day + 2) / 153) + 2) / 5 ≤ day ∧
      day - (153 * ((5 * day + 2) / 153) + 2) / 5 + 1 ≤
        (if monthAt ((5 * day + 2) / 153) = 2 then if day = 365 then 29 else 28
        else if monthAt ((5 * day + 2) / 153) ∈ [4, 6, 9, 11] then 30 else 31) := by
  decide +kernel

theorem ofDays_parts (days : Int) :
    ∃ (era : Int) (year day : Nat), days = era * 146097 + daysBefore year + day - 719468 ∧
      year < 400 ∧ day ≤ 365 ∧
      (day = 365 → (year + 1) % 4 = 0 ∧ ((year + 1) % 100 ≠ 0 ∨ (year + 1) % 400 = 0)) ∧
      Date.ofDays days =
        { year := year + era * 400 + if monthAt ((5 * day + 2) / 153) ≤ 2 then 1 else 0
          month := monthAt ((5 * day + 2) / 153)
          day := day - (153 * ((5 * day + 2) / 153) + 2) / 5 + 1 } := by
  have inEra : ((days + 719468) % 146097).toNat < 146097 := by omega
  obtain ⟨rest, split, year, small, leap⟩ := day_of_yearOfEra inEra
  refine ⟨(days + 719468) / 146097, yearOfEra ((days + 719468) % 146097).toNat, rest, ?_, year,
    small, leap, ?_⟩
  · omega
  · have dayOfYear : ((days + 719468) % 146097).toNat -
        daysBefore (yearOfEra ((days + 719468) % 146097).toNat) = rest := by omega
    rw [← dayOfYear]
    rfl

theorem toDays_ofDays (days : Int) : (Date.ofDays days).toDays = days := by
  obtain ⟨era, year, day, split, hyear, hday, -, date⟩ := ofDays_parts days
  obtain ⟨hplace, start, -⟩ := place_of_day day hday
  rw [date, split]
  generalize (5 * day + 2) / 153 = place at hplace start ⊢
  have month : monthAt place ≤ 2 ↔ 10 ≤ place := by
    rw [monthAt]
    split <;> omega
  have civil : (if monthAt place ≤ 2 then
      year + era * 400 + (if monthAt place ≤ 2 then (1 : Int) else 0) - 1
      else year + era * 400 + if monthAt place ≤ 2 then (1 : Int) else 0) = year + era * 400 := by
    split <;> omega
  have back : (if monthAt place > 2 then monthAt place - 3 else monthAt place + 9) = place := by
    rw [monthAt]
    split <;> split <;> omega
  have ofEra : ((year : Int) + era * 400) / 400 = era := by omega
  have inEra : (((year : Int) + era * 400) % 400).toNat = year := by omega
  simp only [Date.toDays, civil, back, ofEra, inEra]
  have joined : (153 * place + 2) / 5 + (day - (153 * place + 2) / 5 + 1) - 1 = day := by omega
  have before : year * 365 + year / 4 - year / 100 = daysBefore year := by
    rw [daysBefore, Nat.mul_comm]
  rw [joined, before]
  omega

/-- Every day count has a date that exists. -/
theorem exists_ofDays (days : Int) : (Date.ofDays days).exists = true := by
  obtain ⟨era, year, day, -, hyear, hday, leap, date⟩ := ofDays_parts days
  obtain ⟨hplace, -, length⟩ := place_of_day day hday
  rw [date]
  generalize (5 * day + 2) / 153 = place at hplace length ⊢
  have month : 1 ≤ monthAt place ∧ monthAt place ≤ 12 := by
    rw [monthAt]
    split <;> omega
  have days : day - (153 * place + 2) / 5 + 1 ≤
      daysInMonth (year + era * 400 + if monthAt place ≤ 2 then (1 : Int) else 0)
        (monthAt place) := by
    refine Nat.le_trans length ?_
    rw [daysInMonth]
    by_cases february : monthAt place = 2
    · rw [if_pos february, if_pos february, february]
      by_cases full : day = 365
      · have isLeap : isLeapYear (year + era * 400 + 1) = true := by
          have := leap full
          simp only [isLeapYear, Bool.and_eq_true, Bool.or_eq_true, decide_eq_true_eq]
          omega
        refine Nat.le_of_eq ?_
        rw [if_pos full, if_pos (Nat.le_refl 2), if_pos isLeap]
      · rw [if_neg full, if_pos (Nat.le_refl 2)]
        split <;> decide
    · refine Nat.le_of_eq ?_
      rw [if_neg february, if_neg february]
  simp [Date.exists, month.1, month.2, days]

end LedgerClient.Calendar
