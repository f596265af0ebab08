import LedgerClient.Proofs.Notation.AccountGrammar
import LedgerClient.TransactionId

/-! Transaction ids are read from their texts, part by part from the end. An instant inside a leap
second is written but not read, since its nanoseconds fill a second. -/

namespace LedgerClient

open Text

namespace TransactionId

def scheduledText (id : TransactionId) : List Char :=
  if id.scheduled then "?scheduled".toList else []

def nonceText (id : TransactionId) : List Char :=
  match id.nonce with
  | none => []
  | some nonce => '/' :: (toString nonce.toInt).toList

def frontText (id : TransactionId) : List Char :=
  id.account.text.toList ++ '@' :: ((toString id.validStart.seconds).toList ++
    '.' :: (padZeros 9 (toString id.validStart.nanos)).toList)

theorem toList_text (id : TransactionId) :
    id.text.toList = id.frontText ++ id.scheduledText ++ id.nonceText := by
  rw [text, frontText, scheduledText, nonceText]
  cases id.scheduled with
  | false => cases id.nonce <;> simp [startText]
  | true => cases id.nonce <;> simp [startText]

theorem mem_frontText {id : TransactionId} {c : Char} (h : c ∈ id.frontText) :
    c.isAlphanum = true ∨ c = '.' ∨ c = '-' ∨ c = '@' := by
  have digit : c.isDigit = true → c.isAlphanum = true := by
    intro hd
    rw [Char.isAlphanum, hd, Bool.or_true]
  rw [frontText] at h
  simp only [List.mem_append, List.mem_cons] at h
  rcases h with h | h | h | h | h
  · rcases (AccountId.shown_text _).mem_cases h with h | h | h
    · exact Or.inl h
    · exact Or.inr (Or.inl h)
    · exact Or.inr (Or.inr (Or.inl h))
  · exact Or.inr (Or.inr (Or.inr h))
  · rcases mem_toString_int h with h | h
    · exact Or.inr (Or.inr (Or.inl h))
    · exact Or.inl (digit h)
  · exact Or.inr (Or.inl h)
  · exact Or.inl (digit (allDigits_padZeros 9 _ c h))

theorem parseNonce_text (id : TransactionId) (input : String) :
    parseNonce input id.text.toList = .ok (id.frontText ++ id.scheduledText, id.nonce) := by
  have front : ∀ c ∈ id.frontText ++ id.scheduledText, (c == '/') = false := by
    intro c hc
    rw [beq_eq_false_iff_ne]
    rintro rfl
    rcases List.mem_append.mp hc with hc | hc
    · have := mem_frontText hc
      simp at this
    · rw [scheduledText] at hc
      split at hc
      · simp at hc
      · cases hc
  cases carried : id.nonce with
  | none =>
    have text : id.nonceText = [] := by rw [nonceText, carried]
    rw [toList_text, parseNonce, text, List.append_nil, splitLast_of_forall front]
  | some nonce =>
    have text : id.nonceText = '/' :: (toString nonce.toInt).toList := by rw [nonceText, carried]
    have digits : ∀ c ∈ (toString nonce.toInt).toList, (c == '/') = false := by
      intro c hc
      rw [beq_eq_false_iff_ne]
      rintro rfl
      have := mem_toString_int hc
      simp at this
    have low := nonce.le_toInt
    have high := nonce.toInt_lt
    have read : readSigned maxInt32 (toString nonce.toInt).toList = .ok nonce.toInt := by
      apply readSigned_toString
      · rw [maxInt32]
        omega
      · rw [maxInt32]
        omega
    have split : splitLast (· == '/') (id.frontText ++ id.scheduledText ++
        '/' :: (toString nonce.toInt).toList) =
          some (id.frontText ++ id.scheduledText, (toString nonce.toInt).toList) :=
      splitLast_append rfl _ digits
    rw [toList_text, parseNonce, text, split]
    simp only [read, Int32.ofInt_toInt]

theorem parseScheduled_text (id : TransactionId) :
    parseScheduled (id.frontText ++ id.scheduledText) = (id.frontText, id.scheduled) := by
  rw [parseScheduled, scheduledText]
  cases id.scheduled with
  | true => rw [if_pos rfl, dropTail?_append]
  | false =>
    -- The text ends in a digit of the nanoseconds, the mark does not.
    have ne := padZeros_ne_nil 9 id.validStart.nanos
    obtain ⟨last, final⟩ : ∃ last, (padZeros 9 (toString id.validStart.nanos)).toList.getLast? =
        some last := Option.isSome_iff_exists.mp (List.getLast?_isSome.mpr ne)
    have digit : last.isDigit = true :=
      allDigits_padZeros 9 _ last (List.mem_of_getLast? final)
    have behind : id.frontText.getLast? = some last := by
      rw [frontText, List.getLast?_append, List.getLast?_cons, List.getLast?_append,
        List.getLast?_cons, final]
      rfl
    have other : id.frontText.getLast? ≠ "?scheduled".toList.getLast? := by
      rw [behind]
      intro same
      cases same
      cases digit
    rw [if_neg Bool.false_ne_true, List.append_nil,
      dropTail?_of_getLast? (by simp) other]

theorem parseSeconds_text (t : Instant) (input : String) :
    parseSeconds input (toString t.seconds).toList = .ok t.seconds := by
  have low := t.seconds_ge
  have high := t.seconds_le
  have read : readSigned maxInt64 (toString t.seconds).toList = .ok t.seconds := by
    apply readSigned_toString
    · rw [maxInt64]
      omega
    · rw [maxInt64]
      omega
  rw [parseSeconds, read]

theorem parseNanos_text {t : Instant} (h : t.isLeap = false) (input : String) :
    parseNanos input (padZeros 9 (toString t.nanos)).toList = .ok t.nanos := by
  have small : t.nanos < nanosPerSecond := by
    simpa [Instant.isLeap] using h
  rw [parseNanos, isDigits_padZeros, digitsValue_padZeros, decide_eq_true small]
  rfl

theorem parseNanos_leap {t : Instant} (h : t.isLeap = true) (input : String) :
    parseNanos input (padZeros 9 (toString t.nanos)).toList =
      .error (.parse input (.nanoseconds (toString t.nanos))) := by
  have large : nanosPerSecond ≤ t.nanos := by
    simpa [Instant.isLeap] using h
  have small : ¬ t.nanos < nanosPerSecond := Nat.not_lt.mpr large
  have long : 9 - (toString t.nanos).toList.length = 0 := by
    have digits : ¬ (toString t.nanos).toList.length ≤ 9 := by
      rw [length_toString_le_iff (by decide)]
      exact small
    omega
  rw [parseNanos, digitsValue_padZeros, decide_eq_false small, Bool.and_false,
    if_neg Bool.false_ne_true, toList_padZeros, long, List.replicate_zero, List.nil_append,
    String.ofList_toList]

theorem parse_text_eq_bind (id : TransactionId) :
    parse id.text = (do
      let nanos ← parseNanos id.text (padZeros 9 (toString id.validStart.nanos)).toList
      match Instant.ofParts? id.validStart.seconds nanos with
      | some validStart => .ok { id with validStart }
      | none => .error (.parse id.text .timestampRange)) := by
  have account : '@' ∉ id.account.text.toList := by
    intro hc
    have := (AccountId.shown_text _).mem_cases hc
    simp at this
  have seconds : '.' ∉ (toString id.validStart.seconds).toList := by
    intro hc
    have := mem_toString_int hc
    simp at this
  rw [parse, parseNonce_text]
  simp only [bind, Except.bind, parseScheduled_text]
  rw [frontText, splitFirst_append account]
  simp only [splitFirst_append seconds, parseSeconds_text, String.ofList_toList,
    AccountId.parse_text]
  cases parseNanos id.text (padZeros 9 (toString id.validStart.nanos)).toList with
  | error cause => rfl
  | ok nanos =>
    simp only
    cases Instant.ofParts? id.validStart.seconds nanos <;> rfl

theorem parse_text {id : TransactionId} (h : id.validStart.isLeap = false) :
    parse id.text = .ok id := by
  rw [parse_text_eq_bind, parseNanos_text h]
  simp only [bind, Except.bind, (Instant.isCivil_of_isLeap_eq_false h).ofParts?_parts]

theorem parse_text_leap {id : TransactionId} (h : id.validStart.isLeap = true) :
    parse id.text = .error (.parse id.text (.nanoseconds (toString id.validStart.nanos))) := by
  rw [parse_text_eq_bind, parseNanos_leap h]
  rfl

/-- An id is read from its text, unless its instant lies in a leap second: then its nanoseconds are
refused. -/
theorem parse_text_eq (id : TransactionId) :
    parse id.text =
      if id.validStart.isLeap then
        .error (.parse id.text (.nanoseconds (toString id.validStart.nanos)))
      else .ok id := by
  cases leap : id.validStart.isLeap with
  | true => exact parse_text_leap leap
  | false => exact parse_text leap

/-- An id that is valid from the leap second at the end of the year 2016. -/
def leapSecond : TransactionId where
  account := .ofNum 5
  validStart := ⟨1483228799, 1000000000, by decide, by decide, by decide⟩

theorem parse_text_leapSecond :
    parse leapSecond.text =
        .error (.parse "0.0.5@1483228799.1000000000" (.nanoseconds "1000000000")) ∧
      ¬ ∀ id : TransactionId, parse id.text = .ok id := by
  have refused : parse leapSecond.text =
      .error (.parse "0.0.5@1483228799.1000000000" (.nanoseconds "1000000000")) :=
    parse_text_leap rfl
  refine ⟨refused, fun all => ?_⟩
  rw [all leapSecond] at refused
  cases refused

end TransactionId

end LedgerClient
