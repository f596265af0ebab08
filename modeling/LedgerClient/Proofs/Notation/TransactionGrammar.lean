import LedgerClient.Proofs.Notation.AccountGrammar
import LedgerClient.Proofs.Notation.Transaction

/-! The grammar of transaction ids. Neither an account, in whichever form, nor a number holds one of
the separators `@`, `?` and `/`, so a text falls into the parts of an id in at most one way; the
reader, which peels the nonce and the mark off the end and then cuts at the first `@` and the first
point behind it, finds that way. -/

namespace LedgerClient

open Text

theorem Instant.parts_of_ofParts? {seconds : Int} {nanos : Nat} {t : Instant}
    (found : ofParts? seconds nanos = some t) : seconds = t.seconds ∧ nanos = t.nanos := by
  rw [ofParts?] at found
  split_ifs at found
  cases found
  exact ⟨rfl, rfl⟩

namespace TransactionId

/-! ### What each part is read from -/

/-- The text before the last `/`, and the nonce behind it. -/
def peelNonce (text : List Char) : List Char × Option (List Char) :=
  match splitLast (· == '/') text with
  | none => (text, none)
  | some (rest, nonce) => (rest, some nonce)

theorem peelNonce_append (text : List Char) :
    (peelNonce text).1 ++ (match (peelNonce text).2 with | none => [] | some nonce => '/' :: nonce) =
      text := by
  rw [peelNonce]
  cases cut : splitLast (· == '/') text with
  | none => exact List.append_nil text
  | some found =>
    obtain ⟨separator, isSlash, joined, -⟩ := eq_append_of_splitLast cut
    rw [joined, beq_iff_eq.mp isSlash]

theorem readNonce_eq_ok_iff {text : List Char} {n : Int} :
    readSigned maxInt32 text = .ok n ↔ SignedNumeral text n ∧ -2147483648 ≤ n ∧ n ≤ 2147483647 := by
  rw [readSigned_eq_ok_iff]
  rfl

theorem parseNonce_eq_ok_iff {input : String} {text rest : List Char} {nonce : Option Int32} :
    parseNonce input text = .ok (rest, nonce) ↔
      (peelNonce text).1 = rest ∧
        Option.Rel SignedNumeral (peelNonce text).2 (nonce.map Int32.toInt) := by
  rw [parseNonce, peelNonce]
  cases splitLast (· == '/') text with
  | none =>
    constructor
    · intro read
      cases read
      exact ⟨rfl, .none⟩
    · rintro ⟨rfl, told⟩
      cases nonce with
      | none => rfl
      | some nonce => cases told
  | some cut =>
    obtain ⟨before, nonceText⟩ := cut
    dsimp only
    constructor
    · intro read
      split at read
      · next value found =>
        obtain ⟨signed, low, high⟩ := readNonce_eq_ok_iff.mp found
        have same : (Int32.ofInt value).toInt = value := Int32.toInt_ofInt_of_le low (by omega)
        cases read
        exact ⟨rfl, .some (same.symm ▸ signed)⟩
      · cases read
    · rintro ⟨rfl, told⟩
      cases nonce with
      | none => cases told
      | some nonce =>
        cases told with
        | some signed =>
          have found : readSigned maxInt32 nonceText = .ok nonce.toInt :=
            readNonce_eq_ok_iff.mpr ⟨signed, nonce.le_toInt, Int.le_of_lt_add_one nonce.toInt_lt⟩
          simp only [found, Int32.ofInt_toInt]

theorem parseSeconds_eq_ok_iff {input : String} {part : List Char} {n : Int} :
    parseSeconds input part = .ok n ↔
      SignedNumeral part n ∧ -9223372036854775808 ≤ n ∧ n ≤ 9223372036854775807 := by
  have read : parseSeconds input part = .ok n ↔ readSigned maxInt64 part = .ok n := by
    rw [parseSeconds]
    cases readSigned maxInt64 part with
    | ok value => simp only [Except.ok.injEq]
    | error fault => simp only [reduceCtorEq]
  rw [read, readSigned_eq_ok_iff]
  rfl

theorem parseNanos_eq_ok_iff {input : String} {part : List Char} {n : Nat} :
    parseNanos input part = .ok n ↔ Numeral part n ∧ n < 1000000000 := by
  rw [parseNanos]
  constructor
  · intro read
    split_ifs at read with fits
    rw [Bool.and_eq_true, decide_eq_true_eq] at fits
    cases read
    exact ⟨.of_isDigits fits.1, fits.2⟩
  · rintro ⟨numeral, small⟩
    rw [numeral.value, numeral.isDigits, Bool.true_and, if_pos]
    exact decide_eq_true small

theorem parseScheduled_append (text : List Char) :
    (parseScheduled text).1 ++ (if (parseScheduled text).2 then "?scheduled".toList else []) =
      text := by
  rw [parseScheduled]
  cases found : dropTail? "?scheduled".toList text with
  | none => exact List.append_nil text
  | some rest => exact (dropTail?_eq_some_iff.mp found).symm

/-! ### Parts of an id -/

def NoSeparator (text : List Char) : Prop :=
  '@' ∉ text ∧ '/' ∉ text ∧ '?' ∉ text

theorem NoSeparator.of_mem_cases {text : List Char}
    (h : ∀ c ∈ text, c.isAlphanum = true ∨ c = '.' ∨ c = '-' ∨ c = '+') : NoSeparator text := by
  refine ⟨fun found => ?_, fun found => ?_, fun found => ?_⟩
  · simpa using h _ found
  · simpa using h _ found
  · simpa using h _ found

theorem NoSeparator.of_signed {text : List Char} {n : Int} (signed : SignedNumeral text n) :
    NoSeparator text := by
  refine .of_mem_cases fun c hc => ?_
  rcases signed.mem_cases hc with digit | plus | minus
  · exact .inl (by rw [Char.isAlphanum, digit, Bool.or_true])
  · exact .inr (.inr (.inr plus))
  · exact .inr (.inr (.inl minus))

structure Parts where
  account : List Char
  seconds : List Char
  nanos : List Char
  scheduled : Bool
  nonce : Option (List Char)

namespace Parts

def front (parts : Parts) : List Char :=
  parts.account ++ '@' :: (parts.seconds ++ '.' :: parts.nanos)

def mark (parts : Parts) : List Char :=
  if parts.scheduled then "?scheduled".toList else []

def tail (parts : Parts) : List Char :=
  match parts.nonce with
  | none => []
  | some nonce => '/' :: nonce

/-- `account@seconds.nanos`, the mark if there is one, and the nonce if there is one. -/
def text (parts : Parts) : List Char :=
  parts.front ++ (parts.mark ++ parts.tail)

def afterAccount (parts : Parts) : List Char :=
  parts.seconds ++ '.' :: (parts.nanos ++ (parts.mark ++ parts.tail))

theorem text_eq (parts : Parts) : parts.text = parts.account ++ '@' :: parts.afterAccount := by
  simp [text, front, afterAccount]

/-- Parts from which an id is read: an account, an instant within the supported years, and a nonce of
32 bits. -/
structure Acceptable (parts : Parts) : Prop where
  account : ∃ id, AccountId.parse (String.ofList parts.account) = .ok id
  seconds : ∃ s, SignedNumeral parts.seconds s ∧ -8334601228800 ≤ s ∧ s ≤ 8210266876799
  nanos : ∃ n, Numeral parts.nanos n ∧ n < 1000000000
  nonce : ∀ nonce ∈ parts.nonce, ∃ n, SignedNumeral nonce n ∧ -2147483648 ≤ n ∧ n ≤ 2147483647

/-- Parts that can be told apart: none holds a separator, and the instant ends in a digit. -/
structure Separated (parts : Parts) : Prop where
  account : NoSeparator parts.account
  seconds : NoSeparator parts.seconds
  point : '.' ∉ parts.seconds
  nanos : NoSeparator parts.nanos
  digit : ∃ last, parts.nanos.getLast? = some last ∧ last.isDigit = true
  nonce : ∀ nonce ∈ parts.nonce, NoSeparator nonce

structure Tells (parts : Parts) (id : TransactionId) : Prop where
  account : AccountId.parse (String.ofList parts.account) = .ok id.account
  seconds : SignedNumeral parts.seconds id.validStart.seconds
  nanos : Numeral parts.nanos id.validStart.nanos
  small : id.validStart.nanos < 1000000000
  scheduled : parts.scheduled = id.scheduled
  nonce : Option.Rel SignedNumeral parts.nonce (id.nonce.map Int32.toInt)

variable {parts : Parts} {id : TransactionId}

theorem Tells.acceptable (tells : parts.Tells id) : parts.Acceptable where
  account := ⟨_, tells.account⟩
  seconds := ⟨_, tells.seconds, id.validStart.seconds_ge, id.validStart.seconds_le⟩
  nanos := ⟨_, tells.nanos, tells.small⟩
  nonce := by
    intro text carried
    have told := tells.nonce
    rw [Option.mem_def.mp carried] at told
    cases carriedValue : id.nonce with
    | none =>
      rw [carriedValue] at told
      cases told
    | some nonce =>
      rw [carriedValue] at told
      cases told with
      | some signed => exact ⟨_, signed, nonce.le_toInt, Int.le_of_lt_add_one nonce.toInt_lt⟩

theorem Acceptable.exists_id (acceptable : parts.Acceptable) : ∃ id, parts.Tells id := by
  obtain ⟨account, isAccount⟩ := acceptable.account
  obtain ⟨seconds, isSeconds, low, high⟩ := acceptable.seconds
  obtain ⟨nanos, isNanos, small⟩ := acceptable.nanos
  have nonce : ∃ nonce : Option Int32, Option.Rel SignedNumeral parts.nonce (nonce.map Int32.toInt) := by
    cases carried : parts.nonce with
    | none => exact ⟨none, .none⟩
    | some text =>
      obtain ⟨n, signed, low, high⟩ := acceptable.nonce text carried
      have same : (Int32.ofInt n).toInt = n := Int32.toInt_ofInt_of_le low (by omega)
      exact ⟨some (.ofInt n), .some (same.symm ▸ signed)⟩
  obtain ⟨nonce, isNonce⟩ := nonce
  have room : nanos < 2 * nanosPerSecond := Nat.lt_of_lt_of_le small (by decide)
  exact ⟨⟨account, ⟨seconds, nanos, low, high, room⟩, parts.scheduled, nonce⟩,
    isAccount, isSeconds, isNanos, small, rfl, isNonce⟩

/-- Cuts a text as the reader does: the nonce behind the last `/`, the mark at the end of the rest, the
account up to the first `@`, and the seconds up to the first point behind it. -/
def ofText? (text : List Char) : Option Parts := do
  let (rest, nonce) := peelNonce text
  let (rest, scheduled) := parseScheduled rest
  let (account, start) ← splitFirst '@' rest
  let (seconds, nanos) ← splitFirst '.' start
  some ⟨account, seconds, nanos, scheduled, nonce⟩

theorem ofText?_eq_some_iff {text : List Char} :
    ofText? text = some parts ↔
      ∃ start, splitFirst '@' (parseScheduled (peelNonce text).1).1 = some (parts.account, start) ∧
        splitFirst '.' start = some (parts.seconds, parts.nanos) ∧
        (parseScheduled (peelNonce text).1).2 = parts.scheduled ∧
        (peelNonce text).2 = parts.nonce := by
  constructor
  · intro found
    simp only [ofText?, Option.bind_eq_bind, Option.bind_eq_some_iff, Prod.exists] at found
    obtain ⟨account, start, cut, seconds, nanos, cutStart, same⟩ := found
    cases same
    exact ⟨start, cut, cutStart, rfl, rfl⟩
  · rintro ⟨start, cut, cutStart, isMark, isNonce⟩
    simp only [ofText?, cut, cutStart, isMark, isNonce, Option.bind_eq_bind, Option.bind_some]

theorem text_of_ofText? {text : List Char} (h : ofText? text = some parts) :
    parts.text = text := by
  obtain ⟨start, cut, cutStart, isMark, isNonce⟩ := ofText?_eq_some_iff.mp h
  have front := (eq_append_of_splitFirst cut).1
  rw [(eq_append_of_splitFirst cutStart).1] at front
  rw [Parts.text, Parts.front, ← front, ← List.append_assoc, mark, tail, ← isMark, ← isNonce,
    parseScheduled_append, peelNonce_append]

namespace Separated

theorem front_noSlash (separated : parts.Separated) : '/' ∉ parts.front ++ parts.mark := by
  obtain ⟨-, account, -⟩ := separated.account
  obtain ⟨-, seconds, -⟩ := separated.seconds
  obtain ⟨-, nanos, -⟩ := separated.nanos
  have mark : '/' ∉ parts.mark := by
    rw [Parts.mark]
    split <;> decide
  simp [front, account, seconds, nanos, mark]

theorem peelNonce_text (separated : parts.Separated) :
    peelNonce parts.text = (parts.front ++ parts.mark, parts.nonce) := by
  have before : '/' ∉ parts.front ++ parts.mark := separated.front_noSlash
  rw [peelNonce, text, tail, ← List.append_assoc]
  cases carried : parts.nonce with
  | none =>
    have none : splitLast (· == '/') (parts.front ++ parts.mark) = none :=
      splitLast_of_forall fun c hc => beq_eq_false_iff_ne.mpr fun same => before (same ▸ hc)
    simp only [List.append_nil, none]
  | some nonce =>
    obtain ⟨-, behind, -⟩ := separated.nonce nonce carried
    have cut : splitLast (· == '/') (parts.front ++ parts.mark ++ '/' :: nonce) =
        some (parts.front ++ parts.mark, nonce) :=
      splitLast_append rfl _ fun c hc => beq_eq_false_iff_ne.mpr fun same => behind (same ▸ hc)
    simp only [cut]

theorem parseScheduled_front (separated : parts.Separated) :
    parseScheduled (parts.front ++ parts.mark) = (parts.front, parts.scheduled) := by
  rw [parseScheduled, mark]
  cases parts.scheduled with
  | true => rw [if_pos rfl, dropTail?_append]
  | false =>
    -- The mark ends in a letter.
    obtain ⟨last, final, digit⟩ := separated.digit
    have behind : parts.front.getLast? = some last := by
      rw [front, List.getLast?_append, List.getLast?_cons, List.getLast?_append,
        List.getLast?_cons, final]
      rfl
    have other : parts.front.getLast? ≠ "?scheduled".toList.getLast? := by
      rw [behind]
      intro same
      cases same
      cases digit
    rw [if_neg Bool.false_ne_true, List.append_nil, dropTail?_of_getLast? (by simp) other]

theorem ofText?_text (separated : parts.Separated) : ofText? parts.text = some parts := by
  obtain ⟨account, -, -⟩ := separated.account
  refine ofText?_eq_some_iff.mpr ⟨parts.seconds ++ '.' :: parts.nanos, ?_⟩
  rw [separated.peelNonce_text, separated.parseScheduled_front]
  exact ⟨splitFirst_append account _, splitFirst_append separated.point _, rfl, rfl⟩

end Separated

theorem Acceptable.separated (acceptable : parts.Acceptable) : parts.Separated := by
  obtain ⟨account, isAccount⟩ := acceptable.account
  obtain ⟨seconds, isSeconds, -⟩ := acceptable.seconds
  obtain ⟨nanos, isNanos, -⟩ := acceptable.nanos
  have digits : SignedNumeral parts.nanos nanos := .unsigned isNanos
  refine ⟨.of_mem_cases fun c hc => ?_, .of_signed isSeconds, ?_, .of_signed digits,
    digits.exists_getLast?, fun nonce carried => ?_⟩
  · rcases (AccountId.parse_eq_ok_iff.mp isAccount).mem_cases (by rwa [String.toList_ofList]) with
      h | h | h
    · exact .inl h
    · exact .inr (.inl h)
    · exact .inr (.inr (.inl h))
  · intro point
    simpa using isSeconds.mem_cases point
  · obtain ⟨n, signed, -⟩ := acceptable.nonce nonce carried
    exact .of_signed signed

end Parts

theorem parse_iff_tells {input : String} {id : TransactionId} :
    parse input = .ok id ↔ ∃ parts, Parts.ofText? input.toList = some parts ∧ parts.Tells id := by
  constructor
  · intro read
    rw [parse] at read
    obtain ⟨⟨rest, nonce⟩, isNonce, read⟩ := Except.bind_eq_ok read
    obtain ⟨rfl, told⟩ := parseNonce_eq_ok_iff.mp isNonce
    dsimp only at read
    split at read
    · next account start cut =>
      split at read
      · next seconds nanos cutStart =>
        obtain ⟨s, isSeconds, read⟩ := Except.bind_eq_ok read
        obtain ⟨n, isNanos, read⟩ := Except.bind_eq_ok read
        split at read
        · next validStart found =>
          obtain ⟨payer, isAccount, same⟩ := Except.bind_eq_ok read
          cases same
          obtain ⟨rfl, rfl⟩ := Instant.parts_of_ofParts? found
          obtain ⟨isNanos, small⟩ := parseNanos_eq_ok_iff.mp isNanos
          refine ⟨⟨account, seconds, nanos, _, _⟩,
            Parts.ofText?_eq_some_iff.mpr ⟨start, cut, cutStart, rfl, rfl⟩, ?_⟩
          exact ⟨isAccount, (parseSeconds_eq_ok_iff.mp isSeconds).1, isNanos, small, rfl, told⟩
        · cases read
      · cases read
    · cases read
  · rintro ⟨parts, found, tells⟩
    obtain ⟨start, cut, cutStart, isMark, isNonce⟩ := Parts.ofText?_eq_some_iff.mp found
    obtain ⟨account, validStart, scheduled, nonce⟩ := id
    have low := validStart.seconds_ge
    have high := validStart.seconds_le
    have seconds : parseSeconds input parts.seconds = .ok validStart.seconds :=
      parseSeconds_eq_ok_iff.mpr ⟨tells.seconds, by omega, by omega⟩
    have nanos : parseNanos input parts.nanos = .ok validStart.nanos :=
      parseNanos_eq_ok_iff.mpr ⟨tells.nanos, tells.small⟩
    have civil : validStart.IsCivil := .inl tells.small
    have mark := tells.scheduled
    have told := tells.nonce
    rw [← isMark] at mark
    rw [← isNonce] at told
    rw [parse, parseNonce_eq_ok_iff.mpr ⟨rfl, told⟩]
    simp only [bind, Except.bind, cut, cutStart, seconds, nanos, civil.ofParts?_parts,
      tells.account, mark]
    rfl

section

variable {input : String} {parts other : Parts} {id : TransactionId}

theorem Parts.Acceptable.parse_iff (acceptable : parts.Acceptable)
    (same : parts.text = input.toList) : parse input = .ok id ↔ parts.Tells id := by
  have cut : Parts.ofText? input.toList = some parts := same ▸ acceptable.separated.ofText?_text
  rw [parse_iff_tells, cut]
  constructor
  · rintro ⟨found, isParts, tells⟩
    cases isParts
    exact tells
  · intro tells
    exact ⟨parts, rfl, tells⟩

theorem parses_iff :
    (∃ id, parse input = .ok id) ↔ ∃ parts : Parts, parts.Acceptable ∧ parts.text = input.toList := by
  constructor
  · rintro ⟨id, read⟩
    obtain ⟨parts, cut, tells⟩ := parse_iff_tells.mp read
    exact ⟨parts, tells.acceptable, Parts.text_of_ofText? cut⟩
  · rintro ⟨parts, acceptable, same⟩
    obtain ⟨id, tells⟩ := acceptable.exists_id
    exact ⟨id, (acceptable.parse_iff same).mpr tells⟩

theorem Parts.Acceptable.eq_of_text_eq (acceptable : parts.Acceptable)
    (also : other.Acceptable) (same : parts.text = other.text) : parts = other := by
  have cut := acceptable.separated.ofText?_text
  rw [same, also.separated.ofText?_text] at cut
  exact (Option.some.inj cut).symm

theorem exists_error (none : ∀ parts : Parts, parts.Acceptable → parts.text ≠ input.toList) :
    ∃ cause, parse input = .error cause := by
  cases read : parse input with
  | error cause => exact ⟨cause, rfl⟩
  | ok id =>
    obtain ⟨parts, acceptable, same⟩ := parses_iff.mp ⟨id, read⟩
    exact absurd same (none parts acceptable)

theorem Parts.Separated.eq_of_at (separated : parts.Separated) {before after : List Char}
    (same : parts.text = before ++ '@' :: after) :
    parts.account = before ∧ parts.afterAccount = after ∧ '@' ∉ after := by
  have none : '@' ∉ parts.afterAccount := by
    obtain ⟨seconds, -, -⟩ := separated.seconds
    obtain ⟨nanos, -, -⟩ := separated.nanos
    have mark : '@' ∉ parts.mark := by
      rw [Parts.mark]
      split <;> decide
    have tail : '@' ∉ parts.tail := by
      rw [Parts.tail]
      split
      · exact List.not_mem_nil
      · next nonce carried =>
        obtain ⟨nonce, -, -⟩ := separated.nonce nonce carried
        simp [nonce]
    simp [Parts.afterAccount, seconds, nanos, mark, tail]
  rw [parts.text_eq, List.append_cons_inj_of_notMem separated.account.1 none] at same
  obtain ⟨account, -, rest⟩ := same
  exact ⟨account, rest, rest ▸ none⟩

theorem Parts.Separated.eq_of_slash (separated : parts.Separated) {before after : List Char}
    (same : parts.text = before ++ '/' :: after) :
    parts.front ++ parts.mark = before ∧ parts.nonce = some after := by
  have none : '/' ∉ parts.front ++ parts.mark := separated.front_noSlash
  rw [Parts.text, Parts.tail, ← List.append_assoc] at same
  cases carried : parts.nonce with
  | none =>
    rw [carried, List.append_nil] at same
    exact absurd (same ▸ List.mem_append_right before List.mem_cons_self) none
  | some nonce =>
    obtain ⟨-, behind, -⟩ := separated.nonce nonce carried
    rw [carried, List.append_cons_inj_of_notMem none behind] at same
    obtain ⟨front, -, rfl⟩ := same
    exact ⟨front, rfl⟩

theorem refuses_nonce_before_mark (front nonce behind : String) :
    ∃ cause, parse (front ++ "/" ++ nonce ++ "?scheduled" ++ behind) = .error cause := by
  refine exists_error fun parts acceptable same => ?_
  have joined : parts.text =
      front.toList ++ '/' :: (nonce.toList ++ "?scheduled".toList ++ behind.toList) := by
    simp [same]
  obtain ⟨-, carried⟩ := acceptable.separated.eq_of_slash joined
  obtain ⟨-, -, none⟩ := acceptable.separated.nonce _ carried
  exact none (by simp)

theorem refuses_second_separator {separator : String} (h : separator = "@" ∨ separator = "/")
    (first second third : String) :
    ∃ cause, parse (first ++ separator ++ second ++ separator ++ third) = .error cause := by
  refine exists_error fun parts acceptable same => ?_
  rcases h with rfl | rfl
  · have joined : parts.text =
        first.toList ++ '@' :: (second.toList ++ '@' :: third.toList) := by
      simp [same]
    obtain ⟨-, -, none⟩ := acceptable.separated.eq_of_at joined
    exact none (by simp)
  · have joined : parts.text =
        first.toList ++ '/' :: (second.toList ++ '/' :: third.toList) := by
      simp [same]
    obtain ⟨-, carried⟩ := acceptable.separated.eq_of_slash joined
    obtain ⟨-, none, -⟩ := acceptable.separated.nonce _ carried
    exact none (by simp)

theorem parse_with_account {first second rest : String} {id : TransactionId} {account : AccountId}
    (read : parse (first ++ "@" ++ rest) = .ok id) (isAccount : AccountId.parse second = .ok account) :
    parse (second ++ "@" ++ rest) = .ok { id with account } := by
  obtain ⟨parts, cut, tells⟩ := parse_iff_tells.mp read
  have joined : parts.text = first.toList ++ '@' :: rest.toList := by
    rw [Parts.text_of_ofText? cut]
    simp
  obtain ⟨-, behind, -⟩ := tells.acceptable.separated.eq_of_at joined
  have told : Parts.Tells { parts with account := second.toList } { id with account } :=
    { tells with account := by rwa [String.ofList_toList] }
  have replaced : Parts.text { parts with account := second.toList } =
      second.toList ++ '@' :: rest.toList := by
    rw [Parts.text_eq]
    exact congrArg (second.toList ++ '@' :: ·) behind
  exact (told.acceptable.parse_iff (replaced.trans (by simp))).mpr told

/-- An id is read from exactly the texts made up of acceptable parts, as what these tell, and the
parts are unique. So a nonce before the mark and a second `@` or `/` are refused, and any account may
stand in the place of another. -/
theorem parse_unambiguous :
    (∀ input : String,
      ((∃ id, parse input = .ok id) ↔
          ∃ parts : Parts, parts.Acceptable ∧ parts.text = input.toList) ∧
        ∀ parts : Parts, parts.Acceptable → parts.text = input.toList →
          (∀ id, parse input = .ok id ↔ parts.Tells id) ∧
            ∀ other : Parts, other.Acceptable → other.text = input.toList → other = parts) ∧
      (∀ front nonce behind : String,
        ∃ cause, parse (front ++ "/" ++ nonce ++ "?scheduled" ++ behind) = .error cause) ∧
      (∀ separator : String, separator = "@" ∨ separator = "/" → ∀ first second third : String,
        ∃ cause, parse (first ++ separator ++ second ++ separator ++ third) = .error cause) ∧
      ∀ (first second rest : String) (id : TransactionId) (account : AccountId),
        parse (first ++ "@" ++ rest) = .ok id → AccountId.parse second = .ok account →
          parse (second ++ "@" ++ rest) = .ok { id with account } := by
  refine ⟨fun input => ⟨parses_iff, fun parts acceptable same => ⟨fun id => ?_, ?_⟩⟩,
    refuses_nonce_before_mark, fun separator h => refuses_second_separator h,
    fun first second rest id account => parse_with_account⟩
  · exact acceptable.parse_iff same
  · intro other also sameOther
    exact also.eq_of_text_eq acceptable (sameOther.trans same.symm)

def Parts.scheduledChild : Parts :=
  ⟨['0', '.', '0', '.', '5'], ['-', '1', '0'], ['0', '1'], true, some ['+', '3']⟩

theorem Parts.tells_scheduledChild :
    scheduledChild.Tells ⟨.ofNum 5, ⟨-10, 1, by decide, by decide, by decide⟩, true, some 3⟩ where
  account := rfl
  seconds := .minus (n := 10) (.of_isDigits rfl)
  nanos := .of_isDigits rfl
  small := by decide
  scheduled := rfl
  nonce := .some (.plus (n := 3) (.of_isDigits rfl))

theorem parse_unambiguous_scheduledChild :
    parse "0.0.5@-10.01?scheduled/+3" =
        .ok ⟨.ofNum 5, ⟨-10, 1, by decide, by decide, by decide⟩, true, some 3⟩ ∧
      parse "1.2.3-aaaab@-10.01?scheduled/+3" =
        .ok ⟨⟨1, 2, .number 3 (some ⟨1⟩)⟩, ⟨-10, 1, by decide, by decide, by decide⟩, true, some 3⟩ ∧
      (∃ cause, parse "0.0.5@-10.01/+3?scheduled" = .error cause) ∧
      ∃ cause, parse "0.0.5@-10.01/+3/+3" = .error cause := by
  obtain ⟨accepts, refusesNonce, refusesSecond, replaces⟩ := parse_unambiguous
  have read : parse "0.0.5@-10.01?scheduled/+3" =
      .ok ⟨.ofNum 5, ⟨-10, 1, by decide, by decide, by decide⟩, true, some 3⟩ :=
    (((accepts _).2 Parts.scheduledChild Parts.tells_scheduledChild.acceptable rfl).1 _).mpr
      Parts.tells_scheduledChild
  exact ⟨read, replaces "0.0.5" "1.2.3-aaaab" "-10.01?scheduled/+3" _ _ read rfl,
    refusesNonce "0.0.5@-10.01" "+3" "", refusesSecond "/" (.inr rfl) "0.0.5@-10.01" "+3" "+3"⟩

end

end TransactionId

end LedgerClient
