import LedgerClient.NftId
import LedgerClient.Proofs.Json.Decoded
import LedgerClient.Proofs.Notation.Entity
import LedgerClient.Proofs.Text.Numeral

/-! The grammar of entity ids and of ids of single tokens. An accepted text is one number, or three
with points between them, perhaps followed by a dash and five letters; an id of a single token adds a
separator and a serial number. No other text is read, and what is read are the numbers and letters
that stand there. -/

namespace LedgerClient

open Text

/-- A number of an id: digits that denote less than 2^64. -/
structure Component (text : List Char) (n : Nat) : Prop extends Numeral text n where
  lt : n < UInt64.size

theorem parseComponent_eq_ok_iff {input : String} {part : List Char} {n : UInt64} :
    parseComponent input part = .ok n ↔ Component part n.toNat := by
  constructor
  · intro read
    rw [parseComponent] at read
    split_ifs at read with digits
    split at read
    · next value found =>
      obtain ⟨-, same, small⟩ := readMagnitude_eq_ok_iff.mp found
      have bound : value < UInt64.size := Nat.lt_of_le_pred (by decide) small
      cases read
      rw [UInt64.toNat_ofNat_of_lt' bound, ← same]
      exact ⟨.of_isDigits digits, same ▸ bound⟩
    · cases read
  · rintro ⟨numeral, bound⟩
    rw [parseComponent_digits numeral.isDigits (numeral.value.symm ▸ bound), numeral.value,
      UInt64.ofNat_toNat]

namespace Checksum

/-- The letters behind a dash: five of the lower case. -/
structure Letters (text : List Char) : Prop where
  length : text.length = 5
  lower : ∀ c ∈ text, c.isLower = true

theorem isLower_of_isLetter : ∀ code < 128,
    isLetter (.ofNat code) = true → (Char.ofNat code).isLower = true := by
  decide

theorem lt_of_isLetter {byte : UInt8} (h : isLetter byte = true) : byte < 0x80 := by
  rw [isLetter, Bool.and_eq_true, decide_eq_true_eq, decide_eq_true_eq] at h
  exact UInt8.lt_of_le_of_lt h.2 (by decide)

theorem letters_of_parse {text : List Char} {checksum : Checksum}
    (h : parse (String.ofList text) = .ok checksum) : Letters text := by
  rw [parse] at h
  split_ifs at h with long lower
  rw [List.all_eq_true] at lower
  obtain ⟨codes, ascii⟩ :=
    Bytes.ofText_of_forall_lt fun byte hb => lt_of_isLetter (lower byte hb)
  rw [String.toList_ofList] at codes ascii
  refine ⟨?_, fun c hc => ?_⟩
  · rw [Decidable.not_not, codes, List.length_map] at long
    exact long
  · have small := isLower_of_isLetter c.toNat (ascii c hc)
      (lower _ (codes ▸ List.mem_map_of_mem hc))
    rwa [Char.ofNat_toNat] at small

theorem exists_place {c : Char} (h : c.isLower = true) : ∃ place < 26, letter place = c := by
  have bounds : (decide (c.val ≥ 'a'.val) && decide (c.val ≤ 'z'.val)) = true := h
  rw [Bool.and_eq_true, decide_eq_true_eq, decide_eq_true_eq] at bounds
  have low : 97 ≤ c.toNat := bounds.1
  have high : c.toNat ≤ 122 := bounds.2
  have code : 'a'.toNat + (c.toNat - 97) % 26 = c.toNat := by
    rw [Nat.mod_eq_of_lt (by omega)]
    exact Nat.add_sub_cancel' low
  exact ⟨c.toNat - 97, by omega, by rw [letter, code, Char.ofNat_toNat]⟩

theorem exists_letters {text : List Char} (h : Letters text) :
    ∃ checksum : Checksum, checksum.letters = text := by
  match text, h with
  | [a, b, c, d, e], ⟨_, lower⟩ =>
    simp only [List.forall_mem_cons] at lower
    obtain ⟨lowerA, lowerB, lowerC, lowerD, lowerE, -⟩ := lower
    obtain ⟨a, boundA, rfl⟩ := exists_place lowerA
    obtain ⟨b, boundB, rfl⟩ := exists_place lowerB
    obtain ⟨c, boundC, rfl⟩ := exists_place lowerC
    obtain ⟨d, boundD, rfl⟩ := exists_place lowerD
    obtain ⟨e, boundE, rfl⟩ := exists_place lowerE
    have total : (((a * 26 + b) * 26 + c) * 26 + d) * 26 + e < 11881376 := by omega
    have letter_of_mod {n place : Nat} (same : n % 26 = place) : letter n = letter place := by
      rw [← letter_mod, same]
    refine ⟨⟨⟨_, total⟩⟩, ?_⟩
    rw [letters_eq]
    simp only [List.cons.injEq, and_true]
    exact ⟨letter_of_mod (by omega), letter_of_mod (by omega), letter_of_mod (by omega),
      letter_of_mod (by omega), letter_of_mod (by omega)⟩

theorem parse_eq_ok_iff {text : List Char} {checksum : Checksum} :
    parse (String.ofList text) = .ok checksum ↔ checksum.letters = text := by
  constructor
  · intro read
    obtain ⟨found, rfl⟩ := exists_letters (letters_of_parse read)
    cases (parse_text found).symm.trans read
    rfl
  · rintro rfl
    exact parse_text checksum

end Checksum

/-- The numbers of an id: one alone, in shard and realm zero, or three with points between. -/
inductive Numbers : List Char → Nat → Nat → Nat → Prop
  | short {text : List Char} {num : Nat} (isNum : Component text num) : Numbers text 0 0 num
  | full {first second third : List Char} {shard realm num : Nat}
      (isShard : Component first shard) (isRealm : Component second realm)
      (isNum : Component third num) :
      Numbers (first ++ '.' :: (second ++ '.' :: third)) shard realm num

structure IdParts where
  shard : Nat
  realm : Nat
  num : Nat
  letters : Option (List Char)

/-- The texts of entity ids, with the numbers and the checksum letters that stand in them. -/
inductive EntityNotation : List Char → IdParts → Prop
  | plain {text : List Char} {shard realm num : Nat} (numbers : Numbers text shard realm num) :
      EntityNotation text ⟨shard, realm, num, none⟩
  | checked {body letters : List Char} {shard realm num : Nat}
      (numbers : Numbers body shard realm num) (isLetters : Checksum.Letters letters) :
      EntityNotation (body ++ '-' :: letters) ⟨shard, realm, num, some letters⟩

/-- The texts of ids of single tokens: an id, one of two separators, and a serial number. -/
inductive NftNotation : List Char → IdParts → Nat → Prop
  | mk {token serial : List Char} {parts : IdParts} {n : Nat} {separator : Char}
      (isToken : EntityNotation token parts) (isSeparator : separator = '/' ∨ separator = '@')
      (isSerial : Component serial n) : NftNotation (token ++ separator :: serial) parts n

def EntityId.parts {kind : EntityKind} (id : EntityId kind) : IdParts :=
  ⟨id.shard.toNat, id.realm.toNat, id.num.toNat, id.checksum.map Checksum.letters⟩

theorem Numbers.mem_cases {text : List Char} {shard realm num : Nat}
    (numbers : Numbers text shard realm num) {c : Char} (h : c ∈ text) :
    c.isDigit = true ∨ c = '.' := by
  cases numbers with
  | short isNum => exact .inl (isNum.digits c h)
  | full isShard isRealm isNum =>
    simp only [List.mem_append, List.mem_cons] at h
    rcases h with first | point | second | point | third
    · exact .inl (isShard.digits c first)
    · exact .inr point
    · exact .inl (isRealm.digits c second)
    · exact .inr point
    · exact .inl (isNum.digits c third)

theorem Numbers.lt {text : List Char} {shard realm num : Nat}
    (numbers : Numbers text shard realm num) :
    shard < UInt64.size ∧ realm < UInt64.size ∧ num < UInt64.size := by
  cases numbers with
  | short isNum => exact ⟨by decide, by decide, isNum.lt⟩
  | full isShard isRealm isNum => exact ⟨isShard.lt, isRealm.lt, isNum.lt⟩

namespace EntityNotation

variable {text : List Char} {parts : IdParts}

theorem mem_cases (shown : EntityNotation text parts) {c : Char} (h : c ∈ text) :
    c.isAlphanum = true ∨ c = '.' ∨ c = '-' := by
  have number {body : List Char} {shard realm num : Nat} (numbers : Numbers body shard realm num)
      (hc : c ∈ body) : c.isAlphanum = true ∨ c = '.' ∨ c = '-' := by
    rcases numbers.mem_cases hc with digit | point
    · exact .inl (by rw [Char.isAlphanum, digit, Bool.or_true])
    · exact .inr (.inl point)
  cases shown with
  | plain numbers => exact number numbers h
  | checked numbers isLetters =>
    rcases List.mem_append.mp h with body | behind
    · exact number numbers body
    · rcases List.mem_cons.mp behind with dash | letter
      · exact .inr (.inr dash)
      · have alpha : c.isAlpha = true :=
          Bool.or_eq_true_iff.mpr (.inr (isLetters.lower c letter))
        exact .inl (by rw [Char.isAlphanum, alpha, Bool.true_or])

theorem exists_id (kind : EntityKind) (shown : EntityNotation text parts) :
    ∃ id : EntityId kind, id.parts = parts := by
  have number {n : Nat} (small : n < UInt64.size) : (UInt64.ofNat n).toNat = n :=
    UInt64.toNat_ofNat_of_lt' small
  cases shown with
  | @plain _ shard realm num numbers =>
    obtain ⟨hs, hr, hn⟩ := numbers.lt
    refine ⟨⟨.ofNat shard, .ofNat realm, .ofNat num, none⟩, ?_⟩
    rw [EntityId.parts, number hs, number hr, number hn, Option.map_none]
  | @checked _ _ shard realm num numbers isLetters =>
    obtain ⟨hs, hr, hn⟩ := numbers.lt
    obtain ⟨checksum, rfl⟩ := Checksum.exists_letters isLetters
    refine ⟨⟨.ofNat shard, .ofNat realm, .ofNat num, some checksum⟩, ?_⟩
    rw [EntityId.parts, number hs, number hr, number hn, Option.map_some]

end EntityNotation

namespace EntityId

variable {kind : EntityKind}

theorem parseBody_eq_ok_iff {input : String} {checksum : Option Checksum} {body : List Char}
    {id : EntityId kind} :
    parseBody input checksum body = .ok id ↔
      Numbers body id.shard.toNat id.realm.toNat id.num.toNat ∧ id.checksum = checksum := by
  constructor
  · intro read
    have joined := intercalate_splitAll '.' body
    rw [parseBody] at read
    split at read
    · next text split =>
      obtain ⟨num, isNum, same⟩ := Except.bind_eq_ok read
      cases same
      rw [split, List.intercalate_singleton] at joined
      exact ⟨.short (joined ▸ parseComponent_eq_ok_iff.mp isNum), rfl⟩
    · next first second third split =>
      obtain ⟨shard, isShard, read⟩ := Except.bind_eq_ok read
      obtain ⟨realm, isRealm, read⟩ := Except.bind_eq_ok read
      obtain ⟨num, isNum, same⟩ := Except.bind_eq_ok read
      cases same
      have text : first ++ '.' :: (second ++ '.' :: third) = body := by
        rw [← joined, split, List.intercalate_cons_cons, List.intercalate_cons_cons,
          List.intercalate_singleton, List.append_assoc, List.append_assoc]
        rfl
      exact ⟨text ▸ .full (parseComponent_eq_ok_iff.mp isShard) (parseComponent_eq_ok_iff.mp isRealm)
        (parseComponent_eq_ok_iff.mp isNum), rfl⟩
    · cases read
  · rintro ⟨numbers, rfl⟩
    obtain ⟨shard, realm, num, checksum⟩ := id
    have point {text : List Char} {n : Nat} (component : Component text n) : '.' ∉ text :=
      component.not_mem (by decide)
    rw [parseBody]
    generalize hs : shard.toNat = s, hr : realm.toNat = r, hn : num.toNat = n at numbers
    cases numbers with
    | short isNum =>
      cases UInt64.toNat_inj.mp (hs.trans UInt64.toNat_zero.symm)
      cases UInt64.toNat_inj.mp (hr.trans UInt64.toNat_zero.symm)
      rw [splitAll_of_not_mem (point isNum)]
      simp only [parseComponent_eq_ok_iff.mpr (hn ▸ isNum)]
      rfl
    | full isShard isRealm isNum =>
      rw [splitAll_append (point isShard), splitAll_append (point isRealm),
        splitAll_of_not_mem (point isNum)]
      simp only [parseComponent_eq_ok_iff.mpr (hs ▸ isShard),
        parseComponent_eq_ok_iff.mpr (hr ▸ isRealm), parseComponent_eq_ok_iff.mpr (hn ▸ isNum)]
      rfl

theorem parse_eq_ok_iff {input : String} {id : EntityId kind} :
    parse input = .ok id ↔ EntityNotation input.toList id.parts := by
  constructor
  · intro read
    rw [parse] at read
    split at read
    · obtain ⟨numbers, plain⟩ := parseBody_eq_ok_iff.mp read
      rw [parts, plain]
      exact .plain numbers
    · next body letters split =>
      obtain ⟨checksum, isChecksum, read⟩ := Except.bind_eq_ok read
      obtain ⟨numbers, checked⟩ := parseBody_eq_ok_iff.mp read
      rw [(eq_append_of_splitFirst split).1, parts, checked, Option.map_some,
        Checksum.parse_eq_ok_iff.mp isChecksum]
      exact .checked numbers (Checksum.letters_of_parse isChecksum)
  · intro shown
    rw [parse]
    generalize input.toList = text, same : id.parts = parts at shown
    have dash {body : List Char} {shard realm num : Nat} (numbers : Numbers body shard realm num) :
        '-' ∉ body := fun h => by simpa using numbers.mem_cases h
    cases shown with
    | plain numbers =>
      obtain ⟨rfl, rfl, rfl, carried⟩ := IdParts.mk.inj same
      rw [splitFirst_of_not_mem (dash numbers)]
      exact parseBody_eq_ok_iff.mpr ⟨numbers, Option.map_eq_none_iff.mp carried⟩
    | checked numbers isLetters =>
      obtain ⟨rfl, rfl, rfl, carried⟩ := IdParts.mk.inj same
      obtain ⟨checksum, isChecksum, letters⟩ := Option.map_eq_some_iff.mp carried
      rw [splitFirst_append (dash numbers)]
      simp only [Checksum.parse_eq_ok_iff.mpr letters]
      exact parseBody_eq_ok_iff.mpr ⟨numbers, isChecksum⟩

theorem parses_iff {input : String} :
    (∃ id : EntityId kind, parse input = .ok id) ↔ ∃ parts, EntityNotation input.toList parts := by
  constructor
  · rintro ⟨id, read⟩
    exact ⟨id.parts, parse_eq_ok_iff.mp read⟩
  · rintro ⟨parts, shown⟩
    obtain ⟨id, rfl⟩ := shown.exists_id kind
    exact ⟨id, parse_eq_ok_iff.mpr shown⟩

end EntityId

theorem EntityNotation.not_mem {text : List Char} {parts : IdParts}
    (shown : EntityNotation text parts) {separator : Char}
    (isSeparator : separator = '/' ∨ separator = '@') : separator ∉ text := by
  intro found
  rcases isSeparator with rfl | rfl
  · simpa using shown.mem_cases found
  · simpa using shown.mem_cases found

theorem Component.not_mem_separator {text : List Char} {n : Nat} (component : Component text n)
    {separator : Char} (isSeparator : separator = '/' ∨ separator = '@') : separator ∉ text := by
  rcases isSeparator with rfl | rfl
  · exact component.not_mem (by decide)
  · exact component.not_mem (by decide)

theorem nftNotation_append_iff {token serial : List Char} {parts : IdParts} {n : Nat}
    {separator : Char} (isSeparator : separator = '/' ∨ separator = '@') :
    NftNotation (token ++ separator :: serial) parts n ↔
      EntityNotation token parts ∧ Component serial n := by
  constructor
  · intro shown
    generalize joined : token ++ separator :: serial = text at shown
    cases shown with
    | mk isToken _ isSerial =>
      obtain ⟨rfl, -, rfl⟩ := (List.append_cons_inj_of_notMem (isToken.not_mem isSeparator)
        (isSerial.not_mem_separator isSeparator)).mp joined.symm
      exact ⟨isToken, isSerial⟩
  · rintro ⟨isToken, isSerial⟩
    exact .mk isToken isSeparator isSerial

theorem NftNotation.exists_id {text : List Char} {parts : IdParts} {n : Nat}
    (shown : NftNotation text parts n) :
    ∃ id : NftId, id.token.parts = parts ∧ id.serial.toNat = n := by
  cases shown with
  | mk isToken _ isSerial =>
    obtain ⟨token, same⟩ := isToken.exists_id .token
    exact ⟨⟨token, .ofNat n⟩, same, UInt64.toNat_ofNat_of_lt' isSerial.lt⟩

namespace NftId

theorem parse_eq_ok_iff {input : String} {id : NftId} :
    parse input = .ok id ↔ NftNotation input.toList id.token.parts id.serial.toNat := by
  constructor
  · intro read
    rw [parse] at read
    split at read
    · cases read
    · next token serial split =>
      obtain ⟨n, isSerial, read⟩ := Except.bind_eq_ok read
      obtain ⟨found, isToken, same⟩ := Except.bind_eq_ok read
      cases same
      obtain ⟨separator, isSeparator, text, -⟩ := eq_append_of_splitLast split
      rw [Bool.or_eq_true, beq_iff_eq, beq_iff_eq] at isSeparator
      have shown := EntityId.parse_eq_ok_iff.mp isToken
      rw [String.toList_ofList] at shown
      rw [text]
      exact .mk shown isSeparator (parseComponent_eq_ok_iff.mp isSerial)
  · intro shown
    obtain ⟨token, serial⟩ := id
    rw [parse]
    generalize input.toList = text, same : token.parts = parts, value : serial.toNat = n at shown
    cases shown with
    | @mk tokenText serialText _ _ separator isToken isSeparator isSerial =>
      cases same
      cases value
      have here : (separator == '/' || separator == '@') = true := by
        rw [Bool.or_eq_true, beq_iff_eq, beq_iff_eq]
        exact isSeparator
      have behind : ∀ c ∈ serialText, (c == '/' || c == '@') = false := by
        intro c hc
        rw [Bool.or_eq_false_iff, beq_eq_false_iff_ne, beq_eq_false_iff_ne]
        exact ⟨fun same => isSerial.not_mem_separator (.inl same) hc,
          fun same => isSerial.not_mem_separator (.inr same) hc⟩
      have read : EntityId.parse (String.ofList tokenText) = .ok token := by
        rw [EntityId.parse_eq_ok_iff, String.toList_ofList]
        exact isToken
      rw [splitLast_append here tokenText behind]
      simp only [parseComponent_eq_ok_iff.mpr isSerial, read]
      rfl

theorem parses_iff {input : String} :
    (∃ id, parse input = .ok id) ↔ ∃ parts n, NftNotation input.toList parts n := by
  constructor
  · rintro ⟨id, read⟩
    exact ⟨id.token.parts, id.serial.toNat, parse_eq_ok_iff.mp read⟩
  · rintro ⟨parts, n, shown⟩
    obtain ⟨id, rfl, rfl⟩ := shown.exists_id
    exact ⟨id, parse_eq_ok_iff.mpr shown⟩

theorem parse_slash_iff_parse_at {token serial : String} {id : NftId} :
    parse (token ++ "/" ++ serial) = .ok id ↔ parse (token ++ "@" ++ serial) = .ok id := by
  rw [parse_eq_ok_iff, parse_eq_ok_iff]
  simp only [String.toList_append, List.append_assoc]
  exact (nftNotation_append_iff (.inl rfl)).trans (nftNotation_append_iff (.inr rfl)).symm

theorem parse_text (id : NftId) : parse id.text = .ok id := by
  have isToken := EntityId.parse_eq_ok_iff.mp id.token.parse_text
  rw [parse_eq_ok_iff, text, String.toList_append, String.toList_append, List.append_assoc]
  exact .mk isToken (.inl rfl) ⟨.toString _, id.serial.toNat_lt⟩

end NftId

/-- Ids of entities of every kind, and of single tokens, are read from the texts of their notation
and from no others, as what the text tells; what an id is written as is among them. -/
theorem entity_ids_read_exactly :
    (∀ (kind : EntityKind) (input : String),
      ((∃ id : EntityId kind, EntityId.parse input = .ok id) ↔
          ∃ parts, EntityNotation input.toList parts) ∧
        ∀ id : EntityId kind,
          EntityId.parse input = .ok id ↔ EntityNotation input.toList id.parts) ∧
      (∀ (kind : EntityKind) (id : EntityId kind), EntityId.parse id.text = .ok id) ∧
      (∀ input : String,
        ((∃ id, NftId.parse input = .ok id) ↔ ∃ parts n, NftNotation input.toList parts n) ∧
          ∀ id : NftId, NftId.parse input = .ok id ↔
            NftNotation input.toList id.token.parts id.serial.toNat) ∧
      (∀ (token serial : String) (id : NftId),
        NftId.parse (token ++ "/" ++ serial) = .ok id ↔
          NftId.parse (token ++ "@" ++ serial) = .ok id) ∧
      ∀ id : NftId, NftId.parse id.text = .ok id := by
  refine ⟨fun kind input => ⟨?_, fun id => ?_⟩, fun kind id => ?_, fun input => ⟨?_, fun id => ?_⟩,
    fun token serial id => ?_, fun id => ?_⟩
  · exact EntityId.parses_iff
  · exact EntityId.parse_eq_ok_iff
  · exact id.parse_text
  · exact NftId.parses_iff
  · exact NftId.parse_eq_ok_iff
  · exact NftId.parse_slash_iff_parse_at
  · exact id.parse_text

end LedgerClient
