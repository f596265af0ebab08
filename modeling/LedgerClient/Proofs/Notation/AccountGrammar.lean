import LedgerClient.Proofs.Key.Detection
import LedgerClient.Proofs.Notation.Account
import LedgerClient.Proofs.Notation.EntityGrammar

/-! The grammar of account ids. An account is read from the texts of entity ids, and from a shard and
a realm with an address or a key behind them; where the number of an entity id would be written in
forty digits, these are an address. -/

namespace LedgerClient

open Text

/-! ## Digits behind a mark

Addresses and keys are hexadecimal digits of either case, behind the mark `0x` or without it. The
letter of the mark is no digit, so that there is at most one mark. -/

theorem Text.dropLead_cases (lead text : List Char) :
    text = lead ++ dropLead lead text ∨
      (∀ rest, text ≠ lead ++ rest) ∧ dropLead lead text = text := by
  cases found : lead.isPrefixOf? text with
  | some rest =>
    left
    rw [dropLead, found, Option.getD_some]
    exact isPrefixOf?_eq_some found
  | none =>
    refine .inr ⟨?_, by rw [dropLead, found, Option.getD_none]⟩
    rintro rest rfl
    rw [isPrefixOf?_append] at found
    cases found

theorem Text.length_dropLead_le (lead text : List Char) :
    (dropLead lead text).length ≤ text.length := by
  rcases dropLead_cases lead text with marked | ⟨-, unmarked⟩
  · have length := congrArg List.length marked
    rw [List.length_append] at length
    omega
  · exact Nat.le_of_eq (congrArg List.length unmarked)

theorem Text.length_le_dropLead (lead text : List Char) :
    text.length ≤ lead.length + (dropLead lead text).length := by
  rcases dropLead_cases lead text with marked | ⟨-, unmarked⟩
  · exact Nat.le_of_eq ((congrArg List.length marked).trans List.length_append)
  · rw [unmarked]
    exact Nat.le_add_left _ _

theorem Text.isAlphanum_of_dropLead {text : List Char}
    (h : ∀ c ∈ dropLead ['0', 'x'] text, c.isAlphanum = true) : ∀ c ∈ text, c.isAlphanum = true := by
  intro c hc
  rcases mem_of_mem_dropLead ['0', 'x'] hc with mark | behind
  · simp only [List.mem_cons, List.not_mem_nil, or_false] at mark
    rcases mark with rfl | rfl <;> rfl
  · exact h c behind

theorem Text.not_mem_of_isAlphanum {text : List Char} {c : Char}
    (all : ∀ d ∈ text, d.isAlphanum = true) (other : c.isAlphanum = false) : c ∉ text := by
  intro found
  rw [all c found] at other
  cases other

theorem Text.AllDigits.ne_mark_append {text : List Char} (digits : AllDigits text)
    (rest : List Char) : text ≠ ['0', 'x'] ++ rest := by
  rintro rfl
  have digit := digits 'x' (by simp)
  cases digit

namespace Text.Hex

theorem exists_digit_of_isDigit {c : Char} (h : c.isDigit = true) : ∃ value < 16, c = digit value := by
  have every : ∀ code < 128, (Char.ofNat code).isDigit = true →
      ∃ value < 16, Char.ofNat code = digit value := by decide
  have bounds : (decide (c.val ≥ '0'.val) && decide (c.val ≤ '9'.val)) = true := h
  rw [Bool.and_eq_true, decide_eq_true_eq, decide_eq_true_eq] at bounds
  have high : c.toNat ≤ 57 := bounds.2
  rw [← Char.ofNat_toNat c] at h ⊢
  exact every _ (by omega) h

theorem exists_digits_eq {text : List Char} (even : text.length % 2 = 0)
    (every : ∀ c ∈ text, ∃ value < 16, c = digit value) : ∃ bytes, digits bytes = text := by
  match text with
  | [] => exact ⟨[], rfl⟩
  | [_] => cases even
  | _ :: _ :: others =>
    rw [List.forall_mem_cons, List.forall_mem_cons] at every
    obtain ⟨⟨high, highSmall, rfl⟩, ⟨low, lowSmall, rfl⟩, every⟩ := every
    rw [List.length_cons, List.length_cons] at even
    obtain ⟨rest, same⟩ := exists_digits_eq (by omega) every
    exact ⟨(.ofNat high * 16 + .ofNat low) :: rest, by rw [digits_halves highSmall lowSmall, same]⟩

end Text.Hex

namespace EvmAddress

variable {address : EvmAddress}

theorem isAlphanum_of_parse {text : List Char} (read : parse (String.ofList text) = .ok address) :
    ∀ c ∈ text, c.isAlphanum = true := by
  have lower := parse_eq_ok_iff.mp read
  rw [String.toList_ofList] at lower
  exact isAlphanum_of_dropLead (Hex.isAlphanum_of_map_toLower lower)

theorem length_of_parse {text : List Char} (read : parse (String.ofList text) = .ok address) :
    text.length = 40 ∨ ∃ digits, text = ['0', 'x'] ++ digits := by
  have lower := parse_eq_ok_iff.mp read
  rw [String.toList_ofList] at lower
  rcases dropLead_cases ['0', 'x'] text with marked | ⟨-, unmarked⟩
  · exact .inr ⟨_, marked⟩
  · left
    rw [← unmarked, Hex.length_of_map_toLower lower, address.length_bytes]

theorem parse_dropLead_eq_ok_iff {text : List Char} :
    ((String.ofList (dropLead ['0', 'x'] text)).utf8ByteSize = 40 ∧
      parse (String.ofList (dropLead ['0', 'x'] text)) = .ok address) ↔
        parse (String.ofList text) = .ok address := by
  -- Once a mark has been dropped, an address is read from the text exactly if it is read from
  -- the whole text: with one more mark, forty bytes would not hold its digits.
  simp only [parse_eq_ok_iff, String.toList_ofList]
  constructor
  · rintro ⟨size, lower⟩
    rcases dropLead_cases ['0', 'x'] (dropLead ['0', 'x'] text) with marked | ⟨-, unmarked⟩
    · have length := congrArg List.length marked
      rw [List.length_append, Hex.length_of_map_toLower lower, address.length_bytes] at length
      have bound := length_le_utf8ByteSize (dropLead ['0', 'x'] text)
      rw [size, length] at bound
      exact absurd bound (by decide)
    · rwa [unmarked] at lower
  · intro lower
    rw [dropLead_of_ne (Hex.ne_mark_append lower)]
    refine ⟨?_, lower⟩
    rw [utf8ByteSize_ofList (Hex.isAscii_of_map_toLower lower), Hex.length_of_map_toLower lower,
      address.length_bytes]

theorem exists_hex_eq {text : List Char} (digits : AllDigits text) (length : text.length = 40) :
    ∃ address : EvmAddress, address.hex.toList = text := by
  obtain ⟨bytes, same⟩ := Hex.exists_digits_eq (by omega) fun c hc =>
    Hex.exists_digit_of_isDigit (digits c hc)
  have size : bytes.length = 20 := by
    have := Hex.length_digits bytes
    rw [same] at this
    omega
  exact ⟨⟨bytes, size⟩, (toList_hex _).trans same⟩

end EvmAddress

namespace PublicKey

variable {key : PublicKey}

theorem parse_eq_ok_iff {text : String} :
    parse text = .ok key ↔ ∃ bytes, decodeKeyText text = .ok bytes ∧ ofBytes bytes = .ok key :=
  @KeyReader.read_eq_ok_iff .any (.text text) key

theorem isAlphanum_of_parse {text : List Char} (read : parse (String.ofList text) = .ok key) :
    ∀ c ∈ text, c.isAlphanum = true := by
  obtain ⟨bytes, decoded, -⟩ := parse_eq_ok_iff.mp read
  have lower := decodeKeyText_eq_ok_iff.mp decoded
  rw [String.toList_ofList] at lower
  exact isAlphanum_of_dropLead (Hex.isAlphanum_of_map_toLower lower)

theorem length_of_ofBytes {bytes : Bytes} (read : ofBytes bytes = .ok key) : 32 ≤ bytes.length := by
  obtain ⟨-, isRaw | isSubject⟩ :=
    KeyReader.ofBytes_only_eq_ok_iff.mp (KeyReader.ofBytes_any_eq_ok_iff.mp read)
  · have length := length_of_ofRaw? isRaw
    cases isKind : key.kind with
    | ed25519 =>
      rw [isKind, mem_rawLengths_ed25519] at length
      omega
    | ecdsa =>
      rw [isKind, mem_rawLengths_ecdsa] at length
      omega
  · have length := length_of_ofDer? isSubject
    omega

theorem length_of_parse {text : List Char} (read : parse (String.ofList text) = .ok key) :
    64 ≤ text.length := by
  obtain ⟨bytes, decoded, isKey⟩ := parse_eq_ok_iff.mp read
  have lower := decodeKeyText_eq_ok_iff.mp decoded
  rw [String.toList_ofList] at lower
  have digits := Hex.length_of_map_toLower lower
  have key := length_of_ofBytes isKey
  have dropped := length_dropLead_le ['0', 'x'] text
  omega

theorem parse_congr {text other : String}
    (same : dropLead ['0', 'x'] text.toList = dropLead ['0', 'x'] other.toList) :
    parse text = parse other := by
  rw [parse, parse, decodeKeyText, decodeKeyText, same]

theorem parse_mark_append (key : PublicKey) : parse ("0x" ++ key.text) = .ok key :=
  parse_eq_ok_iff.mpr ⟨key.derBytes, decodeKeyText_marked key.derBytes, key.ofBytes_derBytes⟩

theorem dropLead_twice_marked (behind : String) :
    dropLead ['0', 'x'] ("0x0x" ++ behind).toList = ['0', 'x'] ++ behind.toList := by
  rw [String.toList_append]
  exact dropLead_append ['0', 'x'] (['0', 'x'] ++ behind.toList)

theorem parse_twice_marked_ne (behind : String) (key : PublicKey) :
    parse ("0x0x" ++ behind) ≠ .ok key := by
  intro read
  obtain ⟨bytes, decoded, -⟩ := parse_eq_ok_iff.mp read
  have lower := decodeKeyText_eq_ok_iff.mp decoded
  rw [dropLead_twice_marked] at lower
  exact Hex.ne_mark_append lower behind.toList rfl

theorem parse_dropLead_eq_ok_iff {text : String} :
    parse (String.ofList (dropLead ['0', 'x'] text.toList)) = .ok key ↔
      parse text = .ok key ∨
        ∃ behind, text = "0x0x" ++ behind ∧ parse ("0x" ++ behind) = .ok key := by
  -- Only with two marks in front is there something left to drop when the digits are decoded.
  by_cases twice : ∃ behind, text = "0x0x" ++ behind
  · obtain ⟨behind, rfl⟩ := twice
    have once : String.ofList (dropLead ['0', 'x'] ("0x0x" ++ behind).toList) = "0x" ++ behind := by
      rw [dropLead_twice_marked, String.ofList_append, String.ofList_toList]
    rw [once]
    constructor
    · intro read
      exact .inr ⟨behind, rfl, read⟩
    · rintro (read | ⟨rest, same, read⟩)
      · exact absurd read (parse_twice_marked_ne behind key)
      · rw [(String.append_right_inj "0x0x").mp same]
        exact read
  · have again : dropLead ['0', 'x'] (dropLead ['0', 'x'] text.toList) =
        dropLead ['0', 'x'] text.toList := by
      rcases dropLead_cases ['0', 'x'] text.toList with marked | ⟨-, unmarked⟩
      · refine dropLead_of_ne fun rest same => twice ⟨String.ofList rest, ?_⟩
        rw [← String.ofList_toList (s := text), marked, same, String.ofList_append,
          String.ofList_append, ← String.append_assoc]
        rfl
      · rw [unmarked, unmarked]
    have same : parse (String.ofList (dropLead ['0', 'x'] text.toList)) = parse text :=
      parse_congr (by rw [String.toList_ofList, again])
    rw [same, or_iff_left]
    rintro ⟨behind, marked, -⟩
    exact twice ⟨behind, marked⟩

end PublicKey

/-! ## Three parts -/

theorem Numbers.components {body behind first second last : List Char} {shard realm num : Nat}
    (numbers : Numbers body shard realm num) (point : '.' ∉ behind) (isFirst : '.' ∉ first)
    (isSecond : '.' ∉ second) (joined : first ++ '.' :: (second ++ '.' :: last) = body ++ behind) :
    Component first shard ∧ Component second realm ∧
      ∃ third, Component third num ∧ last = third ++ behind := by
  cases numbers with
  | short isNum =>
    have found : '.' ∈ body ++ behind := by
      rw [← joined]
      simp
    rcases List.mem_append.mp found with inside | inside
    · exact absurd inside (isNum.not_mem (by decide))
    · exact absurd inside point
  | full isShard isRealm isNum =>
    rw [List.append_assoc, List.cons_append, List.append_assoc, List.cons_append] at joined
    obtain ⟨rfl, rfl, rfl⟩ := AccountId.eq_of_joined isFirst isSecond
      (isShard.not_mem (by decide)) (isRealm.not_mem (by decide)) joined
    exact ⟨isShard, isRealm, _, isNum, rfl⟩

theorem EntityNotation.components {first second last : List Char} {parts : IdParts}
    (shown : EntityNotation (first ++ '.' :: (second ++ '.' :: last)) parts)
    (isFirst : '.' ∉ first) (isSecond : '.' ∉ second) :
    Component first parts.shard ∧ Component second parts.realm ∧
      ∃ third, Component third parts.num ∧ last = third ++ parts.letters.elim [] ('-' :: ·) := by
  generalize joined : first ++ '.' :: (second ++ '.' :: last) = text at shown
  cases shown with
  | plain numbers =>
    have whole := joined.trans (List.append_nil _).symm
    exact numbers.components List.not_mem_nil isFirst isSecond whole
  | checked numbers isLetters =>
    refine numbers.components (fun point => ?_) isFirst isSecond joined
    rcases List.mem_cons.mp point with dash | letter
    · cases dash
    · have lower := isLetters.lower '.' letter
      cases lower

theorem head?_letters (letters : Option (List Char)) :
    (letters.elim [] ('-' :: ·)).head?.all (· == '-') = true := by
  cases letters with
  | none => rfl
  | some letters => rfl

namespace AccountId

variable {first second last : List Char}

theorem threeParts_eq_some_iff {text : List Char} :
    threeParts text = some (first, second, last) ↔
      text = first ++ '.' :: (second ++ '.' :: last) ∧ '.' ∉ first ∧ '.' ∉ second := by
  constructor
  · intro cut
    simp only [threeParts, Option.bind_eq_bind, Option.bind_eq_some_iff, Prod.exists] at cut
    obtain ⟨front, rest, cut, middle, back, cutRest, same⟩ := cut
    cases same
    obtain ⟨text, isFirst⟩ := eq_append_of_splitFirst cut
    obtain ⟨behind, isSecond⟩ := eq_append_of_splitFirst cutRest
    exact ⟨by rw [text, behind], isFirst, isSecond⟩
  · rintro ⟨rfl, isFirst, isSecond⟩
    exact threeParts_append isFirst isSecond last

/-- Three parts, the last of which begins with these forty decimal digits; nothing follows them, or
a dash does. -/
inductive AddressDigits : List Char → List Char → Prop
  | mk {first second digits behind : List Char} (isFirst : '.' ∉ first) (isSecond : '.' ∉ second)
      (isDigits : AllDigits digits) (length : digits.length = 40)
      (stop : behind.head?.all (· == '-') = true) :
      AddressDigits (first ++ '.' :: (second ++ '.' :: (digits ++ behind))) digits

theorem addressDigits_append_iff {digits : List Char} (isFirst : '.' ∉ first)
    (isSecond : '.' ∉ second) :
    AddressDigits (first ++ '.' :: (second ++ '.' :: last)) digits ↔
      AllDigits digits ∧ digits.length = 40 ∧
        ∃ behind : List Char, last = digits ++ behind ∧ behind.head?.all (· == '-') = true := by
  constructor
  · intro shown
    generalize joined : first ++ '.' :: (second ++ '.' :: last) = text at shown
    cases shown with
    | mk isFront isMiddle isDigits length stop =>
      obtain ⟨rfl, rfl, rfl⟩ := eq_of_joined isFirst isSecond isFront isMiddle joined
      exact ⟨isDigits, length, _, rfl, stop⟩
  · rintro ⟨isDigits, length, behind, rfl, stop⟩
    exact .mk isFirst isSecond isDigits length stop

/-- What addresses an account behind its shard and realm, if it is not a number. -/
inductive OtherPart : List Char → AccountForm → Prop
  | address {text : List Char} {address : EvmAddress}
      (isAddress : EvmAddress.parse (String.ofList text) = .ok address) :
      OtherPart text (.address address)
  | key {text : List Char} {key : PublicKey}
      (isKey : PublicKey.parse (String.ofList (dropLead ['0', 'x'] text)) = .ok key)
      (notDigits : isDigits text = false) : OtherPart text (.key key)

theorem isNumberPart_of_key {key : PublicKey}
    (isKey : PublicKey.parse (String.ofList (dropLead ['0', 'x'] last)) = .ok key) :
    isNumberPart last = isDigits last := by
  -- A key is written without a dash, in more than forty characters.
  have dash : '-' ∉ last :=
    not_mem_of_isAlphanum (isAlphanum_of_dropLead (PublicKey.isAlphanum_of_parse isKey)) (by decide)
  have long := PublicKey.length_of_parse isKey
  have whole := length_dropLead_le ['0', 'x'] last
  have length : (last.length != 40) = true := by
    rw [bne_iff_ne]
    omega
  rw [isNumberPart_of_not_mem dash, length, Bool.and_true]

theorem isNumberPart_of_address {address : EvmAddress}
    (isAddress : EvmAddress.parse (String.ofList last) = .ok address) : isNumberPart last = false := by
  have dash : '-' ∉ last :=
    not_mem_of_isAlphanum (EvmAddress.isAlphanum_of_parse isAddress) (by decide)
  rw [isNumberPart_of_not_mem dash, Bool.and_eq_false_iff]
  rcases EvmAddress.length_of_parse isAddress with length | ⟨rest, rfl⟩
  · exact .inr (by rw [length]; rfl)
  · left
    cases digits : isDigits (['0', 'x'] ++ rest) with
    | false => rfl
    | true => exact absurd rfl ((AllDigits.of_isDigits digits).ne_mark_append rest)

namespace OtherPart

variable {text : List Char} {form : AccountForm}

theorem isAlphanum (other : OtherPart text form) : ∀ c ∈ text, c.isAlphanum = true := by
  cases other with
  | address isAddress => exact EvmAddress.isAlphanum_of_parse isAddress
  | key isKey => exact isAlphanum_of_dropLead (PublicKey.isAlphanum_of_parse isKey)

theorem isNumberPart_eq_false (other : OtherPart text form) : isNumberPart text = false := by
  cases other with
  | address isAddress => exact isNumberPart_of_address isAddress
  | key isKey notDigits => rw [isNumberPart_of_key isKey, notDigits]

end OtherPart

variable {id : AccountId}

theorem parseOther_eq_ok_iff {input : String} (other : isNumberPart last = false) :
    parseOther input first second last = .ok id ↔
      Component first id.shard.toNat ∧ Component second id.realm.toNat ∧ OtherPart last id.form := by
  rw [parseOther]
  constructor
  · intro read
    obtain ⟨shard, isShard, read⟩ := Except.bind_eq_ok read
    obtain ⟨realm, isRealm, read⟩ := Except.bind_eq_ok read
    dsimp only at read
    split at read
    · next size =>
      obtain ⟨address, isAddress, same⟩ := Except.bind_eq_ok read
      cases same
      exact ⟨parseComponent_eq_ok_iff.mp isShard, parseComponent_eq_ok_iff.mp isRealm,
        .address (EvmAddress.parse_dropLead_eq_ok_iff.mp ⟨size, isAddress⟩)⟩
    · split at read
      · next key isKey =>
        cases read
        exact ⟨parseComponent_eq_ok_iff.mp isShard, parseComponent_eq_ok_iff.mp isRealm,
          .key isKey ((isNumberPart_of_key isKey).symm.trans other)⟩
      · cases read
  · obtain ⟨shard, realm, form⟩ := id
    rintro ⟨isShard, isRealm, isOther⟩
    simp only [parseComponent_eq_ok_iff.mpr isShard, parseComponent_eq_ok_iff.mpr isRealm]
    cases isOther with
    | address isAddress =>
      obtain ⟨size, isDropped⟩ := EvmAddress.parse_dropLead_eq_ok_iff.mpr isAddress
      simp only [bind, Except.bind, if_pos size, isDropped]
      rfl
    | key isKey =>
      have size : (String.ofList (dropLead ['0', 'x'] last)).utf8ByteSize ≠ 40 := by
        have long := PublicKey.length_of_parse isKey
        have bytes := length_le_utf8ByteSize (dropLead ['0', 'x'] last)
        omega
      simp only [bind, Except.bind, if_neg size, isKey]
      rfl

end AccountId

/-- The texts of accounts: those of entity ids, but for numbers of forty digits, and those with an
address or a key behind shard and realm. -/
inductive AccountNotation : List Char → AccountId → Prop
  | numeric {text : List Char} {entity : EntityId .entity} (shown : EntityNotation text entity.parts)
      (isNumber : ∀ digits, ¬AccountId.AddressDigits text digits) :
      AccountNotation text (.ofEntity entity)
  | other {first second last : List Char} {id : AccountId} (isShard : Component first id.shard.toNat)
      (isRealm : Component second id.realm.toNat) (isOther : AccountId.OtherPart last id.form) :
      AccountNotation (first ++ '.' :: (second ++ '.' :: last)) id

theorem AccountNotation.mem_cases {text : List Char} {id : AccountId} (shown : AccountNotation text id)
    {c : Char} (h : c ∈ text) : c.isAlphanum = true ∨ c = '.' ∨ c = '-' := by
  have digit {part : List Char} {n : Nat} (isPart : Component part n) (hc : c ∈ part) :
      c.isAlphanum = true := by
    rw [Char.isAlphanum, isPart.digits c hc, Bool.or_true]
  cases shown with
  | numeric shown => exact shown.mem_cases h
  | other isShard isRealm isOther =>
    simp only [List.mem_append, List.mem_cons] at h
    rcases h with h | h | h | h | h
    · exact .inl (digit isShard h)
    · exact .inr (.inl h)
    · exact .inl (digit isRealm h)
    · exact .inr (.inl h)
    · exact .inl (isOther.isAlphanum c h)

namespace AccountId

variable {first second last : List Char} {id : AccountId}

theorem parseNumeric_eq_ok_iff {input : String} :
    parseNumeric input = .ok id ↔
      ∃ entity : EntityId .entity, EntityNotation input.toList entity.parts ∧ ofEntity entity = id := by
  constructor
  · intro read
    obtain ⟨entity, isEntity, same⟩ := Except.map_eq_ok read
    exact ⟨entity, EntityId.parse_eq_ok_iff.mp isEntity, same⟩
  · rintro ⟨entity, shown, rfl⟩
    rw [parseNumeric, EntityId.parse_eq_ok_iff.mpr shown]
    rfl

theorem isNumberPart_of_shown {parts : IdParts} (isFirst : '.' ∉ first) (isSecond : '.' ∉ second)
    (shown : EntityNotation (first ++ '.' :: (second ++ '.' :: last)) parts)
    (isNumber : ∀ digits, ¬AddressDigits (first ++ '.' :: (second ++ '.' :: last)) digits) :
    isNumberPart last = true := by
  obtain ⟨-, -, third, isNum, rfl⟩ := shown.components isFirst isSecond
  have stop := head?_letters parts.letters
  have length : (third.length != 40) = true := by
    rw [bne_iff_ne]
    exact fun length => isNumber third (.mk isFirst isSecond isNum.digits length stop)
  rw [isNumberPart_append (isNum.not_mem (by decide)) stop, isNum.isDigits, length, Bool.and_self]

theorem parse_eq_ok_iff {input : String} :
    parse input = .ok id ↔ AccountNotation input.toList id := by
  rw [parse]
  generalize text : input.toList = whole
  -- The reader looks at the last of three parts only, before it knows the others to be numbers.
  constructor
  · intro read
    split at read
    · next first second last cut =>
      obtain ⟨rfl, isFirst, isSecond⟩ := threeParts_eq_some_iff.mp cut
      split at read
      · next number =>
        obtain ⟨entity, shown, rfl⟩ := parseNumeric_eq_ok_iff.mp read
        refine .numeric (text ▸ shown) fun digits isAddress => ?_
        obtain ⟨isDigits, length, behind, rfl, stop⟩ :=
          (addressDigits_append_iff isFirst isSecond).mp isAddress
        rw [isNumberPart_append (isDigits.not_mem (by decide)) stop, length, Bool.and_eq_true] at number
        cases number.2
      · next other =>
        obtain ⟨isShard, isRealm, isOther⟩ :=
          (parseOther_eq_ok_iff (Bool.eq_false_iff.mpr other)).mp read
        exact .other isShard isRealm isOther
    · next none =>
      obtain ⟨entity, shown, rfl⟩ := parseNumeric_eq_ok_iff.mp read
      refine .numeric (text ▸ shown) fun digits isAddress => ?_
      cases isAddress with
      | mk isFirst isSecond =>
        rw [threeParts_append isFirst isSecond] at none
        cases none
  · intro shown
    cases shown with
    | @numeric _ entity shown isNumber =>
      have read : parseNumeric input = .ok (ofEntity entity) :=
        parseNumeric_eq_ok_iff.mpr ⟨entity, text ▸ shown, rfl⟩
      split
      · next first second last cut =>
        obtain ⟨rfl, isFirst, isSecond⟩ := threeParts_eq_some_iff.mp cut
        rw [if_pos (isNumberPart_of_shown isFirst isSecond shown isNumber), read]
      · exact read
    | other isShard isRealm isOther =>
      have other := isOther.isNumberPart_eq_false
      rw [threeParts_append (isShard.not_mem (by decide)) (isRealm.not_mem (by decide))]
      simp only [other, Bool.false_eq_true, if_false]
      exact (parseOther_eq_ok_iff other).mpr ⟨isShard, isRealm, isOther⟩

theorem not_addressDigits_text {shard realm num : UInt64} {checksum : Option Checksum}
    (digits : List Char) :
    ¬AddressDigits (⟨shard, realm, .number num checksum⟩ : AccountId).text.toList digits := by
  have part (n : UInt64) {c : Char} (h : c.isDigit = false) : c ∉ (toString n.toNat).toList :=
    (allDigits_toString _).not_mem h
  rw [toList_text, addressDigits_append_iff (part shard (by decide)) (part realm (by decide))]
  rintro ⟨isDigits, length, behind, same, stop⟩
  obtain ⟨rest, last, stopRest⟩ : ∃ rest : List Char,
      lastText ⟨shard, realm, .number num checksum⟩ = (toString num.toNat).toList ++ rest ∧
        rest.head?.all (· == '-') = true := by
    cases checksum with
    | none => exact ⟨[], (List.append_nil _).symm, rfl⟩
    | some checksum => exact ⟨_, rfl, rfl⟩
  rw [last] at same
  obtain ⟨rfl, -⟩ := eq_of_append_dash (part num (by decide)) (isDigits.not_mem (by decide)) stopRest
    stop same
  have short := length_toString_toNat num
  omega

theorem isDigits_keyText (key : PublicKey) : isDigits key.text.toList = false := by
  cases digits : isDigits key.text.toList with
  | false => rfl
  | true =>
    have digit := AllDigits.of_isDigits digits 'a' key.letter_mem_text
    cases digit

theorem shown_text (id : AccountId) : AccountNotation id.text.toList id := by
  have part (n : UInt64) : Component (toString n.toNat).toList n.toNat := ⟨.toString _, n.toNat_lt⟩
  obtain ⟨shard, realm, form⟩ := id
  cases form with
  | number num checksum =>
    have isEntity := EntityId.parse_eq_ok_iff.mp
      (EntityId.parse_text (⟨shard, realm, num, checksum⟩ : EntityId .entity))
    rw [← text_number] at isEntity
    exact .numeric isEntity not_addressDigits_text
  | key key =>
    have isKey : PublicKey.parse (String.ofList (dropLead ['0', 'x'] key.text.toList)) = .ok key := by
      rw [PublicKey.text, Hex.toList_encode, Hex.dropLead_digits, ← Hex.toList_encode,
        String.ofList_toList]
      exact key.parse_text
    rw [toList_text]
    exact .other (part shard) (part realm) (.key isKey (isDigits_keyText key))
  | address address =>
    have isAddress : EvmAddress.parse (String.ofList address.hex.toList) = .ok address := by
      rw [String.ofList_toList, address.parse_hex]
    rw [toList_text]
    exact .other (part shard) (part realm) (.address isAddress)

theorem parse_text (id : AccountId) : parse id.text = .ok id :=
  parse_eq_ok_iff.mpr id.shown_text

end AccountId

end LedgerClient
