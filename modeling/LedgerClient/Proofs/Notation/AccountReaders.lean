import LedgerClient.Proofs.Key.Encodings
import LedgerClient.Proofs.Notation.AccountGrammar

/-! The account reader next to the readers of what it is made of. On a text of an entity id it finds
the same account, unless forty digits make it an address; and what it finds behind a shard and a
realm is what the readers of addresses and of keys find there, except that it takes a second mark in
front of a key. -/

namespace LedgerClient

open Text

namespace AccountId

variable {input : String}

/-! ## Entity ids -/

/-- How the account reader stands to the reader of entity ids on a text: whatever is an account number
to the first is the same id to the second; and an entity id is the account with its number, except
where that number has forty digits. These are an address, and in front of a checksum they are
nothing. -/
structure AgreesWithEntity (input : String) : Prop where
  number : ∀ id, parse input = .ok id → id.isNumeric = true →
    EntityId.parse input = .ok (⟨id.shard, id.realm, id.num, id.checksum⟩ : EntityId .entity)
  entity : ∀ id : EntityId .entity, EntityId.parse input = .ok id →
    (parse input = .ok (.ofEntity id) ↔ ∀ digits, ¬AddressDigits input.toList digits)
  address : ∀ (id : EntityId .entity) (digits : List Char), EntityId.parse input = .ok id →
    AddressDigits input.toList digits → id.checksum = none →
      ∃ address : EvmAddress, address.hex.toList = digits ∧
        parse input = .ok (.ofAddress id.shard id.realm address)
  fault : ∀ (id : EntityId .entity) (digits : List Char), EntityId.parse input = .ok id →
    AddressDigits input.toList digits → id.checksum ≠ none →
      parse input = .error (.parse input .accountShape)

theorem AddressDigits.shown {text digits : List Char} {parts : IdParts}
    (isAddress : AddressDigits text digits) (shown : EntityNotation text parts) :
    ∃ first second, text = first ++ '.' :: (second ++ '.' ::
        (digits ++ parts.letters.elim [] ('-' :: ·))) ∧
      Component first parts.shard ∧ Component second parts.realm ∧
        AllDigits digits ∧ digits.length = 40 := by
  cases isAddress with
  | @mk first second digits behind isFirst isSecond isDigits length stop =>
    obtain ⟨isShard, isRealm, third, isNum, last⟩ := shown.components isFirst isSecond
    obtain ⟨rfl, rfl⟩ := eq_of_append_dash (isDigits.not_mem (by decide)) (isNum.not_mem (by decide))
      stop (head?_letters parts.letters) last
    exact ⟨first, second, rfl, isShard, isRealm, isDigits, length⟩

theorem parse_of_dash {first second last : List Char} {shard realm : UInt64}
    (text : input.toList = first ++ '.' :: (second ++ '.' :: last))
    (isShard : Component first shard.toNat) (isRealm : Component second realm.toNat)
    (other : isNumberPart last = false) (dash : '-' ∈ last) (long : 42 < last.length) :
    parse input = .error (.parse input .accountShape) := by
  have cut := threeParts_append (isShard.not_mem (by decide)) (isRealm.not_mem (by decide)) last
  have size : (String.ofList (dropLead ['0', 'x'] last)).utf8ByteSize ≠ 40 := by
    have bytes := length_le_utf8ByteSize (dropLead ['0', 'x'] last)
    have length : last.length ≤ 2 + (dropLead ['0', 'x'] last).length :=
      length_le_dropLead ['0', 'x'] last
    omega
  have noKey (key : PublicKey) :
      PublicKey.parse (String.ofList (dropLead ['0', 'x'] last)) ≠ .ok key := by
    intro isKey
    have all := isAlphanum_of_dropLead (PublicKey.isAlphanum_of_parse isKey)
    exact not_mem_of_isAlphanum all (by decide) dash
  -- The reader of keys has a fault of its own, which the account reader puts away.
  rw [parse, text, cut]
  simp only [other, Bool.false_eq_true, if_false, parseOther, parseComponent_eq_ok_iff.mpr isShard,
    parseComponent_eq_ok_iff.mpr isRealm, bind, Except.bind, if_neg size]
  cases read : PublicKey.parse (String.ofList (dropLead ['0', 'x'] last)) with
  | error fault => rfl
  | ok key => exact absurd read (noKey key)

theorem parse_ofEntity_iff {id : EntityId .entity} (read : EntityId.parse input = .ok id) :
    parse input = .ok (.ofEntity id) ↔ ∀ digits, ¬AddressDigits input.toList digits := by
  rw [parse_eq_ok_iff]
  constructor
  · intro isAccount
    generalize input.toList = text at isAccount
    generalize same : ofEntity id = account at isAccount
    cases isAccount with
    | numeric _ isNumber => exact isNumber
    | other _ _ isOther =>
      subst same
      cases isOther
  · exact .numeric (EntityId.parse_eq_ok_iff.mp read)

theorem parse_of_forty {id : EntityId .entity} {digits : List Char}
    (read : EntityId.parse input = .ok id) (isAddress : AddressDigits input.toList digits)
    (plain : id.checksum = none) :
    ∃ address : EvmAddress, address.hex.toList = digits ∧
      parse input = .ok (.ofAddress id.shard id.realm address) := by
  obtain ⟨first, second, text, isShard, isRealm, isDigits, length⟩ :=
    isAddress.shown (EntityId.parse_eq_ok_iff.mp read)
  obtain ⟨address, hex⟩ := EvmAddress.exists_hex_eq isDigits length
  have letters : id.parts.letters = none := by rw [EntityId.parts, plain, Option.map_none]
  rw [letters, Option.elim_none, List.append_nil] at text
  refine ⟨address, hex, ?_⟩
  rw [parse_eq_ok_iff, text]
  refine .other isShard isRealm (.address ?_)
  rw [← hex, String.ofList_toList, EvmAddress.parse_hex]

theorem parse_of_forty_checked {id : EntityId .entity} {digits : List Char}
    (read : EntityId.parse input = .ok id) (isAddress : AddressDigits input.toList digits)
    (checked : id.checksum ≠ none) : parse input = .error (.parse input .accountShape) := by
  obtain ⟨first, second, text, isShard, isRealm, isDigits, length⟩ :=
    isAddress.shown (EntityId.parse_eq_ok_iff.mp read)
  obtain ⟨checksum, carried⟩ := Option.ne_none_iff_exists'.mp checked
  have letters : id.parts.letters = some checksum.letters := by
    rw [EntityId.parts, carried, Option.map_some]
  have five : checksum.letters.length = 5 := rfl
  rw [letters, Option.elim_some] at text
  refine parse_of_dash text isShard isRealm ?_ (by simp) ?_
  · rw [isNumberPart_append (isDigits.not_mem (by decide)) rfl, length]
    exact Bool.and_false _
  · rw [List.length_append, List.length_cons, length, five]
    decide

/-- The account reader and the reader of entity ids agree on every text. -/
theorem agreesWithEntity (input : String) : AgreesWithEntity input where
  number id read isNumber := by
    have shown := parse_eq_ok_iff.mp read
    generalize text : input.toList = whole at shown
    cases shown with
    | numeric shown => exact EntityId.parse_eq_ok_iff.mpr (text ▸ shown)
    | other _ _ isOther =>
      obtain ⟨shard, realm, form⟩ := id
      cases isOther <;> cases isNumber
  entity id read := parse_ofEntity_iff read
  address id digits read isAddress plain := parse_of_forty read isAddress plain
  fault id digits read isAddress checked := parse_of_forty_checked read isAddress checked

/-- Zeros in front make an address of a number that would fit. -/
example : parse "0.0.0000000000000000000000000000000000000007" =
    .ok (.ofAddress 0 0 ⟨List.replicate 19 0 ++ [7], rfl⟩) := by
  decide +kernel

/-! ## Addresses and keys -/

theorem toList_joined (first second last : String) :
    (first ++ "." ++ second ++ "." ++ last).toList =
      first.toList ++ '.' :: (second.toList ++ '.' :: last.toList) := by
  simp

theorem shown_joined_iff {first second last : List Char} {id : AccountId} (isFirst : '.' ∉ first)
    (isSecond : '.' ∉ second) (other : id.isNumeric = false) :
    AccountNotation (first ++ '.' :: (second ++ '.' :: last)) id ↔
      Component first id.shard.toNat ∧ Component second id.realm.toNat ∧ OtherPart last id.form := by
  constructor
  · intro shown
    generalize joined : first ++ '.' :: (second ++ '.' :: last) = text at shown
    cases shown with
    | numeric => cases other
    | other isShard isRealm isOther =>
      obtain ⟨rfl, rfl, rfl⟩ := eq_of_joined isFirst isSecond (isShard.not_mem (by decide))
        (isRealm.not_mem (by decide)) joined
      exact ⟨isShard, isRealm, isOther⟩
  · rintro ⟨isShard, isRealm, isOther⟩
    exact .other isShard isRealm isOther

theorem otherPart_address_iff {last : String} {address : EvmAddress} :
    OtherPart last.toList (.address address) ↔ EvmAddress.parse last = .ok address := by
  constructor
  · intro isOther
    cases isOther with
    | address isAddress => rwa [String.ofList_toList] at isAddress
  · intro isAddress
    exact .address (by rwa [String.ofList_toList])

theorem otherPart_key_iff {last : String} {key : PublicKey} :
    OtherPart last.toList (.key key) ↔
      isDigits last.toList = false ∧
        (PublicKey.parse last = .ok key ∨
          ∃ behind, last = "0x0x" ++ behind ∧ PublicKey.parse ("0x" ++ behind) = .ok key) := by
  rw [← PublicKey.parse_dropLead_eq_ok_iff]
  constructor
  · intro isOther
    cases isOther with
    | key isKey notDigits => exact ⟨notDigits, isKey⟩
  · rintro ⟨notDigits, isKey⟩
    exact .key isKey notDigits

/-- Behind a shard and a realm in decimal digits an address is what the reader of addresses reads. A
key is what the reader of keys reads, as long as it is not all decimal digits; but one more mark than
the reader of keys takes is accepted in front of it. -/
theorem parse_joined_iff {first second : String} (isFirst : isDigits first.toList = true)
    (isSecond : isDigits second.toList = true) (last : String) (shard realm : UInt64) :
    (∀ address, parse (first ++ "." ++ second ++ "." ++ last) = .ok (.ofAddress shard realm address) ↔
      Component first.toList shard.toNat ∧ Component second.toList realm.toNat ∧
        EvmAddress.parse last = .ok address) ∧
    (∀ key, parse (first ++ "." ++ second ++ "." ++ last) = .ok (.ofKey shard realm key) ↔
      Component first.toList shard.toNat ∧ Component second.toList realm.toNat ∧
        isDigits last.toList = false ∧
          (PublicKey.parse last = .ok key ∨
            ∃ behind, last = "0x0x" ++ behind ∧ PublicKey.parse ("0x" ++ behind) = .ok key)) ∧
    ∀ key, parse (first ++ "." ++ second ++ "." ++ last) = .ok (.ofKey shard realm key) →
      (PublicKey.parse last = .ok key ↔ ∀ behind, last ≠ "0x0x" ++ behind) := by
  have point {part : List Char} (digits : isDigits part = true) : '.' ∉ part :=
    (AllDigits.of_isDigits digits).not_mem (by decide)
  have keys (key : PublicKey) :
      parse (first ++ "." ++ second ++ "." ++ last) = .ok (.ofKey shard realm key) ↔
        Component first.toList shard.toNat ∧ Component second.toList realm.toNat ∧
          OtherPart last.toList (.key key) := by
    rw [parse_eq_ok_iff, toList_joined, shown_joined_iff (point isFirst) (point isSecond) rfl]
    rfl
  refine ⟨fun address => ?_, fun key => ?_, fun key read => ?_⟩
  · rw [parse_eq_ok_iff, toList_joined, shown_joined_iff (point isFirst) (point isSecond) rfl]
    exact and_congr_right fun _ => and_congr_right fun _ => otherPart_address_iff
  · rw [keys, otherPart_key_iff]
  · obtain ⟨-, -, isOther⟩ := (keys key).mp read
    obtain ⟨-, isKey | ⟨behind, rfl, -⟩⟩ := otherPart_key_iff.mp isOther
    · refine ⟨fun _ behind same => ?_, fun _ => isKey⟩
      exact PublicKey.parse_twice_marked_ne behind key (same ▸ isKey)
    · refine ⟨fun isKey => ?_, fun once => ?_⟩
      · exact absurd isKey (PublicKey.parse_twice_marked_ne behind key)
      · exact absurd rfl (once behind)

theorem isDigits_marked (behind : String) : isDigits ("0x" ++ behind).toList = false := by
  rw [String.toList_append]
  rfl

theorem isDigits_twice_marked (behind : String) : isDigits ("0x0x" ++ behind).toList = false := by
  rw [String.toList_append]
  rfl

theorem parse_joined_iff_marked :
    parse ("0" ++ "." ++ "0" ++ "." ++ ("0x" ++ PublicKey.text (.ecdsa .base))) =
        .ok (.ofKey 0 0 (.ecdsa .base)) ∧
      parse ("0" ++ "." ++ "0" ++ "." ++ ("0x0x" ++ PublicKey.text (.ecdsa .base))) =
        .ok (.ofKey 0 0 (.ecdsa .base)) := by
  have zero : Component "0".toList (0 : UInt64).toNat := ⟨.toString 0, by decide⟩
  have laws (last : String) :=
    (@parse_joined_iff "0" "0" (by decide) (by decide) last 0 0).2.1 (.ecdsa .base)
  have marked := PublicKey.parse_mark_append (.ecdsa .base)
  exact ⟨(laws _).mpr ⟨zero, zero, isDigits_marked _, .inl marked⟩,
    (laws _).mpr ⟨zero, zero, isDigits_twice_marked _, .inr ⟨_, rfl, marked⟩⟩⟩

/-- The account reader takes two marks in front of a key, the reader of keys does not. -/
theorem parse_twice_marked :
    parse ("0.0.0x0x" ++ PublicKey.text (.ecdsa .base)) = .ok (.ofKey 0 0 (.ecdsa .base)) ∧
      ∀ key, PublicKey.parse ("0x0x" ++ PublicKey.text (.ecdsa .base)) ≠ .ok key := by
  have zero : Component "0".toList (0 : UInt64).toNat := ⟨.toString 0, by decide⟩
  have isOther : OtherPart ("0x0x" ++ PublicKey.text (.ecdsa .base)).toList (.key (.ecdsa .base)) :=
    otherPart_key_iff.mpr
      ⟨isDigits_twice_marked _, .inr ⟨_, rfl, PublicKey.parse_mark_append (.ecdsa .base)⟩⟩
  have text : ("0.0.0x0x" ++ PublicKey.text (.ecdsa .base)).toList =
      "0".toList ++ '.' :: ("0".toList ++ '.' :: ("0x0x" ++ PublicKey.text (.ecdsa .base)).toList) := by
    rw [String.toList_append, String.toList_append]
    rfl
  refine ⟨?_, PublicKey.parse_twice_marked_ne _⟩
  rw [parse_eq_ok_iff, text]
  exact .other zero zero isOther

end AccountId

end LedgerClient
