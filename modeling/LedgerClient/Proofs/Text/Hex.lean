import LedgerClient.Text.Hex
import Mathlib.Data.List.Basic
import Mathlib.Tactic.SplitIfs

/-! Hexadecimal texts read back: a byte string is read from its digits in either case. All digits are
ASCII characters, which are one byte each. -/

namespace LedgerClient

def Text.IsAscii (text : List Char) : Prop :=
  ∀ c ∈ text, c.utf8Size = 1

theorem Bytes.length_ofText {text : List Char} (h : Text.IsAscii text) :
    (Bytes.ofText (String.ofList text)).length = text.length := by
  rw [Bytes.ofText, String.toList_ofList]
  induction text with
  | nil => rfl
  | cons c rest ih =>
    have hr : Text.IsAscii rest := fun d hd => h d (List.mem_cons_of_mem c hd)
    rw [List.flatMap_cons, List.length_append, ih hr, String.length_utf8EncodeChar,
      h c List.mem_cons_self, List.length_cons, Nat.add_comm]

theorem Text.utf8ByteSize_ofList_cons (c : Char) (rest : List Char) :
    (String.ofList (c :: rest)).utf8ByteSize = c.utf8Size + (String.ofList rest).utf8ByteSize := by
  have text : String.ofList (c :: rest) = String.singleton c ++ String.ofList rest := by
    apply String.toList_injective
    simp
  rw [text, String.utf8ByteSize_append, String.utf8ByteSize_singleton]

theorem Text.length_le_utf8ByteSize (text : List Char) :
    text.length ≤ (String.ofList text).utf8ByteSize := by
  induction text with
  | nil => exact Nat.zero_le _
  | cons c rest ih =>
    have := c.utf8Size_pos
    rw [utf8ByteSize_ofList_cons, List.length_cons]
    omega

theorem Text.utf8ByteSize_ofList {text : List Char} (h : IsAscii text) :
    (String.ofList text).utf8ByteSize = text.length := by
  induction text with
  | nil => rfl
  | cons c rest ih =>
    have hr : IsAscii rest := fun d hd => h d (List.mem_cons_of_mem c hd)
    rw [utf8ByteSize_ofList_cons, ih hr, h c List.mem_cons_self, List.length_cons, Nat.add_comm]

theorem Text.utf8EncodeChar_of_forall_lt {c : Char}
    (h : ∀ byte ∈ String.utf8EncodeChar c, byte < 0x80) :
    c.toNat < 128 ∧ String.utf8EncodeChar c = [UInt8.ofNat c.toNat] := by
  have high (lead : Nat) (bound : 192 ≤ lead ∧ lead < 256) : ¬UInt8.ofNat lead < 0x80 := by
    rw [UInt8.lt_iff_toNat_lt, UInt8.toNat_ofNat', Nat.mod_eq_of_lt bound.2]
    exact Nat.not_lt.mpr (Nat.le_trans (by decide) bound.1)
  rw [String.utf8EncodeChar] at h ⊢
  split_ifs at h ⊢ with one two three
  · exact ⟨Nat.lt_succ_of_le one, rfl⟩
  · exact absurd (h _ List.mem_cons_self) (high _ (by omega))
  · exact absurd (h _ List.mem_cons_self) (high _ (by omega))
  · exact absurd (h _ List.mem_cons_self) (high _ (by omega))

theorem Bytes.ofText_of_forall_lt {text : String} (h : ∀ byte ∈ ofText text, byte < 0x80) :
    ofText text = text.toList.map (fun c => UInt8.ofNat c.toNat) ∧
      ∀ c ∈ text.toList, c.toNat < 128 := by
  have one (c : Char) (hc : c ∈ text.toList) :=
    Text.utf8EncodeChar_of_forall_lt fun byte hb => h byte (List.mem_flatMap.mpr ⟨c, hc, hb⟩)
  constructor
  · rw [ofText, List.map_eq_flatMap]
    exact List.flatMap_congr fun c hc => (one c hc).2
  · exact fun c hc => (one c hc).1

namespace Text.Hex

def digits (bytes : Bytes) : List Char :=
  bytes.flatMap pair

@[simp] theorem toList_encode (bytes : Bytes) : (encode bytes).toList = digits bytes := by
  rw [encode, String.toList_ofList]
  rfl

theorem high_lt (byte : UInt8) : byte.toNat / 16 < 16 := by
  have := byte.toNat_lt
  omega

theorem low_lt (byte : UInt8) : byte.toNat % 16 < 16 :=
  Nat.mod_lt _ (by decide)

theorem ofNat_halves (byte : UInt8) :
    UInt8.ofNat (byte.toNat / 16) * 16 + UInt8.ofNat (byte.toNat % 16) = byte := by
  apply UInt8.toNat_inj.mp
  have := byte.toNat_lt
  rw [UInt8.toNat_add, UInt8.toNat_mul, UInt8.toNat_ofNat', UInt8.toNat_ofNat']
  simp only [UInt8.reduceToNat]
  omega

theorem digits_cons (byte : UInt8) (rest : Bytes) :
    digits (byte :: rest) =
      digit (byte.toNat / 16) :: digit (byte.toNat % 16) :: digits rest :=
  rfl

theorem digits_halves {high low : Nat} (isHigh : high < 16) (isLow : low < 16) (rest : Bytes) :
    digits ((.ofNat high * 16 + .ofNat low) :: rest) = digit high :: digit low :: digits rest := by
  have value : (UInt8.ofNat high * 16 + UInt8.ofNat low).toNat = high * 16 + low := by
    rw [UInt8.toNat_add, UInt8.toNat_mul, UInt8.toNat_ofNat', UInt8.toNat_ofNat']
    simp only [UInt8.reduceToNat]
    omega
  have front : (high * 16 + low) / 16 = high := by omega
  have back : (high * 16 + low) % 16 = low := by omega
  rw [digits_cons, value, front, back]

theorem exists_digit_of_mem_digits {bytes : Bytes} {c : Char} (h : c ∈ digits bytes) :
    ∃ value < 16, c = digit value := by
  obtain ⟨byte, -, h⟩ := List.mem_flatMap.mp h
  simp only [pair, List.mem_cons, List.not_mem_nil, or_false] at h
  rcases h with rfl | rfl
  · exact ⟨_, high_lt byte, rfl⟩
  · exact ⟨_, low_lt byte, rfl⟩

theorem isAlphanum_digit : ∀ value < 16, (digit value).isAlphanum = true ∧ digit value ≠ 'x' := by
  decide

theorem isAlphanum_of_mem_digits {bytes : Bytes} {c : Char} (h : c ∈ digits bytes) :
    c.isAlphanum = true ∧ c ≠ 'x' := by
  obtain ⟨value, small, rfl⟩ := exists_digit_of_mem_digits h
  exact isAlphanum_digit value small

theorem length_digits (bytes : Bytes) : (digits bytes).length = 2 * bytes.length := by
  induction bytes with
  | nil => rfl
  | cons byte rest ih =>
    rw [digits_cons, List.length_cons, List.length_cons, ih, List.length_cons]
    omega

theorem toLower_digit : ∀ value < 16, (digit value).toLower = digit value := by
  decide

theorem map_toLower_digits (bytes : Bytes) : (digits bytes).map Char.toLower = digits bytes := by
  refine (List.map_congr_left fun c hc => ?_).trans (List.map_id _)
  obtain ⟨value, small, rfl⟩ := exists_digit_of_mem_digits hc
  exact toLower_digit value small

/-! ## Digits of either case -/

theorem digitValue?_eq_some_iff : ∀ code < 128, ∀ value < 16,
    digitValue? (.ofNat code) = some (.ofNat value) ↔
      (Char.ofNat code).toLower = digit value := by
  decide +kernel

theorem isAlphanum_of_mem_digitValue? : ∀ code < 256, ∀ value ∈ digitValue? (.ofNat code),
    code < 128 ∧ value.toNat < 16 ∧ (Char.ofNat code).isAlphanum = true := by
  have checked : ∀ code < 256, (digitValue? (.ofNat code)).all (fun value =>
      decide (code < 128 ∧ value.toNat < 16 ∧ (Char.ofNat code).isAlphanum = true)) = true := by
    decide +kernel
  intro code bound value isDigit
  have here := checked code bound
  rw [Option.mem_def.mp isDigit, Option.all_some] at here
  exact of_decide_eq_true here

theorem digitValue?_of_toLower {c : Char} {value : Nat} (small : value < 16)
    (lower : c.toLower = digit value) :
    String.utf8EncodeChar c = [.ofNat c.toNat] ∧ c.toNat < 128 ∧
      digitValue? (.ofNat c.toNat) = some (.ofNat value) := by
  have ascii : c.toNat < 128 := by
    by_cases upper : c.val ≥ 'A'.val ∧ c.val ≤ 'Z'.val
    · exact Nat.lt_of_le_of_lt (UInt32.le_iff_toNat_le.mp upper.2) (by decide)
    · have same : c.toLower = c := dif_neg upper
      rw [← same, lower]
      exact (by decide : ∀ value < 16, (digit value).toNat < 128) value small
  refine ⟨?_, ascii, ?_⟩
  · rw [String.utf8EncodeChar]
    exact if_pos (Nat.le_of_lt_succ ascii)
  · rw [digitValue?_eq_some_iff _ ascii _ small, Char.ofNat_toNat]
    exact lower

theorem decodePairs_of_map_toLower {text : List Char} {bytes : Bytes}
    (lower : text.map Char.toLower = digits bytes) (position : Nat) :
    decodePairs position (text.flatMap String.utf8EncodeChar) = .ok bytes := by
  induction bytes generalizing text position with
  | nil =>
    rw [List.map_eq_nil_iff.mp lower]
    rfl
  | cons byte rest ih =>
    rw [digits_cons] at lower
    obtain ⟨high, _, rfl, isHigh, behind⟩ := List.map_eq_cons_iff.mp lower
    obtain ⟨low, others, rfl, isLow, behind⟩ := List.map_eq_cons_iff.mp behind
    obtain ⟨highText, -, highValue⟩ := digitValue?_of_toLower (high_lt byte) isHigh
    obtain ⟨lowText, -, lowValue⟩ := digitValue?_of_toLower (low_lt byte) isLow
    simp only [List.flatMap_cons, highText, lowText, List.cons_append, List.nil_append,
      decodePairs, highValue, lowValue, ih behind, ofNat_halves]
    rfl

theorem exists_toLower_of_digitValue? {c : Char} {value : UInt8} (ascii : c.toNat < 128)
    (isDigit : digitValue? (.ofNat c.toNat) = some value) :
    ∃ n < 16, value = .ofNat n ∧ c.toLower = digit n := by
  have small := (isAlphanum_of_mem_digitValue? _ (by omega) _ isDigit).2.1
  rw [← UInt8.ofNat_toNat (x := value), digitValue?_eq_some_iff _ ascii _ small,
    Char.ofNat_toNat] at isDigit
  exact ⟨value.toNat, small, UInt8.ofNat_toNat.symm, isDigit⟩

theorem map_toLower_of_decodePairs {text : List Char} {bytes : Bytes} {position : Nat}
    (even : text.length % 2 = 0) (ascii : ∀ c ∈ text, c.toNat < 128)
    (read : decodePairs position (text.map fun c => .ofNat c.toNat) = .ok bytes) :
    text.map Char.toLower = digits bytes := by
  match text with
  | [] =>
    cases read
    rfl
  | [_] => cases even
  | high :: low :: others =>
    rw [List.length_cons, List.length_cons] at even
    rw [List.forall_mem_cons, List.forall_mem_cons] at ascii
    obtain ⟨highAscii, lowAscii, ascii⟩ := ascii
    rw [List.map_cons, List.map_cons, decodePairs] at read
    split at read
    · next isHigh isLow =>
      cases inside : decodePairs (position + 2) (others.map fun c => .ofNat c.toNat) with
      | error fault => simp only [inside, bind, Except.bind, reduceCtorEq] at read
      | ok rest =>
        rw [inside] at read
        cases read
        obtain ⟨_, highSmall, rfl, highLower⟩ := exists_toLower_of_digitValue? highAscii isHigh
        obtain ⟨_, lowSmall, rfl, lowLower⟩ := exists_toLower_of_digitValue? lowAscii isLow
        rw [digits_halves highSmall lowSmall, List.map_cons, List.map_cons, highLower, lowLower,
          map_toLower_of_decodePairs (by omega) ascii inside]
    · cases read
    · cases read

variable {text : List Char} {bytes : Bytes}

theorem isAscii_of_map_toLower (lower : text.map Char.toLower = digits bytes) : IsAscii text := by
  intro c hc
  obtain ⟨value, small, isDigit⟩ := exists_digit_of_mem_digits (lower ▸ List.mem_map_of_mem hc)
  rw [← String.length_utf8EncodeChar, (digitValue?_of_toLower small isDigit).1]
  rfl

theorem isAlphanum_of_map_toLower (lower : text.map Char.toLower = digits bytes) :
    ∀ c ∈ text, c.isAlphanum = true := by
  intro c hc
  obtain ⟨value, small, isDigit⟩ := exists_digit_of_mem_digits (lower ▸ List.mem_map_of_mem hc)
  obtain ⟨-, ascii, read⟩ := digitValue?_of_toLower small isDigit
  have alphanum := (isAlphanum_of_mem_digitValue? _ (by omega) _ read).2.2
  rwa [Char.ofNat_toNat] at alphanum

theorem length_of_map_toLower (lower : text.map Char.toLower = digits bytes) :
    text.length = 2 * bytes.length := by
  rw [← length_digits, ← lower, List.length_map]

theorem isSome_digitValue?_of_decodePairs {bytes decoded : Bytes} {position : Nat}
    (even : bytes.length % 2 = 0) (h : decodePairs position bytes = .ok decoded) :
    ∀ byte ∈ bytes, (digitValue? byte).isSome = true := by
  induction position, bytes using decodePairs.induct generalizing decoded with
  | case1 position high low rest highValue lowValue isLow isHigh ih =>
    rw [decodePairs, isHigh, isLow] at h
    cases read : decodePairs (position + 2) rest with
    | error fault =>
      simp only [read, bind, Except.bind, reduceCtorEq] at h
    | ok values =>
      rw [List.length_cons, List.length_cons] at even
      simp only [List.forall_mem_cons, isHigh, isLow, Option.isSome_some, true_and]
      exact ih (by omega) read
  | case2 position high low rest none =>
    rw [decodePairs, none] at h
    cases h
  | case3 position high low rest none other =>
    obtain ⟨value, isHigh⟩ := Option.ne_none_iff_exists'.mp other
    rw [decodePairs, isHigh, none] at h
    cases h
  | case4 bytes position short =>
    match bytes, short, even with
    | [], _, _ => exact List.forall_mem_nil _
    | high :: low :: rest, short, _ => exact (short high low rest rfl).elim

theorem lt_of_mem_ofText {text : String} (h : decode text = .ok bytes) :
    ∀ byte ∈ Bytes.ofText text, byte < 0x80 := by
  intro byte hb
  rw [decode] at h
  split_ifs at h with odd
  obtain ⟨value, isDigit⟩ := Option.isSome_iff_exists.mp
    (isSome_digitValue?_of_decodePairs (by omega) h byte hb)
  rw [← UInt8.ofNat_toNat (x := byte)] at isDigit
  exact UInt8.lt_iff_toNat_lt.mpr (isAlphanum_of_mem_digitValue? _ byte.toNat_lt _ isDigit).1

theorem decode_eq_ok_iff {text : String} :
    decode text = .ok bytes ↔ text.toList.map Char.toLower = digits bytes := by
  constructor
  · intro read
    obtain ⟨codes, ascii⟩ := Bytes.ofText_of_forall_lt (lt_of_mem_ofText read)
    rw [decode] at read
    split_ifs at read with odd
    rw [codes] at read odd
    rw [List.length_map] at odd
    exact map_toLower_of_decodePairs (by omega) ascii read
  · intro lower
    have length : (Bytes.ofText text).length = 2 * bytes.length := by
      rw [← String.ofList_toList (s := text), Bytes.length_ofText (isAscii_of_map_toLower lower),
        length_of_map_toLower lower]
    have odd : ¬(Bytes.ofText text).length % 2 = 1 := by omega
    rw [decode]
    simp only [if_neg odd]
    exact decodePairs_of_map_toLower lower 0

theorem toLower_eq_encode_iff {text : String} :
    text.toLower = encode bytes ↔ text.toList.map Char.toLower = digits bytes := by
  rw [← toList_encode, ← String.toList_map, String.toList_inj]
  exact Iff.rfl

theorem decode_encode (bytes : Bytes) : decode (encode bytes) = .ok bytes := by
  rw [decode_eq_ok_iff, toList_encode, map_toLower_digits]

end Text.Hex

end LedgerClient
