import LedgerClient.Proofs.Json.Codec
import LedgerClient.Json.Scalar
import LedgerClient.Proofs.Text.Hex

/-! Ledger ids in their written form. No text is both the name of a network and hexadecimal, so every id
is read from its text, unless it is empty. A named network is read from its digits too and written by its
name; all other ids are written as they were read, in lower case. -/

namespace LedgerClient

theorem LedgerId.mem_names_of_ofName? {text : String} {ledger : LedgerId}
    (named : ofName? text = some ledger) : text ∈ ["mainnet", "testnet", "previewnet"] := by
  by_contra other
  simp only [List.mem_cons, List.not_mem_nil, or_false, not_or] at other
  simp [ofName?, other] at named

theorem LedgerId.ofName?_of_map_toLower {text : String} {bytes : Bytes}
    (lower : text.toList.map Char.toLower = Text.Hex.digits bytes) : ofName? text = none := by
  -- No hexadecimal text is the name of a network: all names have an n.
  have noN : ∀ value < 16, Text.Hex.digit value ≠ 'n' := by decide
  have absent : 'n' ∉ text.toList.map Char.toLower := by
    rw [lower]
    intro found
    obtain ⟨value, small, same⟩ := Text.Hex.exists_digit_of_mem_digits found
    exact noN value small same.symm
  have all : ∀ name ∈ ["mainnet", "testnet", "previewnet"],
      'n' ∈ name.toList.map Char.toLower := by decide
  rw [Option.eq_none_iff_forall_ne_some]
  intro ledger named
  exact absent (all text (mem_names_of_ofName? named))

namespace LedgerId

theorem parse_eq_ok_iff {text : String} {ledger : LedgerId} :
    parse text = .ok ledger ↔ ofName? text = some ledger ∨
      text.toList.map Char.toLower = Text.Hex.digits ledger.bytes ∧ ledger.bytes ≠ [] := by
  rw [← Text.Hex.decode_eq_ok_iff, parse]
  constructor
  · intro h
    split at h
    · next named =>
      cases h
      exact .inl named
    · split at h
      · cases h
      · cases h
      · next bytes nonempty decoded =>
        cases h
        exact .inr ⟨decoded, nonempty⟩
  · rintro (named | ⟨decoded, nonempty⟩)
    · rw [named]
    · rw [ofName?_of_map_toLower (Text.Hex.decode_eq_ok_iff.mp decoded), decoded]
      obtain ⟨first, rest, same⟩ := List.exists_cons_of_ne_nil nonempty
      obtain ⟨bytes⟩ := ledger
      obtain rfl : bytes = first :: rest := same
      rfl

theorem parse_text {ledger : LedgerId} (nonempty : ledger.bytes ≠ []) :
    parse ledger.text = .ok ledger := by
  rw [parse_eq_ok_iff, text]
  cases named : ledger.name? with
  | some name => exact .inl (ofName?_of_name? named)
  | none =>
    refine .inr ⟨?_, nonempty⟩
    rw [Option.getD_none, Text.Hex.toList_encode, Text.Hex.map_toLower_digits]

theorem codec_restores {ledger : LedgerId} (nonempty : ledger.bytes ≠ []) :
    codec.Restores ledger :=
  Codec.restores_text (parse_text nonempty)

theorem parse_text_of_empty {ledger : LedgerId} (empty : ledger.bytes = []) :
    parse ledger.text = .error (.parse "" .emptyLedger) := by
  obtain ⟨bytes⟩ := ledger
  obtain rfl : bytes = [] := empty
  rfl

theorem text_injective : Function.Injective text := by
  intro first second same
  have read := congrArg parse same
  by_cases firstEmpty : first.bytes = []
  · by_cases secondEmpty : second.bytes = []
    · obtain ⟨bytes⟩ := first
      obtain ⟨others⟩ := second
      exact congrArg mk (firstEmpty.trans secondEmpty.symm)
    · rw [parse_text_of_empty firstEmpty, parse_text secondEmpty] at read
      cases read
  · by_cases secondEmpty : second.bytes = []
    · rw [parse_text firstEmpty, parse_text_of_empty secondEmpty] at read
      cases read
    · rw [parse_text firstEmpty, parse_text secondEmpty] at read
      exact Except.ok.inj read

variable {input : String} {ledger : LedgerId}

theorem bytes_ne_nil_of_parse (read : parse input = .ok ledger) : ledger.bytes ≠ [] := by
  rcases parse_eq_ok_iff.mp read with named | ⟨-, nonempty⟩
  · intro empty
    obtain ⟨bytes⟩ := ledger
    obtain rfl : bytes = [] := empty
    cases name?_of_ofName? named
  · exact nonempty

theorem isAscii_of_parse (read : parse input = .ok ledger) : Text.IsAscii input.toList := by
  rcases parse_eq_ok_iff.mp read with named | ⟨lower, -⟩
  · have names : ∀ name ∈ ["mainnet", "testnet", "previewnet"],
        name.toList.all (·.utf8Size == 1) = true := by decide +kernel
    intro c hc
    exact beq_iff_eq.mp (List.all_eq_true.mp (names input (mem_names_of_ofName? named)) c hc)
  · exact Text.Hex.isAscii_of_map_toLower lower

theorem parse_eq_ok_iff_text :
    parse input = .ok ledger ↔
      ledger.bytes ≠ [] ∧
        (input = ledger.text ∨ input.toLower = Text.Hex.encode ledger.bytes) := by
  constructor
  · intro read
    refine ⟨bytes_ne_nil_of_parse read, ?_⟩
    rcases parse_eq_ok_iff.mp read with named | ⟨lower, -⟩
    · left
      rw [text, name?_of_ofName? named, Option.getD_some]
    · exact .inr (Text.Hex.toLower_eq_encode_iff.mpr lower)
  · rintro ⟨nonempty, rfl | lower⟩
    · exact parse_text nonempty
    · exact parse_eq_ok_iff.mpr (.inr ⟨Text.Hex.toLower_eq_encode_iff.mp lower, nonempty⟩)

theorem text_of_parse (read : parse input = .ok ledger) :
    ledger.text = ledger.name?.getD input.toLower := by
  rw [text]
  cases nameless : ledger.name? with
  | some name => rfl
  | none =>
    rcases parse_eq_ok_iff.mp read with named | ⟨lower, -⟩
    · rw [name?_of_ofName? named] at nameless
      cases nameless
    · exact (Text.Hex.toLower_eq_encode_iff.mpr lower).symm

/-- Names and hexadecimal are one notation. Every id but the empty one is read from its text and from
its digits in either case, and from nothing else; the text of the empty id is refused. What was read
is written by the name of its network, and otherwise as the lower case of what was read, so that texts
stand for one id exactly if they are written back alike. -/
theorem names_and_hex_unambiguous :
    (∀ ledger : LedgerId, ledger.bytes ≠ [] → parse ledger.text = .ok ledger) ∧
      (∀ ledger : LedgerId, ledger.bytes = [] →
        parse ledger.text = .error (.parse "" .emptyLedger)) ∧
      (∀ (input : String) (ledger : LedgerId),
        parse input = .ok ledger ↔
          ledger.bytes ≠ [] ∧
            (input = ledger.text ∨ input.toLower = Text.Hex.encode ledger.bytes)) ∧
      (∀ (input : String) (ledger : LedgerId), parse input = .ok ledger →
        ledger.bytes ≠ [] ∧ Text.IsAscii input.toList ∧
          ledger.text =
            if ledger.bytes = [0] then "mainnet"
            else if ledger.bytes = [1] then "testnet"
            else if ledger.bytes = [2] then "previewnet"
            else input.toLower) ∧
      (parse "mainnet" = .ok mainnet ∧ parse "00" = .ok mainnet) ∧
      ∀ (input other : String) (first second : LedgerId),
        parse input = .ok first → parse other = .ok second →
          (first = second ↔ first.text = second.text) := by
  refine ⟨fun ledger nonempty => ?_, fun ledger empty => ?_, fun input ledger => ?_,
    fun input ledger read => ⟨?_, ?_, ?_⟩, ⟨rfl, ?_⟩, fun input other first second _ _ => ?_⟩
  · exact parse_text nonempty
  · exact parse_text_of_empty empty
  · exact parse_eq_ok_iff_text
  · exact bytes_ne_nil_of_parse read
  · exact isAscii_of_parse read
  · rw [text_of_parse read, name?_getD]
  · decide +kernel
  · exact text_injective.eq_iff.symm

theorem names_and_hex_unambiguous_mixed_case :
    (⟨[0, 255]⟩ : LedgerId).bytes ≠ [] ∧ (⟨[]⟩ : LedgerId).bytes = [] ∧
      parse "00Ff" = .ok ⟨[0, 255]⟩ ∧ parse "02" = .ok previewnet ∧
      parse (text ⟨[0, 255]⟩) = .ok ⟨[0, 255]⟩ ∧
      parse (text ⟨[]⟩) = .error (.parse "" .emptyLedger) ∧
      text ⟨[0, 255]⟩ = "00Ff".toLower ∧ text previewnet = "previewnet" ∧
      (⟨[0, 255]⟩ = previewnet ↔ text ⟨[0, 255]⟩ = previewnet.text) := by
  obtain ⟨reads, refuses, -, shows, -, tells⟩ := names_and_hex_unambiguous
  have mixed : parse "00Ff" = .ok ⟨[0, 255]⟩ := by decide +kernel
  have named : parse "02" = .ok previewnet := by decide +kernel
  refine ⟨by decide, rfl, mixed, named, ?_, ?_, ?_, ?_, ?_⟩
  · exact reads _ (by decide)
  · exact refuses _ rfl
  · exact (shows _ _ mixed).2.2
  · exact (shows _ _ named).2.2
  · exact tells _ _ _ _ mixed named

end LedgerId

end LedgerClient
