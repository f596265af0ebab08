import LedgerClient.Proofs.Key.Detection
import LedgerClient.Proofs.Text.Hex
import LedgerClient.Proofs.Text.Split

/-! Public keys are read from their written form, a subject public key in hexadecimal. -/

namespace LedgerClient

theorem Text.Hex.ne_mark_append {text : List Char} {bytes : Bytes}
    (lower : text.map Char.toLower = digits bytes) (rest : List Char) :
    text ≠ ['0', 'x'] ++ rest := by
  rintro rfl
  have mark : 'x' ∈ digits bytes := by
    rw [← lower]
    simp
  exact (isAlphanum_of_mem_digits mark).2 rfl

theorem Text.Hex.dropLead_digits (bytes : Bytes) :
    dropLead ['0', 'x'] (digits bytes) = digits bytes :=
  dropLead_of_ne (ne_mark_append (map_toLower_digits bytes))

theorem decodeKeyText_eq_ok_iff {text : String} {bytes : Bytes} :
    decodeKeyText text = .ok bytes ↔
      (Text.dropLead ['0', 'x'] text.toList).map Char.toLower = Text.Hex.digits bytes := by
  rw [← String.toList_ofList (l := Text.dropLead ['0', 'x'] text.toList), ← Text.Hex.decode_eq_ok_iff,
    decodeKeyText]
  cases Text.Hex.decode (String.ofList (Text.dropLead ['0', 'x'] text.toList)) with
  | error fault => simp
  | ok found => simp

theorem decodeKeyText_encode (bytes : Bytes) :
    decodeKeyText (Text.Hex.encode bytes) = .ok bytes := by
  rw [decodeKeyText_eq_ok_iff, Text.Hex.toList_encode, Text.Hex.dropLead_digits,
    Text.Hex.map_toLower_digits]

theorem decodeKeyText_marked (bytes : Bytes) :
    decodeKeyText ("0x" ++ Text.Hex.encode bytes) = .ok bytes := by
  have marked : ("0x" ++ Text.Hex.encode bytes).toList = ['0', 'x'] ++ Text.Hex.digits bytes := by
    rw [String.toList_append, Text.Hex.toList_encode]
    rfl
  rw [decodeKeyText_eq_ok_iff, marked, Text.dropLead_append, Text.Hex.map_toLower_digits]

namespace PublicKey

theorem ofBytes_derBytes (key : PublicKey) : ofBytes key.derBytes = .ok key :=
  KeyReader.ofBytes_any_eq_ok_iff.mpr
    (KeyReader.ofBytes_only_eq_ok_iff.mpr ⟨rfl, .inr key.ofDer?_derBytes⟩)

theorem parse_text (key : PublicKey) : parse key.text = .ok key := by
  rw [parse, text, decodeKeyText_encode]
  exact key.ofBytes_derBytes

end PublicKey

end LedgerClient
