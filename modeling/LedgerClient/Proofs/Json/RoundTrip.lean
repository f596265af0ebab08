import LedgerClient.Json.Record
import LedgerClient.Proofs.Json.Codec
import LedgerClient.Proofs.Json.Text
import LedgerClient.Proofs.Text.Utf8

/-! Values that are written as bytes and read again. The reader sees the written JSON up to the nesting
limit; a value whose JSON stays within it is restored. -/

namespace LedgerClient

namespace Codec

variable {α : Type} {codec : Codec α} {value : α}

theorem decodeBytes_ofText (codec : Codec α) (text : String) :
    codec.decodeBytes (Bytes.ofText text) = codec.decodeText text := by
  rw [decodeBytes, Text.chars_ofText, decodeText]

theorem decodeText_encodeText (written : (codec.encode value).Written) :
    codec.decodeText (codec.encodeText value) =
      codec.decode ((codec.encode value).upTo Json.maxDepth) := by
  rw [decodeText, encodeText, Json.text, String.toList_ofList, decodeSymbols, written.read_print_upTo]
  dsimp only
  cases codec.decode ((codec.encode value).upTo Json.maxDepth) with
  | ok value => rfl
  | error fault => rfl

theorem decodeBytes_encodeText (written : (codec.encode value).Written) :
    codec.decodeBytes (Bytes.ofText (codec.encodeText value)) =
      codec.decode ((codec.encode value).upTo Json.maxDepth) := by
  rw [decodeBytes_ofText, decodeText_encodeText written]

theorem Restores.decode_encode (restores : codec.Restores value)
    (deep : (codec.encode value).depth ≤ Json.maxDepth) :
    codec.decode (codec.encode value) = .ok value :=
  restores.decode deep _ restores.written.presents_self

end Codec

theorem Record.decode_error {α : Type} {record : Record α} {slot : Slot α} {name : String}
    {json : Json} {fault : DecodeFault} (found : record.slots.find? (·.name == name) = some slot)
    (read : slot.read json record.initial = .error fault) (members : List (String × Json))
    (ending : Json.Ending) :
    record.codec.decode (.object ((name, json) :: members) ending) = .error fault := by
  show record.decodeMembers ((name, json) :: members) ending = _
  rw [decodeMembers, readMembers, found]
  dsimp only
  rw [read]
  rfl

end LedgerClient
