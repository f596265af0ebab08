import LedgerClient.Error
import LedgerClient.Json.Printer
import LedgerClient.Json.Reader
import LedgerClient.Text.Base64
import LedgerClient.Text.Utf8

/-!
Codecs: how values of a type are written as JSON and read from it. Reading goes through a value in
the order of its text and stops at the first fault; a part that is well-formed JSON but denotes no
value of its type keeps the reason.
-/

namespace LedgerClient

/-- Why JSON does not hold a value of the wanted type: its form, or what one of its texts denotes. -/
inductive DecodeFault where
  | malformed
  | rejected (cause : LedgerError)
  deriving DecidableEq

abbrev Decoded := Except DecodeFault

structure Codec (α : Type) where
  encode : α → Json
  decode : Json → Decoded α

namespace Codec

def ofOption {α : Type} : Option α → Decoded α
  | some value => .ok value
  | none => .error .malformed

def ofResult {α : Type} : Except LedgerError α → Decoded α
  | .ok value => .ok value
  | .error cause => .error (.rejected cause)

def string : Codec String where
  encode := .string
  decode
    | .string value => .ok value
    | _ => .error .malformed

def bool : Codec Bool where
  encode := .bool
  decode
    | .bool value => .ok value
    | _ => .error .malformed

def decodeInt (low high : Int) : Json → Decoded Int
  | .number value =>
    match value.toInt? with
    | some n => if low ≤ n ∧ n ≤ high then .ok n else .error .malformed
    | none => .error .malformed
  | _ => .error .malformed

def uint64 : Codec UInt64 where
  encode n := Json.ofNat n.toNat
  decode json := (fun n => .ofNat n.toNat) <$> decodeInt 0 18446744073709551615 json

def uint32 : Codec UInt32 where
  encode n := Json.ofNat n.toNat
  decode json := (fun n => .ofNat n.toNat) <$> decodeInt 0 4294967295 json

def int64 : Codec Int64 where
  encode n := Json.ofInt n.toInt
  decode json := Int64.ofInt <$> decodeInt (-9223372036854775808) 9223372036854775807 json

def text {α : Type} (write : α → String) (parse : String → Except LedgerError α) : Codec α where
  encode value := .string (write value)
  decode
    | .string value => ofResult (parse value)
    | _ => .error .malformed

def hexBytes : Codec Bytes where
  encode bytes := .string (Text.Hex.encode bytes)
  decode
    | .string value => ofOption (Text.Hex.decode value).toOption
    | _ => .error .malformed

def base64Bytes : Codec Bytes where
  encode bytes := .string (Text.Base64.encode bytes)
  decode
    | .string value => ofOption (Text.Base64.decode? value)
    | _ => .error .malformed

/-- A value that may be missing, which is written as null. -/
def optional {α : Type} (codec : Codec α) : Codec (Option α) where
  encode
    | some value => codec.encode value
    | none => .null
  decode
    | .null => .ok none
    | json => some <$> codec.decode json

def checkEnding : Json.Ending → Decoded Unit
  | .broken => .error .malformed
  | .closed | .counted => .ok ()

def list {α : Type} (codec : Codec α) : Codec (List α) where
  encode values := Json.ofItems (values.map codec.encode)
  decode
    | .array items ending => do
      let values ← items.mapM codec.decode
      checkEnding ending
      return values
    | _ => .error .malformed

def encodeText {α : Type} (codec : Codec α) (value : α) : String :=
  (codec.encode value).text

/-- Reads a value that takes up the whole of some JSON text. -/
def decodeSymbols {α : Type} (codec : Codec α) (symbols : Json.Symbols) : Decoded α :=
  let (json, complete) := Json.read symbols
  match codec.decode json with
  | .ok value => if complete then .ok value else .error .malformed
  | .error fault => .error fault

def decodeText {α : Type} (codec : Codec α) (text : String) : Decoded α :=
  codec.decodeSymbols (text.toList.map some)

def decodeBytes {α : Type} (codec : Codec α) (bytes : Bytes) : Decoded α :=
  codec.decodeSymbols (Text.chars bytes)

end Codec

end LedgerClient
