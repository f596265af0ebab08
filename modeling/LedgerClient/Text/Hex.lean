import LedgerClient.Bytes

/-!
Hexadecimal text of byte strings. Bytes are written as two lower-case digits, high half first; both
cases are read. The reader sees the UTF-8 bytes of the text, so it reports a byte, shown as the
Latin-1 character of that number between quotes.
-/

namespace LedgerClient.Text

inductive HexFault where
  | oddLength
  | invalidByte (byte : UInt8) (position : Nat)
  deriving DecidableEq

namespace Hex

def digit (value : Nat) : Char :=
  Char.ofNat (if value < 10 then '0'.toNat + value else 'a'.toNat + (value - 10))

def pair (byte : UInt8) : List Char :=
  [digit (byte.toNat / 16), digit (byte.toNat % 16)]

def encode (bytes : Bytes) : String :=
  String.ofList (bytes.flatMap pair)

/-- The value of a digit of either case, given as its character code. -/
def digitValue? (byte : UInt8) : Option UInt8 :=
  if 0x30 ≤ byte && byte ≤ 0x39 then some (byte - 0x30)
  else if 0x61 ≤ byte && byte ≤ 0x66 then some (byte - 0x61 + 10)
  else if 0x41 ≤ byte && byte ≤ 0x46 then some (byte - 0x41 + 10)
  else none

/-- Reads pairs of digits; `position` counts the bytes already read. -/
def decodePairs (position : Nat) : Bytes → Except HexFault Bytes
  | high :: low :: rest =>
    match digitValue? high, digitValue? low with
    | some highValue, some lowValue => do
      let bytes ← decodePairs (position + 2) rest
      pure ((highValue * 16 + lowValue) :: bytes)
    | none, _ => .error (.invalidByte high position)
    | _, none => .error (.invalidByte low (position + 1))
  | _ => .ok []

/-- Reads hexadecimal text; an odd count of bytes is reported before any bad digit. -/
def decode (text : String) : Except HexFault Bytes :=
  let bytes := Bytes.ofText text
  if bytes.length % 2 = 1 then .error .oddLength else decodePairs 0 bytes

end Hex

/-- A Latin-1 character between single quotes, escaped unless it is printable. -/
def quoteLatin1 (byte : UInt8) : String :=
  let body :=
    if byte == 0 then "\\0"
    else if byte == 9 then "\\t"
    else if byte == 10 then "\\n"
    else if byte == 13 then "\\r"
    else if byte == 0x27 then "\\'"
    else if byte == 0x5C then "\\\\"
    else if byte < 0x20 || (0x7F ≤ byte && byte ≤ 0xA0) || byte == 0xAD then
      "\\u\x7b" ++ String.ofList (Nat.toDigits 16 byte.toNat) ++ "\x7d"
    else String.singleton (Char.ofNat byte.toNat)
  "'" ++ body ++ "'"

def HexFault.message : HexFault → String
  | .oddLength => "Odd number of digits"
  | .invalidByte byte position =>
    "Invalid character " ++ quoteLatin1 byte ++ " at position " ++ toString position

end LedgerClient.Text
