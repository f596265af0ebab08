import LedgerClient.Error

/-!
Reading checksums: five lower-case letters.
-/

namespace LedgerClient.Checksum

def isLetter (byte : UInt8) : Bool :=
  0x61 ≤ byte && byte ≤ 0x7A

/-- Reads exactly five lower-case letters. -/
def parse (input : String) : Except LedgerError Checksum :=
  let bytes := Bytes.ofText input
  if bytes.length ≠ 5 then .error (.parse input .checksumLength)
  else if bytes.all isLetter then
    .ok (ofLetterValues (bytes.map fun byte => (byte - 0x61).toNat))
  else .error (.parse input .checksumLetters)

end LedgerClient.Checksum
