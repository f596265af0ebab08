import LedgerClient.EntityId

/-!
Ids of single non-fungible tokens: a token id and a serial number, written with `/` between them
and read with `/` or `@`.
-/

namespace LedgerClient

structure NftId where
  token : TokenId
  serial : UInt64
  deriving DecidableEq

namespace NftId

def text (id : NftId) : String :=
  id.token.text ++ "/" ++ toString id.serial.toNat

def textWithChecksum (id : NftId) (ledger : LedgerId) : String :=
  id.token.textWithChecksum ledger ++ "/" ++ toString id.serial.toNat

/-- Reads an id, split at its last separator; the serial is read before the token. -/
def parse (input : String) : Except LedgerError NftId :=
  match Text.splitLast (fun c => c == '/' || c == '@') input.toList with
  | none => .error (.parse input .nftShape)
  | some (token, serial) => do
    let serial ← parseComponent input serial
    let token ← EntityId.parse (String.ofList token)
    return ⟨token, serial⟩

def checked (id : NftId) : CheckedId :=
  id.token.checked

end NftId

end LedgerClient
