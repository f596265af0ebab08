import LedgerClient.Error

/-!
Reading ledger ids: a network name, or a non-empty byte string in hexadecimal.
-/

namespace LedgerClient.LedgerId

def parse (input : String) : Except LedgerError LedgerId :=
  match ofName? input with
  | some ledger => .ok ledger
  | none =>
    match Text.Hex.decode input with
    | .error fault => .error (.parse input (.hex fault))
    | .ok [] => .error (.parse input .emptyLedger)
    | .ok bytes => .ok ⟨bytes⟩

end LedgerClient.LedgerId
