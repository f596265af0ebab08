import LedgerClient.Error

/-!
Comparing the checksum that an id carries with the one that the ledger asks for. Ids without a
checksum are always accepted.
-/

namespace LedgerClient

/-- The part of an id that its checksum covers, and the checksum it carries. -/
structure CheckedId where
  shard : UInt64
  realm : UInt64
  num : UInt64
  checksum : Option Checksum
  deriving DecidableEq

namespace CheckedId

def text (id : CheckedId) : String :=
  toString id.shard.toNat ++ "." ++ toString id.realm.toNat ++ "." ++ toString id.num.toNat

/-- Accepts an id without checksum, or with the one generated for the ledger. -/
def validate (id : CheckedId) (ledger : LedgerId) : Except LedgerError Unit :=
  match id.checksum with
  | none => .ok ()
  | some actual =>
    let expected := Checksum.generate id.text ledger
    if expected = actual then .ok () else .error (.checksumMismatch id.text expected actual ledger)

theorem validate_of_carried {id : CheckedId} {carried : Checksum} (h : id.checksum = some carried)
    (ledger : LedgerId) :
    id.validate ledger =
      if Checksum.generate id.text ledger = carried then .ok ()
      else
        .error (.checksumMismatch id.text (Checksum.generate id.text ledger) carried ledger) := by
  rw [validate, h]

/-- Validates ids in their order, up to the first one that is refused. -/
def validateAll (ids : List CheckedId) (ledger : LedgerId) : Except LedgerError Unit :=
  ids.forM (validate · ledger)

end CheckedId

end LedgerClient
