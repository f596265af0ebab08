import LedgerClient.Json.Record
import LedgerClient.Json.Scalar

/-!
What every kind of operation says about its own data: how it is written, which ids it holds, and
which calls change it.
-/

namespace LedgerClient

/-- The rules of one kind of operation, with data `D` changed by calls `C`. -/
structure OperationData (D C : Type) where
  record : Record D
  /-- The data of a new operation. -/
  new : D := record.initial
  /-- All ids that can carry a checksum, in the order in which they are validated. -/
  checkedIds : D → List CheckedId
  /-- Rules between the fields, checked when the operation is executed. -/
  validate : D → Except LedgerError Unit := fun _ => .ok ()
  /-- The field that a call sets, as errors name it. -/
  field : C → String
  apply : C → D → Except LedgerError D

/-- What an optional id adds to the ids of some data. -/
def checkedOf {α : Type} (checked : α → CheckedId) (id : Option α) : List CheckedId :=
  id.toList.map checked

def Duration.checkWhole (d : Duration) (subject : String) : Except LedgerError Unit :=
  if d.isWholeSeconds then .ok () else .error (.invalidArgument (.fractionalSeconds subject d))

/-- Accepts spans over which a transaction may be valid: whole seconds, 1 to 180 of them. -/
def Duration.checkValid (d : Duration) : Except LedgerError Unit := do
  d.checkWhole "transaction valid duration"
  if 1 ≤ d.seconds ∧ d.seconds ≤ 180 then return ()
  else throw (.invalidArgument (.validDurationRange d))

/-- Accepts spans after which something may be renewed. -/
def Duration.checkRenewal (d : Duration) : Except LedgerError Unit :=
  d.checkWhole "auto renew period"

end LedgerClient
