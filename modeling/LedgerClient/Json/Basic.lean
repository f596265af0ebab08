/-!
JSON values as they are read. Reading never fails as a whole: it returns what stands before the
first fault of the text and marks where the fault is, so that whoever takes the value apart meets
faults in the order of the text.
-/

namespace LedgerClient

/-- How the entries of an array or an object end: at the closing bracket, at a fault of the text, or
as part of a finished tree, whose entries are counted beforehand. -/
inductive Json.Ending where
  | closed
  | broken
  | counted
  deriving DecidableEq

/-- A number as it is written. Without fraction and exponent it is an integer, except for the
negative zero, which counts as a decimal in every use. -/
inductive Json.Number where
  | integer (negative : Bool) (magnitude : Nat)
  | decimal (negative : Bool) (whole fraction : List Char) (exponent : Int)
  deriving DecidableEq

inductive Json where
  | null
  | bool (value : Bool)
  | number (value : Json.Number)
  | string (value : String)
  | array (items : List Json) (ending : Json.Ending)
  | object (members : List (String × Json)) (ending : Json.Ending)
  | unreadable

namespace Json

/-- Arrays and objects can stand inside each other this deep. -/
def maxDepth : Nat := 127

/-- The integer that a number denotes, if it is written as one. -/
def Number.toInt? : Number → Option Int
  | .integer false magnitude => some magnitude
  | .integer true 0 => none
  | .integer true magnitude => some (-magnitude)
  | .decimal .. => none

/-- The integer that a number denotes, if it has 64 bits, signed or not. -/
def Number.toWord? (number : Number) : Option Int :=
  number.toInt?.filter fun n => -9223372036854775808 ≤ n ∧ n ≤ 18446744073709551615

def ofNat (n : Nat) : Json :=
  .number (.integer false n)

def ofInt (n : Int) : Json :=
  .number (.integer (n < 0) n.natAbs)

def ofMembers (members : List (String × Json)) : Json :=
  .object members .closed

def ofItems (items : List Json) : Json :=
  .array items .closed

theorem toInt?_ofInt (n : Int) : Number.toInt? (.integer (n < 0) n.natAbs) = some n := by
  cases n with
  | ofNat k => rfl
  | negSucc k =>
    rw [decide_eq_true (Int.negSucc_lt_zero k)]
    rfl

end Json

end LedgerClient
