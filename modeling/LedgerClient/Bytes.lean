/-!
Byte strings: the UTF-8 bytes of a text, and numbers written with a fixed count of base-256
digits, most significant first (`bigEndian`) or last (`littleEndian`). A lead is found exactly where
it stands at the front.
-/

namespace LedgerClient

abbrev Bytes := List UInt8

namespace Bytes

/-- The UTF-8 bytes of a text; lengths of texts are counted in these. -/
def ofText (text : String) : Bytes :=
  text.toList.flatMap String.utf8EncodeChar

def toNatBigEndian (bytes : Bytes) : Nat :=
  bytes.foldl (fun value byte => value * 256 + byte.toNat) 0

def toNatLittleEndian (bytes : Bytes) : Nat :=
  bytes.foldr (fun byte value => byte.toNat + 256 * value) 0

/-- The lowest `count` base-256 digits of `value`, least significant first. -/
def littleEndian : (count : Nat) → (value : Nat) → Bytes
  | 0, _ => []
  | count + 1, value => UInt8.ofNat value :: littleEndian count (value / 256)

def bigEndian (count value : Nat) : Bytes :=
  (littleEndian count value).reverse

/-- What follows `lead` at the front of some bytes. -/
def afterLead? : (lead bytes : Bytes) → Option Bytes
  | [], bytes => some bytes
  | _ :: _, [] => none
  | a :: lead, b :: bytes => if a = b then afterLead? lead bytes else none

theorem afterLead?_eq_some_iff {lead bytes rest : Bytes} :
    afterLead? lead bytes = some rest ↔ bytes = lead ++ rest := by
  induction lead generalizing bytes with
  | nil => simp [afterLead?]
  | cons a lead ih =>
    cases bytes with
    | nil => simp [afterLead?]
    | cons b bytes => by_cases h : a = b <;> simp [afterLead?, h, ih, eq_comm]

@[simp] theorem length_littleEndian (count value : Nat) :
    (littleEndian count value).length = count := by
  induction count generalizing value with
  | zero => rfl
  | succ count ih => simp [littleEndian, ih]

@[simp] theorem length_bigEndian (count value : Nat) :
    (bigEndian count value).length = count := by
  simp [bigEndian]

end Bytes

end LedgerClient
