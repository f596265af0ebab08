import LedgerClient.LedgerId.Basic

/-!
Checksums of entity ids: five letters that depend on the text `shard.realm.num` and on the ledger.
The letters are the base-26 digits of a number below 26^5, most significant first.

A text is read as digits, the point as ten. The number combines its length modulo 5, the digit sums
of the even and of the odd places modulo 11, the value of the digits in base 31 modulo 26^3, and
the value in base 31 of the ledger's bytes followed by six zero bytes modulo 26^5.
-/

namespace LedgerClient

structure Checksum where
  value : Fin 11881376
  deriving DecidableEq

namespace Checksum

def digitModulus : UInt64 := 17576

/-- Modulus of the ledger's weighted sum and of the checksum. -/
def modulus : UInt64 := 11881376

def weight : UInt64 := 31

/-- Factor that spreads neighbouring sums over the whole range. -/
def multiplier : UInt64 := 1000003

/-- The digit a byte stands for: ten for the point, else the distance from the digit zero. -/
def digit (byte : UInt8) : UInt64 :=
  if byte = 0x2E then 10 else (byte - 0x30).toUInt64

structure DigitSums where
  weighted : UInt64 := 0
  even : UInt64 := 0
  odd : UInt64 := 0
  length : Nat := 0

def DigitSums.add (sums : DigitSums) (d : UInt64) : DigitSums where
  weighted := (weight * sums.weighted + d) % digitModulus
  even := if sums.length % 2 = 0 then (sums.even + d) % 11 else sums.even
  odd := if sums.length % 2 = 0 then sums.odd else (sums.odd + d) % 11
  length := sums.length + 1

def DigitSums.ofBytes (bytes : Bytes) : DigitSums :=
  bytes.foldl (fun sums byte => sums.add (digit byte)) {}

/-- The weighted sum over the ledger's bytes followed by six zero bytes. -/
def ledgerSum (ledger : LedgerId) : UInt64 :=
  (ledger.bytes ++ List.replicate 6 0).foldl
    (fun (sum : UInt64) (byte : UInt8) => (weight * sum + byte.toUInt64) % modulus) 0

def generate (entity : String) (ledger : LedgerId) : Checksum :=
  let sums := DigitSums.ofBytes (Bytes.ofText entity)
  let combined :=
    (((.ofNat (sums.length % 5) * 11 + sums.even) * 11 + sums.odd) * digitModulus + sums.weighted +
      ledgerSum ledger) % modulus
  ⟨Fin.ofNat _ ((combined * multiplier) % modulus).toNat⟩

/-- The five letters, most significant first. -/
def letters (checksum : Checksum) : List Char :=
  let n := checksum.value.val
  [n / 456976, n / 17576, n / 676, n / 26, n].map fun place =>
    Char.ofNat ('a'.toNat + place % 26)

def text (checksum : Checksum) : String :=
  String.ofList checksum.letters

def ofLetterValues (values : List Nat) : Checksum :=
  ⟨Fin.ofNat _ (values.foldl (fun n value => n * 26 + value) 0)⟩

end Checksum

end LedgerClient
