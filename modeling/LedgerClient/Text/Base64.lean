import LedgerClient.Bytes

/-!
Base64 text of byte strings, in the alphabet with `+` and `/`. Groups of three bytes are written as
four symbols of six bits; the last group is filled up with `=`. The reader also takes a last group
with fewer `=` or none, but its unused bits must be zero.
-/

namespace LedgerClient.Text.Base64

def symbol (value : Nat) : Char :=
  if value < 26 then Char.ofNat ('A'.toNat + value)
  else if value < 52 then Char.ofNat ('a'.toNat + (value - 26))
  else if value < 62 then Char.ofNat ('0'.toNat + (value - 52))
  else if value = 62 then '+' else '/'

def symbolValue? (c : Char) : Option Nat :=
  if 'A' ≤ c ∧ c ≤ 'Z' then some (c.toNat - 'A'.toNat)
  else if 'a' ≤ c ∧ c ≤ 'z' then some (c.toNat - 'a'.toNat + 26)
  else if '0' ≤ c ∧ c ≤ '9' then some (c.toNat - '0'.toNat + 52)
  else if c = '+' then some 62
  else if c = '/' then some 63
  else none

def encodeGroups : Bytes → List Char
  | [] => []
  | [a] => [symbol (a.toNat / 4), symbol (a.toNat % 4 * 16), '=', '=']
  | [a, b] =>
    [symbol (a.toNat / 4), symbol (a.toNat % 4 * 16 + b.toNat / 16), symbol (b.toNat % 16 * 4), '=']
  | a :: b :: c :: rest =>
    symbol (a.toNat / 4) :: symbol (a.toNat % 4 * 16 + b.toNat / 16) ::
      symbol (b.toNat % 16 * 4 + c.toNat / 64) :: symbol (c.toNat % 64) :: encodeGroups rest

def encode (bytes : Bytes) : String :=
  String.ofList (encodeGroups bytes)

/-- The byte of two symbols, whose unused low bits must be zero. -/
def decodeOne (a b : Char) : Option Bytes := do
  let a ← symbolValue? a
  let b ← symbolValue? b
  guard (b % 16 = 0)
  some [.ofNat (a * 4 + b / 16)]

def decodeTwo (a b c : Char) : Option Bytes := do
  let a ← symbolValue? a
  let b ← symbolValue? b
  let c ← symbolValue? c
  guard (c % 4 = 0)
  some [.ofNat (a * 4 + b / 16), .ofNat (b % 16 * 16 + c / 4)]

def decodeThree (a b c d : Char) : Option Bytes := do
  let a ← symbolValue? a
  let b ← symbolValue? b
  let c ← symbolValue? c
  let d ← symbolValue? d
  some [.ofNat (a * 4 + b / 16), .ofNat (b % 16 * 16 + c / 4), .ofNat (c % 4 * 64 + d)]

def decodeGroups : List Char → Option Bytes
  | [] => some []
  | [a, b] => decodeOne a b
  | [a, b, '='] => decodeOne a b
  | [a, b, '=', '='] => decodeOne a b
  | [a, b, c] => decodeTwo a b c
  | [a, b, c, '='] => decodeTwo a b c
  | a :: b :: c :: d :: rest => do
    let group ← decodeThree a b c d
    let bytes ← decodeGroups rest
    some (group ++ bytes)
  | _ => none

def decode? (text : String) : Option Bytes :=
  decodeGroups text.toList

end LedgerClient.Text.Base64
