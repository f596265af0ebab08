import LedgerClient.Json.Basic
import LedgerClient.Text.Decimal
import LedgerClient.Text.Shortest

/-!
Numbers that are no integers of 64 bits. Their value is the double that reading the leading digits
as one 64-bit integer and scaling it by a power of ten gives; they are written with the fewest
digits that read back.
-/

namespace LedgerClient.Json.Number

/-- Takes digits as long as the value stays below 2^64; returns it with the digits left. -/
def takeDigits (value : Nat) : List Char → Nat × List Char
  | [] => (value, [])
  | c :: rest =>
    let next := value * 10 + Text.digitValue c
    if next < UInt64.size then takeDigits next rest else (value, c :: rest)

/-- The value of the leading digits and the power of ten to scale it by. -/
def significand (whole fraction : List Char) (exponent : Int) : Nat × Int :=
  let (value, dropped) := takeDigits 0 whole
  let (value, unread) := takeDigits value fraction
  (value, exponent + dropped.length - (fraction.length - unread.length : Nat))

/-- Multiplies by a power of ten, in several steps below `10 ^ -308`; none on overflow. -/
def scale : (steps : Nat) → Float → (exponent : Int) → Option Float
  | 0, value, _ => some value
  | steps + 1, value, exponent =>
    if 0 ≤ exponent then
      if value == 0 then some value
      else if exponent ≤ 308 then
        let scaled := value * Float.ofScientific 1 false exponent.toNat
        if scaled.isInf then none else some scaled
      else none
    else if -308 ≤ exponent then some (value / Float.ofScientific 1 false (-exponent).toNat)
    else if value == 0 then some value
    else scale steps (value / 1e308) (exponent + 308)

/-- The double that a number denotes; none beyond the largest one. -/
def float? (number : Number) : Option Float :=
  let (negative, whole, fraction, exponent) :=
    match number with
    | integer negative magnitude => (negative, (toString magnitude).toList, [], 0)
    | decimal negative whole fraction exponent => (negative, whole, fraction, exponent)
  let (value, exponent) := significand whole fraction exponent
  (scale 8 value.toUInt64.toFloat exponent).map fun value => if negative then -value else value

def exponentText (exponent : Int) : List Char :=
  'e' :: (if exponent < 0 then '-' else '+') :: (toString exponent.natAbs).toList

/-- Digits with a point, where the first digit has weight `10 ^ (point - 1)`; an exponent is written
for numbers from `10 ^ 16` on and below `10 ^ -5`. -/
def decimalText (digits : List Char) (point : Int) : List Char :=
  let length : Int := digits.length
  if length ≤ point ∧ point ≤ 16 then
    digits ++ List.replicate (point - length).toNat '0' ++ ['.', '0']
  else if 0 < point ∧ point ≤ 16 then
    digits.take point.toNat ++ '.' :: digits.drop point.toNat
  else if -5 < point ∧ point ≤ 0 then
    '0' :: '.' :: List.replicate (-point).toNat '0' ++ digits
  else
    let exponent := exponentText (point - 1)
    match digits with
    | first :: second :: rest => first :: '.' :: second :: rest ++ exponent
    | _ => digits ++ exponent

def bitsText (bits : UInt64) : List Char :=
  let fraction := (bits &&& 0xFFFFFFFFFFFFF).toNat
  let biased := (bits >>> 52 &&& 0x7FF).toNat
  let sign := if bits >>> 63 = 0 then [] else ['-']
  if fraction = 0 ∧ biased = 0 then sign ++ ['0', '.', '0']
  else
    let (digits, exponent) :=
      if biased = 0 then Text.shortest fraction (-1074) false
      else Text.shortest (0x10000000000000 + fraction) (biased - 1075 : Int) (fraction = 0 && 1 < biased)
    let digits := (toString digits).toList
    sign ++ decimalText digits (exponent + digits.length)

def floatText (number : Number) : String :=
  match number.float? with
  | some value => String.ofList (bitsText value.toBits)
  | none => "null"

/-- Whether a number is an integer of 64 bits, signed or not, or a finite double. -/
def isFinite (number : Number) : Bool :=
  number.toWord?.isSome || number.float?.isSome

end LedgerClient.Json.Number
