/-!
Decimal numbers of a bounded range. Digits are ASCII; the reader goes from left to right and stops
at the first fault, so a number that is already too large is reported before a later character that
is no digit.
-/

namespace LedgerClient.Text

inductive NumberFault where
  | empty
  | invalidDigit
  | tooLarge
  | tooSmall
  deriving DecidableEq

def NumberFault.message : NumberFault → String
  | .empty => "cannot parse integer from empty string"
  | .invalidDigit => "invalid digit found in string"
  | .tooLarge => "number too large to fit in target type"
  | .tooSmall => "number too small to fit in target type"

def digitValue (c : Char) : Nat :=
  c.toNat - '0'.toNat

def digitsValue (digits : List Char) : Nat :=
  digits.foldl (fun value c => value * 10 + digitValue c) 0

/-- Reads a magnitude of at most `limit`, reporting `overflow` beyond it. -/
def readMagnitude (limit : Nat) (overflow : NumberFault) :
    (value : Nat) → List Char → Except NumberFault Nat
  | value, [] => .ok value
  | value, c :: rest =>
    if c.isDigit then
      let value := value * 10 + digitValue c
      if value ≤ limit then readMagnitude limit overflow value rest else .error overflow
    else .error .invalidDigit

def maxInt32 : Nat := 2147483647

def maxInt64 : Nat := 9223372036854775807

/-- Reads an optionally signed number in `-(limit + 1) … limit`. -/
def readSigned (limit : Nat) : List Char → Except NumberFault Int
  | [] => .error .empty
  | '+' :: [] => .error .invalidDigit
  | '-' :: [] => .error .invalidDigit
  | '+' :: digits => Int.ofNat <$> readMagnitude limit .tooLarge 0 digits
  | '-' :: digits => (fun value : Nat => -(value : Int)) <$> readMagnitude (limit + 1) .tooSmall 0 digits
  | digits => Int.ofNat <$> readMagnitude limit .tooLarge 0 digits

def isDigits (text : List Char) : Bool :=
  !text.isEmpty && text.all Char.isDigit

/-- Widens a digit text with zeros on the left to `width` characters. -/
def padZeros (width : Nat) (digits : String) : String :=
  String.ofList (List.replicate (width - digits.length) '0') ++ digits

end LedgerClient.Text
