import LedgerClient.Json.Basic
import LedgerClient.Text.Decimal

/-!
Reading JSON text. The text is a list of characters in which `none` stands for a byte that belongs
to no character; such a byte may stand only inside a string. A string that holds one, or half of a
surrogate pair, is passed over like any other but its value is unreadable, and so is an array or
object that is nested too deep.
-/

namespace LedgerClient.Json

abbrev Symbols := List (Option Char)

/-- A part of a string: a character, half of a surrogate pair, or something that is no text. -/
inductive Piece where
  | char (c : Char)
  | surrogate (unit : Nat)
  | invalid

def isBlank : Option Char → Bool
  | some c => c == ' ' || c == '\n' || c == '\t' || c == '\r'
  | none => false

def skipBlanks (text : Symbols) : Symbols :=
  text.dropWhile isBlank

def hexValue? (c : Char) : Option Nat :=
  if '0' ≤ c ∧ c ≤ '9' then some (c.toNat - '0'.toNat)
  else if 'a' ≤ c ∧ c ≤ 'f' then some (c.toNat - 'a'.toNat + 10)
  else if 'A' ≤ c ∧ c ≤ 'F' then some (c.toNat - 'A'.toNat + 10)
  else none

def unicodeEscape? (a b c d : Char) : Option Piece := do
  let n := (((← hexValue? a) * 16 + (← hexValue? b)) * 16 + (← hexValue? c)) * 16 + (← hexValue? d)
  some (if 0xD800 ≤ n ∧ n < 0xE000 then .surrogate n else .char (Char.ofNat n))

def simpleEscape? : Char → Option Char
  | '"' => some '"'
  | '\\' => some '\\'
  | '/' => some '/'
  | 'b' => some '\x08'
  | 'f' => some '\x0C'
  | 'n' => some '\n'
  | 'r' => some '\r'
  | 't' => some '\t'
  | _ => none

/-- Reads a string behind its opening quote; `none` if it never ends or has a malformed part. -/
def readPieces : Symbols → Option (List Piece × Symbols)
  | [] => none
  | none :: rest => do
    let (pieces, rest) ← readPieces rest
    some (.invalid :: pieces, rest)
  | some '"' :: rest => some ([], rest)
  | some '\\' :: some 'u' :: some a :: some b :: some c :: some d :: rest => do
    let piece ← unicodeEscape? a b c d
    let (pieces, rest) ← readPieces rest
    some (piece :: pieces, rest)
  | some '\\' :: some c :: rest => do
    let char ← simpleEscape? c
    let (pieces, rest) ← readPieces rest
    some (.char char :: pieces, rest)
  | some '\\' :: _ => none
  | some c :: rest => do
    guard (' ' ≤ c)
    let (pieces, rest) ← readPieces rest
    some (.char c :: pieces, rest)

def joinPieces : List Piece → Option (List Char)
  | [] => some []
  | .char c :: rest => (c :: ·) <$> joinPieces rest
  | .surrogate high :: .surrogate low :: rest =>
    if high < 0xDC00 ∧ 0xDC00 ≤ low then
      (Char.ofNat (0x10000 + (high - 0xD800) * 0x400 + (low - 0xDC00)) :: ·) <$> joinPieces rest
    else none
  | .surrogate _ :: _ => none
  | .invalid :: _ => none

def readDigits : Symbols → List Char × Symbols
  | some c :: rest =>
    if c.isDigit then
      let (digits, rest) := readDigits rest
      (c :: digits, rest)
    else ([], some c :: rest)
  | rest => ([], rest)

def readFraction : Symbols → Option (Option (List Char) × Symbols)
  | some '.' :: rest =>
    match readDigits rest with
    | ([], _) => none
    | (digits, rest) => some (some digits, rest)
  | rest => some (none, rest)

def readExponentSign : Symbols → Bool × Symbols
  | some '+' :: rest => (false, rest)
  | some '-' :: rest => (true, rest)
  | rest => (false, rest)

def readExponent : Symbols → Option (Option Int × Symbols)
  | some c :: rest =>
    if c = 'e' ∨ c = 'E' then
      let (negative, rest) := readExponentSign rest
      match readDigits rest with
      | ([], _) => none
      | (digits, rest) =>
        let magnitude : Int := Text.digitsValue digits
        some (some (if negative then -magnitude else magnitude), rest)
    else some (none, some c :: rest)
  | rest => some (none, rest)

def readUnsigned (negative : Bool) (text : Symbols) : Option (Number × Symbols) := do
  let (whole, rest) := readDigits text
  guard (!whole.isEmpty && (whole.head? != some '0' || whole.length == 1))
  let (fraction, rest) ← readFraction rest
  let (exponent, rest) ← readExponent rest
  match fraction, exponent with
  | none, none => some (.integer negative (Text.digitsValue whole), rest)
  | _, _ => some (.decimal negative whole (fraction.getD []) (exponent.getD 0), rest)

def readNumber : Symbols → Option (Number × Symbols)
  | some '-' :: rest => readUnsigned true rest
  | text => readUnsigned false text

def consItem (item : Json) : List Json × Ending × Option Symbols →
    List Json × Ending × Option Symbols
  | (items, ending, rest) => (item :: items, ending, rest)

/-- Puts a member before the members that follow it; nothing can be read behind a key that is no
text. -/
def consMember (key : Option String) (value : Json) :
    List (String × Json) × Ending × Option Symbols → List (String × Json) × Ending × Option Symbols
  | (members, ending, rest) =>
    match key with
    | some key => ((key, value) :: members, ending, rest)
    | none => ([], .broken, rest)

/-- The text of a string behind its opening quote, if it is readable, and what follows it. -/
def readString (text : Symbols) : Option (Option String × Symbols) := do
  let (pieces, rest) ← readPieces text
  some (String.ofList <$> joinPieces pieces, rest)

mutual

/-- Reads a value inside `depth` arrays and objects, and returns what follows it, if the text is
sound so far. Every call uses up a unit of `fuel`. -/
def readValue : (fuel : Nat) → (depth : Nat) → Symbols → Json × Option Symbols
  | 0, _, _ => (.unreadable, none)
  | fuel + 1, depth, text =>
    match skipBlanks text with
    | some 'n' :: some 'u' :: some 'l' :: some 'l' :: rest => (.null, some rest)
    | some 't' :: some 'r' :: some 'u' :: some 'e' :: rest => (.bool true, some rest)
    | some 'f' :: some 'a' :: some 'l' :: some 's' :: some 'e' :: rest => (.bool false, some rest)
    | some '"' :: rest =>
      match readString rest with
      | some (value, rest) => ((value.map Json.string).getD .unreadable, some rest)
      | none => (.unreadable, none)
    | some '[' :: rest =>
      let (items, ending, rest) :=
        match skipBlanks rest with
        | some ']' :: rest => ([], .closed, some rest)
        | rest => readItems fuel (depth + 1) rest
      (if depth < maxDepth then .array items ending else .unreadable, rest)
    | some '\x7b' :: rest =>
      let (members, ending, rest) :=
        match skipBlanks rest with
        | some '\x7d' :: rest => ([], .closed, some rest)
        | rest => readMembers fuel (depth + 1) rest
      (if depth < maxDepth then .object members ending else .unreadable, rest)
    | text =>
      match readNumber text with
      | some (value, rest) => (.number value, some rest)
      | none => (.unreadable, none)

def readItems : (fuel : Nat) → (depth : Nat) → Symbols → List Json × Ending × Option Symbols
  | 0, _, _ => ([], .broken, none)
  | fuel + 1, depth, text =>
    match readValue fuel depth text with
    | (item, none) => ([item], .broken, none)
    | (item, some rest) =>
      match skipBlanks rest with
      | some ',' :: rest => consItem item (readItems fuel depth rest)
      | some ']' :: rest => ([item], .closed, some rest)
      | _ => ([item], .broken, none)

def readMembers : (fuel : Nat) → (depth : Nat) → Symbols →
    List (String × Json) × Ending × Option Symbols
  | 0, _, _ => ([], .broken, none)
  | fuel + 1, depth, text =>
    match skipBlanks text with
    | some '"' :: rest =>
      match readString rest with
      | none => ([], .broken, none)
      | some (key, rest) =>
        match skipBlanks rest with
        | some ':' :: rest =>
          match readValue fuel depth rest with
          | (value, none) => consMember key value ([], .broken, none)
          | (value, some rest) =>
            match skipBlanks rest with
            | some ',' :: rest => consMember key value (readMembers fuel depth rest)
            | some '\x7d' :: rest => consMember key value ([], .closed, some rest)
            | _ => consMember key value ([], .broken, none)
        | _ => consMember key .unreadable ([], .broken, none)
    | _ => ([], .broken, none)

end

/-- Reads a whole text; the flag tells whether it holds one value and nothing else but blanks. -/
def read (text : Symbols) : Json × Bool :=
  match readValue (2 * text.length + 2) 0 text with
  | (value, some rest) => (value, (skipBlanks rest).isEmpty)
  | (value, none) => (value, false)

end LedgerClient.Json
