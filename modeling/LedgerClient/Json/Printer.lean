import LedgerClient.Json.Float

/-!
Compact JSON text: no blanks, members in the order given, characters beyond ASCII as they are.
-/

namespace LedgerClient.Json

def hexDigit (value : Nat) : Char :=
  Char.ofNat (if value < 10 then '0'.toNat + value else 'a'.toNat + (value - 10))

/-- A character inside a string: quotes, backslashes and controls below the blank are escaped. -/
def escape (c : Char) : List Char :=
  if c = '"' then ['\\', '"']
  else if c = '\\' then ['\\', '\\']
  else if c = '\x08' then ['\\', 'b']
  else if c = '\x0C' then ['\\', 'f']
  else if c = '\n' then ['\\', 'n']
  else if c = '\r' then ['\\', 'r']
  else if c = '\t' then ['\\', 't']
  else if c < ' ' then ['\\', 'u', '0', '0', hexDigit (c.toNat / 16), hexDigit (c.toNat % 16)]
  else [c]

def quote (value : String) : List Char :=
  '"' :: value.toList.flatMap escape ++ ['"']

/-- Integers of 64 bits, signed or not, are written in full and all other numbers as decimals. -/
def Number.text (value : Number) : String :=
  match value.toWord? with
  | some n => toString n
  | none => value.floatText

mutual

def print : Json → List Char
  | .null => "null".toList
  | .bool true => "true".toList
  | .bool false => "false".toList
  | .number value => value.text.toList
  | .string value => quote value
  | .array items _ => '[' :: printItems items ++ [']']
  | .object members _ => '\x7b' :: printMembers members ++ ['\x7d']
  | .unreadable => []

def printItems : List Json → List Char
  | [] => []
  | [item] => print item
  | item :: rest => print item ++ ',' :: printItems rest

def printMembers : List (String × Json) → List Char
  | [] => []
  | [(key, value)] => quote key ++ ':' :: print value
  | (key, value) :: rest => quote key ++ ':' :: print value ++ ',' :: printMembers rest

end

def text (json : Json) : String :=
  String.ofList (print json)

end LedgerClient.Json
