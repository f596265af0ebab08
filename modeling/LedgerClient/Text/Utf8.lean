import LedgerClient.Bytes

/-!
Reading bytes as characters. A byte that begins no well-formed UTF-8 sequence is kept as an unknown
character, `none`, and reading goes on behind it.
-/

namespace LedgerClient.Text

def firstChar? (bytes : Bytes) : Option Char :=
  (bytes.take 4).toByteArray.utf8DecodeChar? 0

def charsUpTo : (count : Nat) → Bytes → List (Option Char)
  | 0, _ => []
  | _, [] => []
  | count + 1, byte :: rest =>
    match firstChar? (byte :: rest) with
    | some c => some c :: charsUpTo count ((byte :: rest).drop c.utf8Size)
    | none => none :: charsUpTo count rest

def chars (bytes : Bytes) : List (Option Char) :=
  charsUpTo bytes.length bytes

end LedgerClient.Text
