import LedgerClient.AccountId
import LedgerClient.Time.Instant

/-!
Transaction ids: the paying account, the instant from which the transaction is valid, whether it was
scheduled, and an optional nonce, written `account@seconds.nanos[?scheduled][/nonce]`.
-/

namespace LedgerClient

structure TransactionId where
  account : AccountId
  validStart : Instant
  scheduled : Bool := false
  nonce : Option Int32 := none
  deriving DecidableEq

namespace TransactionId

/-- Seconds, and nanoseconds with at least nine digits. -/
def startText (t : Instant) : String :=
  toString t.seconds ++ "." ++ Text.padZeros 9 (toString t.nanos)

def text (id : TransactionId) : String :=
  id.account.text ++ "@" ++ startText id.validStart ++
    (if id.scheduled then "?scheduled" else "") ++
    match id.nonce with
    | none => ""
    | some nonce => "/" ++ toString nonce.toInt

/-- Splits a nonce off the end; it follows the last `/`. -/
def parseNonce (input : String) (text : List Char) :
    Except LedgerError (List Char × Option Int32) :=
  match Text.splitLast (· == '/') text with
  | none => .ok (text, none)
  | some (rest, nonce) =>
    match Text.readSigned Text.maxInt32 nonce with
    | .ok value => .ok (rest, some (.ofInt value))
    | .error fault => .error (.parse input (.nonce (String.ofList nonce) fault))

def parseScheduled (text : List Char) : List Char × Bool :=
  match Text.dropTail? "?scheduled".toList text with
  | some rest => (rest, true)
  | none => (text, false)

def parseSeconds (input : String) (part : List Char) : Except LedgerError Int :=
  match Text.readSigned Text.maxInt64 part with
  | .ok value => .ok value
  | .error fault => .error (.parse input (.seconds (String.ofList part) fault))

/-- Nanoseconds are the number that the digits denote, however many there are. -/
def parseNanos (input : String) (part : List Char) : Except LedgerError Nat :=
  if Text.isDigits part && Text.digitsValue part < nanosPerSecond then .ok (Text.digitsValue part)
  else .error (.parse input (.nanoseconds (String.ofList part)))

/-- Reads an id from its end: nonce, mark, instant, and the account last. -/
def parse (input : String) : Except LedgerError TransactionId := do
  let (rest, nonce) ← parseNonce input input.toList
  let (rest, scheduled) := parseScheduled rest
  let some (account, timestamp) := Text.splitFirst '@' rest
    | throw (.parse input .transactionShape)
  let some (seconds, nanos) := Text.splitFirst '.' timestamp
    | throw (.parse input .timestampShape)
  let seconds ← parseSeconds input seconds
  let nanos ← parseNanos input nanos
  let some validStart := Instant.ofParts? seconds nanos
    | throw (.parse input .timestampRange)
  let account ← AccountId.parse (String.ofList account)
  return { account, validStart, scheduled, nonce }

def checked (id : TransactionId) : CheckedId :=
  id.account.checked

end TransactionId

end LedgerClient
