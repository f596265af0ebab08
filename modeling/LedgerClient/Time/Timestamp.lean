import LedgerClient.Text.Blank
import LedgerClient.Time.Calendar
import LedgerClient.Time.Instant

/-!
Timestamps: an instant as date and time of day in a time zone. They are written in UTC, with the
fewest of 0, 3, 6 or 9 decimal places, second 60 inside a leap second, and a sign on years outside
0 to 9999. The reader is lenient: blanks may stand before every part, numbers may be shorter, and
decimal places beyond the ninth are dropped.
-/

namespace LedgerClient.Timestamp

def secondsPerDay : Int := 86400

def pad (width n : Nat) : String :=
  Text.padZeros width (toString n)

def yearText (year : Int) : String :=
  if 0 ≤ year ∧ year ≤ 9999 then pad 4 year.toNat
  else (if year < 0 then "-" else "+") ++ pad 4 year.natAbs

def fractionText (nanos : Nat) : String :=
  if nanos = 0 then ""
  else if nanos % 1000000 = 0 then "." ++ pad 3 (nanos / 1000000)
  else if nanos % 1000 = 0 then "." ++ pad 6 (nanos / 1000)
  else "." ++ pad 9 nanos

def text (t : Instant) : String :=
  let date := Calendar.Date.ofDays (t.seconds / secondsPerDay)
  let second := (t.seconds % secondsPerDay).toNat
  let (extra, nanos) := if t.isLeap then (1, t.nanos - nanosPerSecond) else (0, t.nanos)
  yearText date.year ++ "-" ++ pad 2 date.month ++ "-" ++ pad 2 date.day ++ "T" ++
    pad 2 (second / 3600) ++ ":" ++ pad 2 (second / 60 % 60) ++ ":" ++
    pad 2 (second % 60 + extra) ++ fractionText nanos ++ "Z"

def skipBlanks (text : List Char) : List Char :=
  text.dropWhile Text.isBlank

/-- Reads one to `limit` digits as a number below 2^63. -/
def readDigits (limit : Nat) (text : List Char) : Option (Nat × List Char) := do
  let digits := (text.takeWhile Char.isDigit).take limit
  guard (!digits.isEmpty && Text.digitsValue digits ≤ Text.maxInt64)
  some (Text.digitsValue digits, text.drop digits.length)

/-- Reads a year: up to four digits, or a sign and any number of digits. -/
def readYear (text : List Char) : Option (Int × List Char) :=
  match skipBlanks text with
  | '-' :: rest => (fun (n, rest) => (-(n : Int), rest)) <$> readDigits rest.length rest
  | '+' :: rest => (fun (n, rest) => ((n : Int), rest)) <$> readDigits rest.length rest
  | rest => (fun (n, rest) => ((n : Int), rest)) <$> readDigits 4 rest

def readPart (text : List Char) : Option (Nat × List Char) :=
  readDigits 2 (skipBlanks text)

def expect (separator : Char) (text : List Char) : Option (List Char) :=
  match skipBlanks text with
  | c :: rest => if c = separator then some rest else none
  | [] => none

/-- Reads decimal places behind a point as nanoseconds; without a point there are none. -/
def readFraction : List Char → Option (Nat × List Char)
  | '.' :: rest => do
    let digits := rest.takeWhile Char.isDigit
    guard (!digits.isEmpty)
    let kept := digits.take 9
    some (Text.digitsValue kept * Nat.pow 10 (9 - kept.length), rest.drop digits.length)
  | rest => some (0, rest)

def twoDigits (a b : Char) : Option Nat := do
  guard (a.isDigit && b.isDigit)
  some (Text.digitsValue [a, b])

/-- Reads a time zone as the seconds that it is ahead of UTC. -/
def readZone (text : List Char) : Option (Int × List Char) :=
  match text with
  | 'Z' :: rest => some (0, rest)
  | 'z' :: rest => some (0, rest)
  | sign :: a :: b :: rest =>
    if [sign, a, b].map Char.toUpper = ['U', 'T', 'C'] then some (0, rest)
    else do
      guard (sign = '+' ∨ sign = '-' ∨ sign = '−')
      let hours ← twoDigits a b
      match rest.dropWhile fun c => c == ':' || Text.isBlank c with
      | a :: b :: rest =>
        let minutes ← twoDigits a b
        guard (minutes < 60)
        let seconds : Int := hours * 3600 + minutes * 60
        some (if sign = '+' then seconds else -seconds, rest)
      | _ => none
  | _ => none

/-- The instant of a date, a time of day and a zone; second 60 is a leap second. -/
def assemble (date : Calendar.Date) (hour minute second nanos : Nat) (zone : Int) :
    Option Instant := do
  guard (date.exists && hour < 24 && minute < 60 && second ≤ 60)
  guard (-secondsPerDay < zone && zone < secondsPerDay)
  let (second, nanos) := if second = 60 then (59, nanos + nanosPerSecond) else (second, nanos)
  let localSeconds := date.toDays * secondsPerDay + hour * 3600 + minute * 60 + second
  let _ ← Instant.ofParts? localSeconds nanos
  Instant.ofParts? (localSeconds - zone) nanos

def parse? (text : String) : Option Instant := do
  let (year, rest) ← readYear text.toList
  let rest ← expect '-' rest
  let (month, rest) ← readPart rest
  let rest ← expect '-' rest
  let (day, rest) ← readPart rest
  let separator :: rest := rest | none
  guard (separator = 'T' ∨ separator = 't' ∨ separator = ' ')
  let (hour, rest) ← readPart rest
  let rest ← expect ':' rest
  let (minute, rest) ← readPart rest
  let rest ← expect ':' rest
  let (second, rest) ← readPart rest
  let (nanos, rest) ← readFraction rest
  let (zone, rest) ← readZone (skipBlanks rest)
  guard (skipBlanks rest).isEmpty
  assemble ⟨year, month, day⟩ hour minute second nanos zone

end LedgerClient.Timestamp
