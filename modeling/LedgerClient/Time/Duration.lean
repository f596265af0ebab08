import LedgerClient.Text.Decimal

/-!
Spans of time: seconds below 2^64 and nanoseconds below 10^9, with the text that error messages
show.
-/

namespace LedgerClient

def nanosPerSecond : Nat := 1000000000

structure Duration where
  seconds : UInt64
  nanos : Nat := 0
  nanos_lt : nanos < nanosPerSecond := by decide
  deriving DecidableEq

namespace Duration

def ofSeconds (seconds : UInt64) : Duration :=
  ⟨seconds, 0, by decide⟩

/-- Carries whole seconds out of `nanos`; none if the seconds leave their range. -/
def ofParts? (seconds : UInt64) (nanos : Nat) : Option Duration :=
  if seconds.toNat + nanos / nanosPerSecond < UInt64.size then
    some ⟨seconds + UInt64.ofNat (nanos / nanosPerSecond), nanos % nanosPerSecond,
      Nat.mod_lt _ (by decide)⟩
  else none

def isZero (d : Duration) : Bool :=
  d.seconds == 0 && d.nanos == 0

def isWholeSeconds (d : Duration) : Bool :=
  d.nanos == 0

/-- A number with `places` decimal places, `fraction` of them, without zeros at the end. -/
def decimalText (whole fraction places : Nat) : String :=
  let digits := (Text.padZeros places (toString fraction)).toList
  let kept := (digits.reverse.dropWhile (· == '0')).reverse
  if kept.isEmpty then toString whole else toString whole ++ "." ++ String.ofList kept

/-- The span in its largest unit of at least one: seconds, milli-, micro- or nanoseconds. -/
def text (d : Duration) : String :=
  if d.seconds ≠ 0 then decimalText d.seconds.toNat d.nanos 9 ++ "s"
  else if 1000000 ≤ d.nanos then decimalText (d.nanos / 1000000) (d.nanos % 1000000) 6 ++ "ms"
  else if 1000 ≤ d.nanos then decimalText (d.nanos / 1000) (d.nanos % 1000) 3 ++ "µs"
  else toString d.nanos ++ "ns"

end Duration

end LedgerClient
