import LedgerClient.Time.Duration

/-!
Instants of the civil time line: seconds since 1970-01-01T00:00:00Z within the supported years
-262143 to 262142, and nanoseconds. 10^9 nanoseconds or more stand for a leap second after the
second they are given with. Civil time has such a second after the last one of a minute only, but
the nanoseconds of any instant can be set to them.
-/

namespace LedgerClient

structure Instant where
  seconds : Int
  nanos : Nat
  seconds_ge : -8334601228800 ≤ seconds
  seconds_le : seconds ≤ 8210266876799
  nanos_lt : nanos < 2 * nanosPerSecond
  deriving DecidableEq

namespace Instant

/-- The instant with these parts, if they denote one of civil time. -/
def ofParts? (seconds : Int) (nanos : Nat) : Option Instant :=
  if h : -8334601228800 ≤ seconds ∧ seconds ≤ 8210266876799 ∧ nanos < 2 * nanosPerSecond ∧
      (nanos < nanosPerSecond ∨ seconds % 60 = 59) then
    some ⟨seconds, nanos, h.1, h.2.1, h.2.2.1⟩
  else none

def epoch : Instant :=
  ⟨0, 0, by decide, by decide, by decide⟩

def isLeap (t : Instant) : Bool :=
  nanosPerSecond ≤ t.nanos

/-- Whether a leap second, if the instant lies in one, ends a minute. -/
def IsCivil (t : Instant) : Prop :=
  t.nanos < nanosPerSecond ∨ t.seconds % 60 = 59

instance (t : Instant) : Decidable t.IsCivil :=
  inferInstanceAs (Decidable (_ ∨ _))

theorem isCivil_of_isLeap_eq_false {t : Instant} (h : t.isLeap = false) : t.IsCivil :=
  .inl (Nat.lt_of_not_le (of_decide_eq_false h))

theorem IsCivil.ofParts?_parts {t : Instant} (h : t.IsCivil) :
    ofParts? t.seconds t.nanos = some t :=
  dif_pos ⟨t.seconds_ge, t.seconds_le, t.nanos_lt, h⟩

end Instant

end LedgerClient
