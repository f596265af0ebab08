import LedgerClient.Error
import LedgerClient.Text.Blank
import LedgerClient.Text.Split

/-!
Amounts of the ledger's currency: a signed 64-bit count of tinybars, 10^8 of which make one hbar.
Whole hbars are written in hbars and all other amounts in tinybars. Arithmetic saturates at the ends
of the range.
-/

namespace LedgerClient

structure Hbar where
  tinybars : Int64
  deriving DecidableEq

namespace Hbar

def tinybarsPerHbar : Int := 100000000

/-- The amount nearest to a count of tinybars. -/
def clamp (tinybars : Int) : Hbar :=
  ⟨Int64.ofInt (max (-Text.maxInt64 - 1) (min tinybars Text.maxInt64))⟩

def zero : Hbar := ⟨0⟩

def maximum : Hbar := clamp Text.maxInt64

instance : Inhabited Hbar := ⟨zero⟩

def ofHbars (hbars : Int64) : Hbar :=
  clamp (hbars.toInt * tinybarsPerHbar)

def neg (amount : Hbar) : Hbar :=
  clamp (-amount.tinybars.toInt)

def isNegative (amount : Hbar) : Bool :=
  amount.tinybars.toInt < 0

def text (amount : Hbar) : String :=
  let n := amount.tinybars.toInt
  if n % tinybarsPerHbar = 0 then toString (n / tinybarsPerHbar) ++ " ℏ" else toString n ++ " tℏ"

/-- Reads a signed count and a unit separated by one space; hbars are meant where the unit is
missing. -/
def parse (input : String) : Except LedgerError Hbar :=
  let trimmed := Text.trim input.toList
  let (amount, unit) := (Text.splitFirst ' ' trimmed).getD (trimmed, ['ℏ'])
  match Text.readSigned Text.maxInt64 amount with
  | .error fault => .error (.parse input (.amount (String.ofList amount) fault))
  | .ok count =>
    if unit = ['ℏ'] then .ok (ofHbars (.ofInt count))
    else if unit = ['t', 'ℏ'] then .ok ⟨.ofInt count⟩
    else .error (.parse input (.unit (String.ofList unit)))

end Hbar

end LedgerClient
