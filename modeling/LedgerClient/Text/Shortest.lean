/-!
The shortest decimal that reads back. A binary number `m * 2 ^ q` stands for all reals that are
nearest to it; of the decimals among them those with the fewest digits are taken, and of these the
nearest one, an even last digit deciding a tie.
-/

namespace LedgerClient.Text

/-- The reals that round to `m * 2 ^ q`, all scaled by the same factor: the number itself, the
interval around it, its ends included for even `m`, and the unit one. -/
structure Neighbourhood where
  value : Nat
  low : Nat
  high : Nat
  one : Nat
  ends : Bool

/-- The interval of a number; below a power of two the gap is half as wide (`narrow`). -/
def Neighbourhood.ofBinary (m : Nat) (q : Int) (narrow : Bool) : Neighbourhood :=
  let up := Nat.pow 2 q.toNat
  { value := 4 * m * up
    low := (4 * m - if narrow then 1 else 2) * up
    high := (4 * m + 2) * up
    one := 4 * Nat.pow 2 (-q).toNat
    ends := m % 2 = 0 }

/-- Whether `digits` steps of a grid, of which `one / scale` is a single step, lie inside. -/
def Neighbourhood.holds (n : Neighbourhood) (step digits : Nat) : Bool :=
  let point := digits * step
  if n.ends then n.low ≤ point && point ≤ n.high else n.low < point && point < n.high

def Neighbourhood.onGrid (n : Neighbourhood) (step : Nat) : Option Nat :=
  let below := n.value / step
  let above := below + 1
  match n.holds step below, n.holds step above with
  | true, false => some below
  | false, true => some above
  | false, false => none
  | true, true =>
    let left := n.value - below * step
    let right := above * step - n.value
    if left < right ∨ left = right ∧ below % 2 = 0 then some below else some above

/-- The interval on a scale where the power `10 ^ exponent` is the natural number returned. -/
def Neighbourhood.atExponent (n : Neighbourhood) (exponent : Int) : Neighbourhood × Nat :=
  let down := Nat.pow 10 (-exponent).toNat
  ({ n with value := n.value * down, low := n.low * down, high := n.high * down },
    n.one * Nat.pow 10 exponent.toNat)

/-- Tries the grids `10 ^ exponent`, `10 ^ (exponent - 1)`, … until one hits. -/
def Neighbourhood.search (n : Neighbourhood) : (tries : Nat) → (exponent : Int) → Nat × Int
  | 0, exponent => (0, exponent)
  | tries + 1, exponent =>
    let (scaled, step) := n.atExponent exponent
    match scaled.onGrid step with
    | some 0 => n.search tries (exponent - 1)
    | some digits => (digits, exponent)
    | none => n.search tries (exponent - 1)

/-- Digits and exponent of the shortest decimal for `m * 2 ^ q`, where `m` is positive. -/
def shortest (m : Nat) (q : Int) (narrow : Bool) : Nat × Int :=
  (Neighbourhood.ofBinary m q narrow).search 700 310

end LedgerClient.Text
