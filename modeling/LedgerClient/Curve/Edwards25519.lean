import LedgerClient.Bytes
import LedgerClient.Curve.Modular

/-!
The curve `-x² + y² = 1 + d x² y²` over the field of `2^255 - 19` elements. Points are kept in
extended coordinates: `x = X/Z`, `y = Y/Z` and `T = X Y / Z`. A point is written as the 32
little-endian bytes of `y`, with the parity of `x` in the top bit.
-/

namespace LedgerClient.Edwards25519

def prime : Nat := Nat.pow 2 255 - 19

def order : Nat := Nat.pow 2 252 + 27742317777372353535851937790883648493

/-- The curve's coefficient, `-121665 / 121666`. -/
def d : Nat :=
  37095705934669439343138083508754565189542113879843219016388785533085940283555

def rootOfMinusOne : Nat :=
  19681161376707505956807079304988542015446066515923890162744021073123829784752

structure Point where
  (x y z t : Nat)

def Point.ofAffine (x y : Nat) : Point :=
  ⟨x, y, 1, x * y % prime⟩

def identity : Point := .ofAffine 0 1

def base : Point :=
  .ofAffine 15112221349535400772501151409588531511454012693041857206046113283949847762202
    46316835694926478169428394003475163141307993866256225615783033603165251855960

/-- The sum of two points, by formulas that hold for all of them. -/
def Point.add (p q : Point) : Point :=
  let a := Modular.sub prime p.y p.x * Modular.sub prime q.y q.x % prime
  let b := (p.y + p.x) * (q.y + q.x) % prime
  let c := p.t * q.t % prime * (2 * d) % prime
  let s := 2 * p.z * q.z % prime
  let e := Modular.sub prime b a
  let f := Modular.sub prime s c
  let g := s + c
  let h := b + a
  ⟨e * f % prime, g * h % prime, f * g % prime, e * h % prime⟩

def Point.neg (p : Point) : Point :=
  ⟨Modular.sub prime 0 p.x, p.y, p.z, Modular.sub prime 0 p.t⟩

def Point.mul (p : Point) (scalar : Nat) : Point :=
  if scalar = 0 then identity
  else
    let rest := (p.add p).mul (scalar / 2)
    if scalar % 2 = 1 then p.add rest else rest
termination_by scalar

def Point.encode (p : Point) : Bytes :=
  let inverse := Modular.inverse prime p.z
  let x := p.x * inverse % prime
  let y := p.y * inverse % prime
  Bytes.littleEndian 32 (y + x % 2 * Nat.pow 2 255)

/-- The square root of `u / v` that has the given parity. -/
def rootOfRatio? (u v : Nat) (odd : Bool) : Option Nat :=
  let v3 := v * v % prime * v % prime
  let v7 := v3 * v3 % prime * v % prime
  let candidate := u * v3 % prime * Modular.pow prime (u * v7 % prime) ((prime - 5) / 8) % prime
  let check := v * candidate % prime * candidate % prime
  let root? :=
    if check = u % prime then some candidate
    else if check = Modular.sub prime 0 (u % prime) then
      some (candidate * rootOfMinusOne % prime)
    else none
  root?.map fun root => if (root % 2 = 1) = odd then root else Modular.sub prime 0 root

/-- Reads a point. Any 32 bytes count whose `y`, reduced modulo the prime, is that of a point: a `y`
that was not reduced and a sign on `x = 0` are accepted. -/
def decode? (bytes : Bytes) : Option Point :=
  if bytes.length = 32 then
    let value := Bytes.toNatLittleEndian bytes
    let y := value % Nat.pow 2 255 % prime
    let y2 := y * y % prime
    let x? := rootOfRatio? (Modular.sub prime y2 1) ((d * y2 + 1) % prime) (Nat.pow 2 255 ≤ value)
    x?.map fun x => .ofAffine x y
  else none

end LedgerClient.Edwards25519
