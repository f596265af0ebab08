import LedgerClient.Bytes
import LedgerClient.Curve.Modular

/-!
The curve `y² = x³ + 7` over a prime field of 256 bits. Sums are taken in Jacobian coordinates,
`x = X/Z²` and `y = Y/Z³`, where `Z = 0` is the point at infinity.
-/

namespace LedgerClient.Secp256k1

def prime : Nat := Nat.pow 2 256 - Nat.pow 2 32 - 977

def order : Nat :=
  0xfffffffffffffffffffffffffffffffebaaedce6af48a03bbfd25e8cd0364141

structure Point where
  (x y z : Nat)

def infinity : Point := ⟨1, 1, 0⟩

def base : Point :=
  ⟨0x79be667ef9dcbbac55a06295ce870b07029bfcdb2dce28d959f2815b16f81798,
    0x483ada7726a3c4655da4fbfc0e1108a8fd17b448a68554199c47d08ffb10d4b8, 1⟩

def Point.double (p : Point) : Point :=
  if p.z = 0 ∨ p.y = 0 then infinity
  else
    let y2 := p.y * p.y % prime
    let s := 4 * p.x * y2 % prime
    let m := 3 * p.x * p.x % prime
    let x := Modular.sub prime (m * m % prime) (2 * s % prime)
    let y := Modular.sub prime (m * Modular.sub prime s x % prime) (8 * y2 * y2 % prime)
    ⟨x, y, 2 * p.y * p.z % prime⟩

def Point.add (p q : Point) : Point :=
  if p.z = 0 then q
  else if q.z = 0 then p
  else
    let pz2 := p.z * p.z % prime
    let qz2 := q.z * q.z % prime
    let u₁ := p.x * qz2 % prime
    let u₂ := q.x * pz2 % prime
    let s₁ := p.y * qz2 % prime * q.z % prime
    let s₂ := q.y * pz2 % prime * p.z % prime
    if u₁ = u₂ then if s₁ = s₂ then p.double else infinity
    else
      let h := Modular.sub prime u₂ u₁
      let r := Modular.sub prime s₂ s₁
      let h2 := h * h % prime
      let h3 := h2 * h % prime
      let v := u₁ * h2 % prime
      let x := Modular.sub prime (Modular.sub prime (r * r % prime) h3) (2 * v % prime)
      let y := Modular.sub prime (r * Modular.sub prime v x % prime) (s₁ * h3 % prime)
      ⟨x, y, p.z * q.z % prime * h % prime⟩

def Point.mul (p : Point) (scalar : Nat) : Point :=
  if scalar = 0 then infinity
  else
    let rest := p.double.mul (scalar / 2)
    if scalar % 2 = 1 then p.add rest else rest
termination_by scalar

def Point.affine? (p : Point) : Option (Nat × Nat) :=
  if p.z = 0 then none
  else
    let inverse := Modular.inverse prime p.z
    let inverse2 := inverse * inverse % prime
    some (p.x * inverse2 % prime, p.y * inverse2 % prime * inverse % prime)

/-- The `y` of the given parity for which `(x, y)` is a point. -/
def liftX? (x : Nat) (odd : Bool) : Option Nat :=
  if x < prime then
    let square := (x * x % prime * x + 7) % prime
    let root := Modular.pow prime square ((prime + 1) / 4)
    if root * root % prime = square then
      some (if (root % 2 = 1) = odd then root else Modular.sub prime 0 root)
    else none
  else none

end LedgerClient.Secp256k1
