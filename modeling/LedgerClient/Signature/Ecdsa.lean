import LedgerClient.Curve.Secp256k1
import LedgerClient.Error
import LedgerClient.Hash.Keccak
import LedgerClient.Hash.Sha256

/-!
Signatures on the curve secp256k1 over the Keccak-256 digest of a message. A verifying key is a
point, kept as its `x` and the parity of its `y`; a signing key is a number below the curve's order
and carries the verifying key derived from it.
-/

namespace LedgerClient.Ecdsa

/-- A point of the curve other than infinity. -/
structure VerifyingKey where
  x : Nat
  odd : Bool
  isPoint : (Secp256k1.liftX? x odd).isSome = true
  deriving DecidableEq

namespace VerifyingKey

def ofCompressed? (x : Nat) (odd : Bool) : Option VerifyingKey :=
  if h : (Secp256k1.liftX? x odd).isSome = true then some ⟨x, odd, h⟩ else none

def y (key : VerifyingKey) : Nat :=
  (Secp256k1.liftX? key.x key.odd).get key.isPoint

/-- The key with these coordinates: the point at `x` with the parity of `y` must have this `y`. -/
def ofAffine? (x y : Nat) : Option VerifyingKey := do
  let key ← ofCompressed? x (y % 2 = 1)
  guard (key.y = y)
  some key

def point (key : VerifyingKey) : Secp256k1.Point :=
  ⟨key.x, key.y, 1⟩

/-- The compressed form: the parity of `y` in the tag, then `x`. -/
def compressed (key : VerifyingKey) : Bytes :=
  (if key.odd then 0x03 else 0x02) :: Bytes.bigEndian 32 key.x

def uncompressed (key : VerifyingKey) : Bytes :=
  0x04 :: Bytes.bigEndian 32 key.x ++ Bytes.bigEndian 32 key.y

/-- Reads a point: tags 2 and 3 give the parity of `y`, tag 4 both coordinates, and tag 5 the point
with even `y`. -/
def ofBytes? : Bytes → Option VerifyingKey
  | [] => none
  | tag :: rest =>
    if rest.length = 32 then
      let x := Bytes.toNatBigEndian rest
      if tag = 0x02 ∨ tag = 0x05 then ofCompressed? x false
      else if tag = 0x03 then ofCompressed? x true
      else none
    else if rest.length = 64 ∧ tag = 0x04 then
      ofAffine? (Bytes.toNatBigEndian (rest.take 32)) (Bytes.toNatBigEndian (rest.drop 32))
    else none

@[simp] theorem ofCompressed?_x_odd (key : VerifyingKey) :
    ofCompressed? key.x key.odd = some key := by
  simp [ofCompressed?, key.isPoint]

@[simp] theorem length_compressed (key : VerifyingKey) : key.compressed.length = 33 := by
  simp [compressed]

end VerifyingKey

def isScalar (n : Nat) : Bool :=
  0 < n && n < Secp256k1.order

def derive? (secret : Nat) : Option VerifyingKey := do
  guard (isScalar secret)
  let (x, y) ← (Secp256k1.base.mul secret).affine?
  VerifyingKey.ofAffine? x y

structure SigningKey where
  secret : Nat
  verifying : VerifyingKey
  derived : derive? secret = some verifying
  deriving DecidableEq

def scalarOfDigest (digest : Bytes) : Nat :=
  Bytes.toNatBigEndian digest % Secp256k1.order

namespace Nonce

/-- The state of the deterministic nonce generator. -/
structure State where
  key : Bytes
  value : Bytes

def State.update (state : State) (separator : UInt8) (input : Bytes) : State :=
  let key := Sha256.hmac state.key (state.value ++ separator :: input)
  ⟨key, Sha256.hmac key state.value⟩

/-- The first candidate that is a scalar. A candidate fails with a chance below `2^-127`, so
`tries` is never used up; the last one is then reduced. -/
def State.next (state : State) : (tries : Nat) → Nat
  | 0 => Bytes.toNatBigEndian state.value % Secp256k1.order
  | tries + 1 =>
    let value := Sha256.hmac state.key state.value
    let candidate := Bytes.toNatBigEndian value
    if isScalar candidate then candidate
    else (State.update ⟨state.key, value⟩ 0x00 []).next tries

/-- The nonce for a secret and a digest: both go twice through the keyed hash. -/
def derive (secret : Nat) (digest : Bytes) : Nat :=
  let input := Bytes.bigEndian 32 secret ++ Bytes.bigEndian 32 (scalarOfDigest digest)
  let start : State := ⟨List.replicate 32 0, List.replicate 32 1⟩
  ((start.update 0x00 input).update 0x01 input).next 16

end Nonce

namespace SigningKey

def ofSecret? (secret : Nat) : Option SigningKey :=
  match h : derive? secret with
  | some verifying => some ⟨secret, verifying, h⟩
  | none => none

def ofBytes? (bytes : Bytes) : Option SigningKey :=
  if bytes.length = 32 then ofSecret? (Bytes.toNatBigEndian bytes) else none

def bytes (key : SigningKey) : Bytes :=
  Bytes.bigEndian 32 key.secret

@[simp] theorem ofSecret?_secret (key : SigningKey) : ofSecret? key.secret = some key := by
  obtain ⟨secret, verifying, derived⟩ := key
  unfold ofSecret?
  split
  · next found => cases derived.symm.trans found; rfl
  · next found => cases derived.symm.trans found

/-- The 64-byte signature of a message, its second half at most half the order. -/
def sign (key : SigningKey) (message : Bytes) : Bytes :=
  let digest := Keccak.digest message
  let nonce := Nonce.derive key.secret digest
  let r := ((Secp256k1.base.mul nonce).affine?.map Prod.fst).getD 0 % Secp256k1.order
  let s := Modular.inverse Secp256k1.order nonce *
    ((scalarOfDigest digest + r * key.secret) % Secp256k1.order) % Secp256k1.order
  let low := if Secp256k1.order / 2 < s then Secp256k1.order - s else s
  Bytes.bigEndian 32 r ++ Bytes.bigEndian 32 low

end SigningKey

/-- Checks a signature; a second half above half the order is refused. -/
def verify (key : VerifyingKey) (message signature : Bytes) : Except SignatureFault Unit :=
  let r := Bytes.toNatBigEndian (signature.take 32)
  let s := Bytes.toNatBigEndian (signature.drop 32)
  if signature.length = 64 ∧ isScalar r ∧ isScalar s ∧ s ≤ Secp256k1.order / 2 then
    let inverse := Modular.inverse Secp256k1.order s
    let u₁ := scalarOfDigest (Keccak.digest message) * inverse % Secp256k1.order
    let u₂ := r * inverse % Secp256k1.order
    match ((Secp256k1.base.mul u₁).add (key.point.mul u₂)).affine? with
    | some (x, _) => if x % Secp256k1.order = r then .ok () else .error .malformed
    | none => .error .malformed
  else .error .malformed

end LedgerClient.Ecdsa
