import LedgerClient.Curve.Edwards25519
import LedgerClient.Error
import LedgerClient.Hash.Sha512

/-!
Signatures on the curve Edwards25519. A signing key is a seed of 32 bytes and carries the verifying
key derived from it; a verifying key keeps the 32 bytes it was read from.
-/

namespace LedgerClient.EdDsa

structure VerifyingKey where
  bytes : Bytes
  isPoint : (Edwards25519.decode? bytes).isSome = true
  deriving DecidableEq

namespace VerifyingKey

def ofBytes? (bytes : Bytes) : Option VerifyingKey :=
  if h : (Edwards25519.decode? bytes).isSome = true then some ⟨bytes, h⟩ else none

def point (key : VerifyingKey) : Edwards25519.Point :=
  (Edwards25519.decode? key.bytes).get key.isPoint

theorem length_bytes (key : VerifyingKey) : key.bytes.length = 32 := by
  have := key.isPoint
  unfold Edwards25519.decode? at this
  split at this
  · assumption
  · simp at this

@[simp] theorem ofBytes?_bytes (key : VerifyingKey) : ofBytes? key.bytes = some key := by
  simp [ofBytes?, key.isPoint]

theorem bytes_of_ofBytes? {bytes : Bytes} {key : VerifyingKey} (h : ofBytes? bytes = some key) :
    key.bytes = bytes := by
  unfold ofBytes? at h
  split at h
  · cases h; rfl
  · cases h

end VerifyingKey

def scalarOfDigest (digest : Bytes) : Nat :=
  Bytes.toNatLittleEndian digest % Edwards25519.order

/-- The secret multiplier of a seed: a multiple of eight with bit 254 set. -/
def secretScalar (seed : Bytes) : Nat :=
  Bytes.toNatLittleEndian ((Sha512.digest seed).take 32) % Nat.pow 2 254 / 8 * 8 + Nat.pow 2 254

def derive? (seed : Bytes) : Option VerifyingKey :=
  if seed.length = 32 then
    VerifyingKey.ofBytes? (Edwards25519.base.mul (secretScalar seed)).encode
  else none

structure SigningKey where
  seed : Bytes
  verifying : VerifyingKey
  derived : derive? seed = some verifying
  deriving DecidableEq

namespace SigningKey

def ofSeed? (seed : Bytes) : Option SigningKey :=
  match h : derive? seed with
  | some verifying => some ⟨seed, verifying, h⟩
  | none => none

theorem length_seed (key : SigningKey) : key.seed.length = 32 := by
  have := key.derived
  unfold derive? at this
  split at this
  · assumption
  · cases this

@[simp] theorem ofSeed?_seed (key : SigningKey) : ofSeed? key.seed = some key := by
  obtain ⟨seed, verifying, derived⟩ := key
  unfold ofSeed?
  split
  · next found => cases derived.symm.trans found; rfl
  · next found => cases derived.symm.trans found

def ofPair (bytes : Bytes) : Except SignatureFault SigningKey :=
  match VerifyingKey.ofBytes? (bytes.drop 32), ofSeed? (bytes.take 32) with
  | some verifying, some key =>
    if key.verifying = verifying then .ok key else .error .keypairMismatch
  | _, _ => .error .pointDecompression

def sign (key : SigningKey) (message : Bytes) : Bytes :=
  let nonceKey := (Sha512.digest key.seed).drop 32
  let r := scalarOfDigest (Sha512.digest (nonceKey ++ message))
  let commitment := (Edwards25519.base.mul r).encode
  let k := scalarOfDigest (Sha512.digest (commitment ++ key.verifying.bytes ++ message))
  commitment ++
    Bytes.littleEndian 32 ((r + k * secretScalar key.seed) % Edwards25519.order)

end SigningKey

/-- Checks a signature: its second half must be below the order, and its first half the bytes of
`s B - k A`. -/
def verify (key : VerifyingKey) (message signature : Bytes) : Except SignatureFault Unit :=
  if signature.length ≠ 64 then .error .malformed
  else
    let commitment := signature.take 32
    let s := Bytes.toNatLittleEndian (signature.drop 32)
    if Edwards25519.order ≤ s then .error .scalarHighBit
    else
      let k := scalarOfDigest (Sha512.digest (commitment ++ key.bytes ++ message))
      let expected := (Edwards25519.base.mul s).add (key.point.neg.mul k)
      if expected.encode = commitment then .ok () else .error .equation

end LedgerClient.EdDsa
