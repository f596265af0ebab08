import LedgerClient.Key.Private
import LedgerClient.Proofs.Bytes
import LedgerClient.Proofs.Curve.Edwards25519
import LedgerClient.Proofs.Curve.Secp256k1

/-! Which secrets are keys. Every 32 bytes are the seed of an Ed25519 key, and every number between
zero and the order of the curve is the secret of an ECDSA key. -/

namespace LedgerClient

/-- The verifying key of a seed is a multiple of the base point, whose bytes are those of a point. -/
theorem EdDsa.exists_derive? {seed : Bytes} (h : seed.length = 32) :
    ∃ verifying, derive? seed = some verifying := by
  have valid := @Edwards25519.Point.Valid.mul _ (secretScalar seed) Edwards25519.Point.valid_base
  have point := congrArg Option.isSome (Edwards25519.decode?_encode valid)
  rw [derive?, if_pos h, VerifyingKey.ofBytes?]
  exact ⟨_, dif_pos point⟩

namespace EdDsa.SigningKey

theorem ofSeed?_eq_some_iff {seed : Bytes} {key : SigningKey} :
    ofSeed? seed = some key ↔ seed = key.seed := by
  constructor
  · intro read
    unfold ofSeed? at read
    split at read
    · cases read
      rfl
    · cases read
  · rintro rfl
    exact key.ofSeed?_seed

theorem exists_ofSeed?_iff {seed : Bytes} :
    (∃ key, ofSeed? seed = some key) ↔ seed.length = 32 := by
  constructor
  · rintro ⟨key, read⟩
    rw [ofSeed?_eq_some_iff.mp read]
    exact key.length_seed
  · intro length
    obtain ⟨verifying, derived⟩ := exists_derive? length
    exact ⟨⟨seed, verifying, derived⟩, ofSeed?_eq_some_iff.mpr rfl⟩

end EdDsa.SigningKey

namespace Ecdsa

theorem VerifyingKey.exists_ofAffine? {x y : Nat}
    (lifted : Secp256k1.liftX? x (decide (y % 2 = 1)) = some y) :
    ∃ key, ofAffine? x y = some key := by
  have isPoint : (Secp256k1.liftX? x (decide (y % 2 = 1))).isSome = true := by rw [lifted]; rfl
  have same : VerifyingKey.y ⟨x, decide (y % 2 = 1), isPoint⟩ = y := Option.get_of_eq_some _ lifted
  refine ⟨⟨x, decide (y % 2 = 1), isPoint⟩, ?_⟩
  simp [ofAffine?, ofCompressed?, isPoint, same]

theorem isScalar_iff {n : Nat} : isScalar n = true ↔ 0 < n ∧ n < Secp256k1.order := by
  rw [isScalar, Bool.and_eq_true, decide_eq_true_eq, decide_eq_true_eq]

/-- The verifying key of a scalar is a multiple of the base point other than infinity. -/
theorem exists_derive?_iff {secret : Nat} :
    (∃ verifying, derive? secret = some verifying) ↔ isScalar secret = true := by
  constructor
  · rintro ⟨verifying, derived⟩
    obtain ⟨_, inRange, -⟩ := Option.bind_eq_some_iff.mp derived
    exact (Option.guard_eq_some' _).mp inRange
  · intro scalar
    obtain ⟨positive, below⟩ := isScalar_iff.mp scalar
    have finite := Secp256k1.nsmul_generator_ne_zero positive below
    have multiple := @Secp256k1.Point.Denotes.mul _ _ secret Secp256k1.denotes_base
    generalize secret • Secp256k1.generator = point at finite multiple
    cases point with
    | zero => exact absurd rfl finite
    | some x y nonsingular =>
      obtain ⟨x', y', affine, hx, hy, rfl, rfl⟩ := multiple.affine?
      obtain ⟨key, found⟩ :=
        VerifyingKey.exists_ofAffine? (Secp256k1.liftX?_of_nonsingular hx hy nonsingular)
      refine ⟨key, ?_⟩
      simp [derive?, scalar, affine, found]

end Ecdsa

namespace Ecdsa.SigningKey

theorem secret_of_ofSecret? {secret : Nat} {key : SigningKey} (read : ofSecret? secret = some key) :
    key.secret = secret := by
  unfold ofSecret? at read
  split at read
  · cases read
    rfl
  · cases read

theorem exists_ofSecret?_iff {secret : Nat} :
    (∃ key, ofSecret? secret = some key) ↔ isScalar secret = true := by
  rw [← exists_derive?_iff]
  constructor
  · rintro ⟨key, read⟩
    exact ⟨key.verifying, secret_of_ofSecret? read ▸ key.derived⟩
  · rintro ⟨verifying, derived⟩
    exact ⟨⟨secret, verifying, derived⟩, ofSecret?_secret ⟨secret, verifying, derived⟩⟩

theorem secret_lt (key : SigningKey) : key.secret < 256 ^ 32 := by
  have scalar := isScalar_iff.mp (exists_derive?_iff.mp ⟨_, key.derived⟩)
  exact Nat.lt_trans scalar.2 (by decide +kernel)

theorem length_bytes (key : SigningKey) : key.bytes.length = 32 :=
  Bytes.length_bigEndian 32 key.secret

theorem ofBytes?_eq_some_iff {bytes : Bytes} {key : SigningKey} :
    ofBytes? bytes = some key ↔ bytes = key.bytes := by
  constructor
  · intro read
    rw [ofBytes?] at read
    split at read
    · next length =>
      have digits := Bytes.bigEndian_toNatBigEndian bytes
      rw [SigningKey.bytes, secret_of_ofSecret? read, ← length, digits]
    · cases read
  · rintro rfl
    have value : Bytes.toNatBigEndian key.bytes = key.secret :=
      Bytes.toNatBigEndian_bigEndian key.secret_lt
    rw [ofBytes?, if_pos key.length_bytes, value, ofSecret?_secret]

end Ecdsa.SigningKey

namespace PrivateKey

variable {bytes : Bytes} {key : PrivateKey}

theorem length_rawBytes (key : PrivateKey) : key.rawBytes.length = 32 := by
  cases key with
  | ed25519 key => exact key.length_seed
  | ecdsa key => exact key.length_bytes

theorem ofSeed_eq_ok_iff : ofSeed bytes = .ok key ↔ key.kind = .ed25519 ∧ bytes = key.rawBytes := by
  rw [ofSeed]
  cases key with
  | ed25519 key =>
    rw [rawBytes, ← EdDsa.SigningKey.ofSeed?_eq_some_iff]
    cases EdDsa.SigningKey.ofSeed? bytes <;> simp [kind]
  | ecdsa key => cases EdDsa.SigningKey.ofSeed? bytes <;> simp [kind]

theorem exists_ofSeed_iff : (∃ key, ofSeed bytes = .ok key) ↔ bytes.length = 32 := by
  rw [← EdDsa.SigningKey.exists_ofSeed?_iff, ofSeed]
  cases EdDsa.SigningKey.ofSeed? bytes <;> simp

theorem ofSecret_eq_ok_iff : ofSecret bytes = .ok key ↔ key.kind = .ecdsa ∧ bytes = key.rawBytes := by
  rw [ofSecret]
  cases key with
  | ed25519 key => cases Ecdsa.SigningKey.ofBytes? bytes <;> simp [kind]
  | ecdsa key =>
    rw [rawBytes, ← Ecdsa.SigningKey.ofBytes?_eq_some_iff]
    cases Ecdsa.SigningKey.ofBytes? bytes <;> simp [kind]

theorem exists_ofSecret_iff :
    (∃ key, ofSecret bytes = .ok key) ↔
      bytes.length = 32 ∧ Ecdsa.isScalar (Bytes.toNatBigEndian bytes) = true := by
  rw [← Ecdsa.SigningKey.exists_ofSecret?_iff, ofSecret, Ecdsa.SigningKey.ofBytes?]
  by_cases length : bytes.length = 32
  · rw [if_pos length]
    cases Ecdsa.SigningKey.ofSecret? (Bytes.toNatBigEndian bytes) <;> simp [length]
  · simp [length]

end PrivateKey

end LedgerClient
