import LedgerClient.Bytes

/-!
SHA-512 and its shortened variant SHA-384, on 64-bit words and blocks of 128 bytes.
-/

namespace LedgerClient.Sha512

structure State where
  (a b c d e f g h : UInt64)

/-- The first 64 bits of the fractional parts of the cube roots of the first 80 primes. -/
def roundConstants : Array UInt64 :=
  #[0x428a2f98d728ae22, 0x7137449123ef65cd, 0xb5c0fbcfec4d3b2f, 0xe9b5dba58189dbbc,
    0x3956c25bf348b538, 0x59f111f1b605d019, 0x923f82a4af194f9b, 0xab1c5ed5da6d8118,
    0xd807aa98a3030242, 0x12835b0145706fbe, 0x243185be4ee4b28c, 0x550c7dc3d5ffb4e2,
    0x72be5d74f27b896f, 0x80deb1fe3b1696b1, 0x9bdc06a725c71235, 0xc19bf174cf692694,
    0xe49b69c19ef14ad2, 0xefbe4786384f25e3, 0x0fc19dc68b8cd5b5, 0x240ca1cc77ac9c65,
    0x2de92c6f592b0275, 0x4a7484aa6ea6e483, 0x5cb0a9dcbd41fbd4, 0x76f988da831153b5,
    0x983e5152ee66dfab, 0xa831c66d2db43210, 0xb00327c898fb213f, 0xbf597fc7beef0ee4,
    0xc6e00bf33da88fc2, 0xd5a79147930aa725, 0x06ca6351e003826f, 0x142929670a0e6e70,
    0x27b70a8546d22ffc, 0x2e1b21385c26c926, 0x4d2c6dfc5ac42aed, 0x53380d139d95b3df,
    0x650a73548baf63de, 0x766a0abb3c77b2a8, 0x81c2c92e47edaee6, 0x92722c851482353b,
    0xa2bfe8a14cf10364, 0xa81a664bbc423001, 0xc24b8b70d0f89791, 0xc76c51a30654be30,
    0xd192e819d6ef5218, 0xd69906245565a910, 0xf40e35855771202a, 0x106aa07032bbd1b8,
    0x19a4c116b8d2d0c8, 0x1e376c085141ab53, 0x2748774cdf8eeb99, 0x34b0bcb5e19b48a8,
    0x391c0cb3c5c95a63, 0x4ed8aa4ae3418acb, 0x5b9cca4f7763e373, 0x682e6ff3d6b2b8a3,
    0x748f82ee5defb2fc, 0x78a5636f43172f60, 0x84c87814a1f0ab72, 0x8cc702081a6439ec,
    0x90befffa23631e28, 0xa4506cebde82bde9, 0xbef9a3f7b2c67915, 0xc67178f2e372532b,
    0xca273eceea26619c, 0xd186b8c721c0c207, 0xeada7dd6cde0eb1e, 0xf57d4f7fee6ed178,
    0x06f067aa72176fba, 0x0a637dc5a2c898a6, 0x113f9804bef90dae, 0x1b710b35131c471b,
    0x28db77f523047d84, 0x32caab7b40c72493, 0x3c9ebe0a15c9bebc, 0x431d67c49c100d4c,
    0x4cc5d4becb3e42b6, 0x597f299cfc657e2a, 0x5fcb6fab3ad6faec, 0x6c44198c4a475817]

def rotateRight (x n : UInt64) : UInt64 :=
  (x >>> n) ||| (x <<< (64 - n))

def upperSigma0 (x : UInt64) : UInt64 :=
  rotateRight x 28 ^^^ rotateRight x 34 ^^^ rotateRight x 39

def upperSigma1 (x : UInt64) : UInt64 :=
  rotateRight x 14 ^^^ rotateRight x 18 ^^^ rotateRight x 41

def lowerSigma0 (x : UInt64) : UInt64 :=
  rotateRight x 1 ^^^ rotateRight x 8 ^^^ (x >>> 7)

def lowerSigma1 (x : UInt64) : UInt64 :=
  rotateRight x 19 ^^^ rotateRight x 61 ^^^ (x >>> 6)

def choose (x y z : UInt64) : UInt64 :=
  (x &&& y) ^^^ (~~~x &&& z)

def majority (x y z : UInt64) : UInt64 :=
  (x &&& y) ^^^ (x &&& z) ^^^ (y &&& z)

def State.round (s : State) (word constant : UInt64) : State :=
  let t₁ := s.h + upperSigma1 s.e + choose s.e s.f s.g + constant + word
  let t₂ := upperSigma0 s.a + majority s.a s.b s.c
  ⟨t₁ + t₂, s.a, s.b, s.c, s.d + t₁, s.e, s.f, s.g⟩

def State.add (s t : State) : State :=
  ⟨s.a + t.a, s.b + t.b, s.c + t.c, s.d + t.d, s.e + t.e, s.f + t.f, s.g + t.g, s.h + t.h⟩

def schedule (words : Array UInt64) : Array UInt64 :=
  (List.range 64).foldl (fun w t =>
    w.push (lowerSigma1 (w.getD (t + 14) 0) + w.getD (t + 9) 0 + lowerSigma0 (w.getD (t + 1) 0) +
      w.getD t 0)) words

def State.absorb (s : State) (words : Array UInt64) : State :=
  let scheduled := schedule words
  s.add ((List.range 80).foldl (fun state t =>
    state.round (scheduled.getD t 0) (roundConstants.getD t 0)) s)

def zeroCount (length : Nat) : Nat :=
  (239 - length % 128) % 128

def pad (message : Bytes) : Bytes :=
  message ++ 0x80 :: List.replicate (zeroCount message.length) 0 ++
    Bytes.bigEndian 16 (8 * message.length)

def toWords : Bytes → List UInt64
  | b0 :: b1 :: b2 :: b3 :: b4 :: b5 :: b6 :: b7 :: rest =>
    .ofNat (Bytes.toNatBigEndian [b0, b1, b2, b3, b4, b5, b6, b7]) :: toWords rest
  | _ => []

def absorbAll : (count : Nat) → State → List UInt64 → State
  | 0, state, _ => state
  | count + 1, state, words =>
    if words.isEmpty then state
    else absorbAll count (state.absorb (words.take 16).toArray) (words.drop 16)

def State.bytes (s : State) : Bytes :=
  [s.a, s.b, s.c, s.d, s.e, s.f, s.g, s.h].flatMap fun word => Bytes.bigEndian 8 word.toNat

def run (start : State) (message : Bytes) : Bytes :=
  let words := toWords (pad message)
  (absorbAll words.length start words).bytes

/-- The first 64 bits of the fractional parts of the square roots of the first eight primes. -/
def start512 : State :=
  ⟨0x6a09e667f3bcc908, 0xbb67ae8584caa73b, 0x3c6ef372fe94f82b, 0xa54ff53a5f1d36f1,
    0x510e527fade682d1, 0x9b05688c2b3e6c1f, 0x1f83d9abfb41bd6b, 0x5be0cd19137e2179⟩

def digest (message : Bytes) : Bytes :=
  run start512 message

/-- The first 64 bits of the fractional parts of the square roots of the next eight primes. -/
def start384 : State :=
  ⟨0xcbbb9d5dc1059ed8, 0x629a292a367cd507, 0x9159015a3070dd17, 0x152fecd8f70e5939,
    0x67332667ffc00b31, 0x8eb44a8768581511, 0xdb0c2e0d64f98fa7, 0x47b5481dbefa4fa4⟩

/-- The 48-byte digest: another start state, and the end cut off. -/
def digest384 (message : Bytes) : Bytes :=
  (run start384 message).take 48

end LedgerClient.Sha512
