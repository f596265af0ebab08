import LedgerClient.Bytes

/-!
SHA-256, on 32-bit words and blocks of 64 bytes, and the keyed hash HMAC built on it.
-/

namespace LedgerClient.Sha256

structure State where
  (a b c d e f g h : UInt32)

/-- The first 32 bits of the fractional parts of the cube roots of the first 64 primes. -/
def roundConstants : Array UInt32 :=
  #[0x428a2f98, 0x71374491, 0xb5c0fbcf, 0xe9b5dba5, 0x3956c25b, 0x59f111f1, 0x923f82a4, 0xab1c5ed5,
    0xd807aa98, 0x12835b01, 0x243185be, 0x550c7dc3, 0x72be5d74, 0x80deb1fe, 0x9bdc06a7, 0xc19bf174,
    0xe49b69c1, 0xefbe4786, 0x0fc19dc6, 0x240ca1cc, 0x2de92c6f, 0x4a7484aa, 0x5cb0a9dc, 0x76f988da,
    0x983e5152, 0xa831c66d, 0xb00327c8, 0xbf597fc7, 0xc6e00bf3, 0xd5a79147, 0x06ca6351, 0x14292967,
    0x27b70a85, 0x2e1b2138, 0x4d2c6dfc, 0x53380d13, 0x650a7354, 0x766a0abb, 0x81c2c92e, 0x92722c85,
    0xa2bfe8a1, 0xa81a664b, 0xc24b8b70, 0xc76c51a3, 0xd192e819, 0xd6990624, 0xf40e3585, 0x106aa070,
    0x19a4c116, 0x1e376c08, 0x2748774c, 0x34b0bcb5, 0x391c0cb3, 0x4ed8aa4a, 0x5b9cca4f, 0x682e6ff3,
    0x748f82ee, 0x78a5636f, 0x84c87814, 0x8cc70208, 0x90befffa, 0xa4506ceb, 0xbef9a3f7, 0xc67178f2]

def rotateRight (x n : UInt32) : UInt32 :=
  (x >>> n) ||| (x <<< (32 - n))

def upperSigma0 (x : UInt32) : UInt32 :=
  rotateRight x 2 ^^^ rotateRight x 13 ^^^ rotateRight x 22

def upperSigma1 (x : UInt32) : UInt32 :=
  rotateRight x 6 ^^^ rotateRight x 11 ^^^ rotateRight x 25

def lowerSigma0 (x : UInt32) : UInt32 :=
  rotateRight x 7 ^^^ rotateRight x 18 ^^^ (x >>> 3)

def lowerSigma1 (x : UInt32) : UInt32 :=
  rotateRight x 17 ^^^ rotateRight x 19 ^^^ (x >>> 10)

def choose (x y z : UInt32) : UInt32 :=
  (x &&& y) ^^^ (~~~x &&& z)

def majority (x y z : UInt32) : UInt32 :=
  (x &&& y) ^^^ (x &&& z) ^^^ (y &&& z)

def State.round (s : State) (word constant : UInt32) : State :=
  let t₁ := s.h + upperSigma1 s.e + choose s.e s.f s.g + constant + word
  let t₂ := upperSigma0 s.a + majority s.a s.b s.c
  ⟨t₁ + t₂, s.a, s.b, s.c, s.d + t₁, s.e, s.f, s.g⟩

def State.add (s t : State) : State :=
  ⟨s.a + t.a, s.b + t.b, s.c + t.c, s.d + t.d, s.e + t.e, s.f + t.f, s.g + t.g, s.h + t.h⟩

/-- The sixteen words of a block, extended to one word for each round. -/
def schedule (words : Array UInt32) : Array UInt32 :=
  (List.range 48).foldl (fun w t =>
    w.push (lowerSigma1 (w.getD (t + 14) 0) + w.getD (t + 9) 0 + lowerSigma0 (w.getD (t + 1) 0) +
      w.getD t 0)) words

def State.absorb (s : State) (words : Array UInt32) : State :=
  let scheduled := schedule words
  s.add ((List.range 64).foldl (fun state t =>
    state.round (scheduled.getD t 0) (roundConstants.getD t 0)) s)

def zeroCount (length : Nat) : Nat :=
  (119 - length % 64) % 64

/-- The message, a mark byte, zeros to the next block end, and the length in bits. -/
def pad (message : Bytes) : Bytes :=
  message ++ 0x80 :: List.replicate (zeroCount message.length) 0 ++
    Bytes.bigEndian 8 (8 * message.length)

/-- Groups bytes into big-endian words; a rest shorter than a word is dropped. -/
def toWords : Bytes → List UInt32
  | b0 :: b1 :: b2 :: b3 :: rest =>
    .ofNat (Bytes.toNatBigEndian [b0, b1, b2, b3]) :: toWords rest
  | _ => []

/-- Absorbs words sixteen at a time; `count` bounds the number of blocks. -/
def absorbAll : (count : Nat) → State → List UInt32 → State
  | 0, state, _ => state
  | count + 1, state, words =>
    if words.isEmpty then state
    else absorbAll count (state.absorb (words.take 16).toArray) (words.drop 16)

def State.bytes (s : State) : Bytes :=
  [s.a, s.b, s.c, s.d, s.e, s.f, s.g, s.h].flatMap fun word => Bytes.bigEndian 4 word.toNat

def run (start : State) (message : Bytes) : Bytes :=
  let words := toWords (pad message)
  (absorbAll words.length start words).bytes

/-- The first 32 bits of the fractional parts of the square roots of the first eight primes. -/
def start : State :=
  ⟨0x6a09e667, 0xbb67ae85, 0x3c6ef372, 0xa54ff53a, 0x510e527f, 0x9b05688c, 0x1f83d9ab, 0x5be0cd19⟩

def digest (message : Bytes) : Bytes :=
  run start message

/-- A key as one block: hashed first if it is longer, then filled with zeros. -/
def keyBlock (key : Bytes) : Bytes :=
  let key := if key.length ≤ 64 then key else digest key
  key ++ List.replicate (64 - key.length) 0

def hmac (key message : Bytes) : Bytes :=
  let block := keyBlock key
  digest (block.map (· ^^^ 0x5C) ++ digest (block.map (· ^^^ 0x36) ++ message))

end LedgerClient.Sha256
