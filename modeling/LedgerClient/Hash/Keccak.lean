import LedgerClient.Bytes

/-!
Keccak-256 with the mark byte 1: a sponge over 25 lanes of 64 bits that absorbs 136 bytes at a time.
Lane `x + 5 y` stands in column `x` and row `y`.
-/

namespace LedgerClient.Keccak

/-- The constants that are added to lane 0, one for each round. -/
def roundConstants : List UInt64 :=
  [0x0000000000000001, 0x0000000000008082, 0x800000000000808a, 0x8000000080008000,
    0x000000000000808b, 0x0000000080000001, 0x8000000080008081, 0x8000000000008009,
    0x000000000000008a, 0x0000000000000088, 0x0000000080008009, 0x000000008000000a,
    0x000000008000808b, 0x800000000000008b, 0x8000000000008089, 0x8000000000008003,
    0x8000000000008002, 0x8000000000000080, 0x000000000000800a, 0x800000008000000a,
    0x8000000080008081, 0x8000000000008080, 0x0000000080000001, 0x8000000080008008]

/-- How far each lane is rotated. -/
def offsets : Array UInt64 :=
  #[0, 1, 62, 28, 27, 36, 44, 6, 55, 20, 3, 10, 43,
    25, 39, 41, 45, 15, 21, 8, 18, 2, 61, 56, 14]

def rotateLeft (x n : UInt64) : UInt64 :=
  (x <<< n) ||| (x >>> ((64 - n) % 64))

def lanes (rule : Nat → Nat → UInt64) : Array UInt64 :=
  ((List.range 25).map fun i => rule (i % 5) (i / 5)).toArray

def lane (state : Array UInt64) (x y : Nat) : UInt64 :=
  state.getD (x % 5 + 5 * (y % 5)) 0

/-- Adds to every lane the parities of two neighbouring columns. -/
def theta (state : Array UInt64) : Array UInt64 :=
  let parity := ((List.range 5).map fun x =>
    lane state x 0 ^^^ lane state x 1 ^^^ lane state x 2 ^^^ lane state x 3 ^^^ lane state x 4).toArray
  lanes fun x y =>
    lane state x y ^^^ parity.getD ((x + 4) % 5) 0 ^^^ rotateLeft (parity.getD ((x + 1) % 5) 0) 1

/-- Rotates the lanes and moves them: column `x + 3 y` and row `x` go to column `x` and row `y`. -/
def rhoPi (state : Array UInt64) : Array UInt64 :=
  let rotated := lanes fun x y => rotateLeft (lane state x y) (offsets.getD (x + 5 * y) 0)
  lanes fun x y => lane rotated (x + 3 * y) x

/-- Mixes each row, the only step that is not linear. -/
def chi (state : Array UInt64) : Array UInt64 :=
  lanes fun x y => lane state x y ^^^ (~~~lane state (x + 1) y &&& lane state (x + 2) y)

def round (state : Array UInt64) (constant : UInt64) : Array UInt64 :=
  let mixed := chi (rhoPi (theta state))
  mixed.setIfInBounds 0 (mixed.getD 0 0 ^^^ constant)

def permute (state : Array UInt64) : Array UInt64 :=
  roundConstants.foldl round state

/-- Bytes absorbed between two permutations. -/
def rate : Nat := 136

/-- The message and its end mark, filled up to a multiple of the rate. -/
def pad (message : Bytes) : Bytes :=
  match rate - message.length % rate with
  | 1 => message ++ [0x81]
  | count => message ++ 0x01 :: List.replicate (count - 2) 0 ++ [0x80]

/-- Groups bytes into little-endian lanes; a rest shorter than a lane is dropped. -/
def toLanes : Bytes → List UInt64
  | b0 :: b1 :: b2 :: b3 :: b4 :: b5 :: b6 :: b7 :: rest =>
    .ofNat (Bytes.toNatLittleEndian [b0, b1, b2, b3, b4, b5, b6, b7]) :: toLanes rest
  | _ => []

/-- Absorbs 17 lanes at a time; `count` bounds the number of permutations. -/
def absorbAll : (count : Nat) → Array UInt64 → List UInt64 → Array UInt64
  | 0, state, _ => state
  | count + 1, state, input =>
    if input.isEmpty then state
    else
      let block := input.take 17
      let mixed := (state.toList.zip (block ++ List.replicate (25 - block.length) 0)).map
        fun (a, b) => a ^^^ b
      absorbAll count (permute mixed.toArray) (input.drop 17)

def digest (message : Bytes) : Bytes :=
  let input := toLanes (pad message)
  let state := absorbAll input.length (List.replicate 25 0).toArray input
  (state.toList.take 4).flatMap fun lane => Bytes.littleEndian 8 lane.toNat

end LedgerClient.Keccak
