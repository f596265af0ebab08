import LedgerClient.Error
import LedgerClient.Text.Split

/-!
EVM addresses: 20 bytes, written as `0x` and 40 hexadecimal digits. The long-zero address of an
entity holds its shard in 4 bytes, its realm in 8 and its number in 8, each most significant byte
first.
-/

namespace LedgerClient

structure EvmAddress where
  bytes : Bytes
  length_bytes : bytes.length = 20
  deriving DecidableEq

namespace EvmAddress

def ofBytes (bytes : Bytes) : Except LedgerError EvmAddress :=
  if h : bytes.length = 20 then .ok ⟨bytes, h⟩
  else .error (.invalidArgument (.evmAddressLength bytes.length))

/-- The digits without the leading `0x`. -/
def hex (address : EvmAddress) : String :=
  Text.Hex.encode address.bytes

def text (address : EvmAddress) : String :=
  "0x" ++ address.hex

/-- Reads 40 digits, with or without one leading `0x`. -/
def parse (input : String) : Except LedgerError EvmAddress :=
  let digits := String.ofList (Text.dropLead ['0', 'x'] input.toList)
  if digits.utf8ByteSize ≠ 40 then .error (.parse input .evmAddressLength)
  else match Text.Hex.decode digits with
    | .error fault => .error (.parse input (.hex fault))
    | .ok bytes =>
      if h : bytes.length = 20 then .ok ⟨bytes, h⟩ else .error (.parse input .evmAddressLength)

/-- The long-zero address of an entity; its shard must fit four bytes. -/
def ofEntity (shard realm num : UInt64) : Except LedgerError EvmAddress :=
  if shard.toNat < UInt32.size then
    .ok ⟨Bytes.bigEndian 4 shard.toNat ++ Bytes.bigEndian 8 realm.toNat ++
      Bytes.bigEndian 8 num.toNat, by simp⟩
  else .error (.invalidArgument (.solidityShard shard))

def shard (address : EvmAddress) : UInt64 :=
  .ofNat (Bytes.toNatBigEndian (address.bytes.take 4))

def realm (address : EvmAddress) : UInt64 :=
  .ofNat (Bytes.toNatBigEndian ((address.bytes.drop 4).take 8))

def num (address : EvmAddress) : UInt64 :=
  .ofNat (Bytes.toNatBigEndian (address.bytes.drop 12))

end EvmAddress

end LedgerClient
