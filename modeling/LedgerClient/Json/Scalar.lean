import LedgerClient.Hbar
import LedgerClient.Json.Codec
import LedgerClient.LedgerId.Notation
import LedgerClient.NftId
import LedgerClient.Time.Timestamp
import LedgerClient.TransactionId

/-!
Codecs of the types that take up a single JSON text or number: ids, addresses, keys and ledgers in
their written form, amounts in tinybars, spans of time in seconds, and instants as timestamps.
-/

namespace LedgerClient

def EntityId.codec {kind : EntityKind} : Codec (EntityId kind) :=
  .text EntityId.text EntityId.parse

def AccountId.codec : Codec AccountId :=
  .text AccountId.text AccountId.parse

def NftId.codec : Codec NftId :=
  .text NftId.text NftId.parse

def TransactionId.codec : Codec TransactionId :=
  .text TransactionId.text TransactionId.parse

def LedgerId.codec : Codec LedgerId :=
  .text LedgerId.text LedgerId.parse

def EvmAddress.codec : Codec EvmAddress :=
  .text EvmAddress.text EvmAddress.parse

def Checksum.codec : Codec Checksum :=
  .text Checksum.text Checksum.parse

def PublicKey.codec : Codec PublicKey :=
  .text PublicKey.text PublicKey.parse

def Hbar.codec : Codec Hbar where
  encode amount := Codec.int64.encode amount.tinybars
  decode json := Hbar.mk <$> Codec.int64.decode json

/-- A span as the nearest count of seconds; half a second counts up. -/
def Duration.codec : Codec Duration where
  encode d := Codec.uint64.encode (if 500000000 ≤ d.nanos then d.seconds + 1 else d.seconds)
  decode json := Duration.ofSeconds <$> Codec.uint64.decode json

def Instant.codec : Codec Instant where
  encode t := .string (Timestamp.text t)
  decode
    | .string value => Codec.ofOption (Timestamp.parse? value)
    | _ => .error .malformed

end LedgerClient
