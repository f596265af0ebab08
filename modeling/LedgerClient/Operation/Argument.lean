import LedgerClient.Json.Tree
import LedgerClient.Key.List

/-!
Arguments given as JSON, for callers that learn only at run time what they call. A value may be
given in its written form. Besides, ids may be given by their number, accounts, keys and transaction
ids by their parts, and amounts in tinybars; byte strings are given in hexadecimal, spans and
instants by their seconds and nanoseconds.
-/

namespace LedgerClient

/-- Why a call given by its name and JSON arguments is not made. -/
inductive CallFault where
  | unknownMethod (name : String)
  | malformedArgument
  | rejected (cause : LedgerError)
  | undecodable (fault : DecodeFault)
  | instantRange
  deriving DecidableEq

instance : MonadLift (Except LedgerError) (Except CallFault) where
  monadLift
    | .ok value => .ok value
    | .error cause => .error (.rejected cause)

instance : MonadLift Decoded (Except CallFault) where
  monadLift
    | .ok value => .ok value
    | .error fault => .error (.undecodable fault)

abbrev Argument (α : Type) := Json → Except CallFault α

namespace Argument

variable {α : Type}

def ofOption : Option α → Except CallFault α
  | some value => .ok value
  | none => .error .malformedArgument

/-- What a codec reads; the reason of a fault is not kept. -/
def ofCodec (codec : Codec α) : Argument α := fun json =>
  ofOption (codec.decode json).toOption

def text : Argument String := ofCodec Codec.string
def flag : Argument Bool := ofCodec Codec.bool
def uint64 : Argument UInt64 := ofCodec Codec.uint64
def uint32 : Argument UInt32 := ofCodec Codec.uint32
def bytes : Argument Bytes := ofCodec Codec.hexBytes

def integer : Argument Int
  | .number value => ofOption value.toInt?
  | _ => .error .malformedArgument

def items : Argument (List Json)
  | .array values _ => .ok values
  | _ => .error .malformedArgument

def list (read : Argument α) : Argument (List α) := fun json => do
  (← items json).mapM read

/-- The member with a name; null counts as missing. -/
def find? (name : String) (json : Json) : Option Json :=
  match json.member? name with
  | some .null => none
  | found => found

def optional (name : String) (read : Argument α) : Argument (Option α) := fun json =>
  match find? name json with
  | some value => some <$> read value
  | none => .ok none

def member (name : String) (read : Argument α) : Argument α := fun json => do
  read (← ofOption (find? name json))

def duration : Argument Duration := fun json => do
  let seconds ← member "secs" uint64 json
  let nanos ← optional "nanos" uint32 json
  ofOption (Duration.ofParts? seconds (nanos.getD 0).toNat)

def instant : Argument Instant := fun json => do
  let seconds ← member "secs" integer json
  let nanos ← optional "nanos" uint32 json
  match Instant.ofParts? seconds (nanos.getD 0).toNat with
  | some instant => return instant
  | none => throw .instantRange

def hbar : Argument Hbar
  | .string value => Hbar.parse value
  | json => ofCodec Hbar.codec json

/-- Shard and realm, which are zero if missing, and one of alias key, EVM address and number. -/
def accountBase : Argument AccountId := fun json => do
  let shard := (← optional "shard" uint64 json).getD 0
  let realm := (← optional "realm" uint64 json).getD 0
  if let some key ← optional "alias" text json then
    return .ofKey shard realm (← PublicKey.parse key)
  if let some address ← optional "evm" text json then
    return .ofAddress shard realm (← EvmAddress.parse address)
  return .new shard realm (← member "num" uint64 json)

def accountParts : Argument AccountId := fun json => do
  let account ← accountBase json
  match ← optional "checksum" text json with
  | some checksum => return account.withChecksum (← Checksum.parse checksum)
  | none => return account

def account : Argument AccountId
  | .string value => AccountId.parse value
  | .number value => AccountId.ofNum <$> uint64 (.number value)
  | json => accountParts json

def entity {kind : EntityKind} : Argument (EntityId kind)
  | .string value => EntityId.parse value
  | .number value => EntityId.ofNum <$> uint64 (.number value)
  | json => do
    let id : EntityId .entity ← EntityId.parse (← member "entity" text json)
    return id.cast

def nft : Argument NftId := fun json => do
  NftId.parse (← text json)

def key : Argument Key
  | .string value => Key.codec.decodeText value
  | json => do
    if let some id ← optional "contract" text json then
      return .contract (← EntityId.parse id)
    if let some key ← optional "public" text json then
      return .single (← PublicKey.parse key)
    return (← KeyList.codec.decodeText (← member "list" text json)).toKey

def transactionId : Argument TransactionId
  | .string value => TransactionId.parse value
  | json => do
    let account ← member "account" account json
    let validStart ← instant json
    let scheduled := (← optional "scheduled" flag json).getD false
    let nonce := (← optional "nonce" integer json).map Int32.ofInt
    return { account, validStart, scheduled, nonce }

end Argument

end LedgerClient
