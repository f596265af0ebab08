import LedgerClient.Checksum.Basic
import LedgerClient.Time.Duration

/-!
What can go wrong on the client's side, before anything is sent. Every error is a cause; its code
and its message are functions of the cause.
-/

namespace LedgerClient

inductive ErrorCode where
  | operationFrozen
  | operationInvalidArgument
  | idParse
  | idChecksumMismatch
  | keyParse
  | keyListThreshold
  | keySignatureVerify
  deriving DecidableEq

namespace ErrorCode

def all : List ErrorCode :=
  [operationFrozen, operationInvalidArgument, idParse, idChecksumMismatch, keyParse,
    keyListThreshold, keySignatureVerify]

def toNat : ErrorCode → Nat
  | operationFrozen => 4000
  | operationInvalidArgument => 4001
  | idParse => 4100
  | idChecksumMismatch => 4101
  | keyParse => 4200
  | keyListThreshold => 4201
  | keySignatureVerify => 4202

def ofNat? (code : Nat) : Option ErrorCode :=
  all.find? fun candidate => candidate.toNat = code

def name : ErrorCode → String
  | operationFrozen => "OperationFrozen"
  | operationInvalidArgument => "OperationInvalidArgument"
  | idParse => "IdParse"
  | idChecksumMismatch => "IdChecksumMismatch"
  | keyParse => "KeyParse"
  | keyListThreshold => "KeyListThreshold"
  | keySignatureVerify => "KeySignatureVerify"

def text (code : ErrorCode) : String :=
  toString code.toNat

/-- Whether repeating the same call can succeed: no local error goes away by itself. -/
def isRetryable : ErrorCode → Bool
  | operationFrozen | operationInvalidArgument | idParse | idChecksumMismatch | keyParse
  | keyListThreshold | keySignatureVerify => false

def suggestedAction : ErrorCode → String
  | operationFrozen =>
    "Build a new operation. Frozen operations never become mutable again."
  | operationInvalidArgument => "Fix the argument and call again."
  | idParse =>
    "Use the canonical form shard.realm.num[-checksum], or the alias/EVM form for accounts."
  | idChecksumMismatch =>
    "The identifier was copied from a different network. Verify the id and the client's ledger id."
  | keyParse =>
    "Provide a raw Ed25519/ECDSA key or a DER SubjectPublicKeyInfo, hex encoded."
  | keyListThreshold => "Pick a threshold between 1 and the number of keys, or omit it."
  | keySignatureVerify => "Check that the message and signature belong to this key."

theorem ofNat?_toNat (code : ErrorCode) : ofNat? code.toNat = some code := by
  cases code <;> rfl

end ErrorCode

inductive ParseFault where
  | checksumLength
  | checksumLetters
  | emptyLedger
  | hex (fault : Text.HexFault)
  | entityShape
  | notDigits (part : String)
  | number (part : String) (fault : Text.NumberFault)
  | evmAddressLength
  | nftShape
  | accountShape
  | transactionShape
  | timestampShape
  | nonce (part : String) (fault : Text.NumberFault)
  | seconds (part : String) (fault : Text.NumberFault)
  | nanoseconds (part : String)
  | timestampRange
  | amount (part : String) (fault : Text.NumberFault)
  | unit (part : String)
  | envelopeShape (kind : String)
  | envelopeTag (kind : String)
  deriving DecidableEq

def ParseFault.message : ParseFault → String
  | checksumLength => "checksum must be exactly 5 characters"
  | checksumLetters => "checksum must be lowercase ascii letters"
  | emptyLedger => "ledger id must not be empty"
  | hex fault => fault.message
  | entityShape => "expected `shard.realm.num` or `num`"
  | notDigits part => "invalid number '" ++ part ++ "'"
  | number part fault => "invalid number '" ++ part ++ "': " ++ fault.message
  | evmAddressLength => "evm address must be 40 hex characters"
  | nftShape => "expected `token/serial` or `token@serial`"
  | accountShape => "expected an account number, alias key or evm address"
  | transactionShape => "expected `account@seconds.nanos`"
  | timestampShape => "expected `seconds.nanos` after `@`"
  | nonce part fault => "invalid nonce '" ++ part ++ "': " ++ fault.message
  | seconds part fault => "invalid seconds '" ++ part ++ "': " ++ fault.message
  | nanoseconds part => "invalid nanoseconds '" ++ part ++ "'"
  | timestampRange => "timestamp out of range"
  | amount part fault => "invalid amount '" ++ part ++ "': " ++ fault.message
  | unit part => "unknown unit '" ++ part ++ "'"
  | envelopeShape kind => "expected a single `" ++ kind ++ "` entry"
  | envelopeTag kind => "expected a `" ++ kind ++ "` envelope"

inductive KeyKind where
  | ed25519
  | ecdsa
  deriving DecidableEq

def KeyKind.label : KeyKind → String
  | ed25519 => "ed25519"
  | ecdsa => "ecdsa"

inductive SignatureFault where
  | malformed
  | pointDecompression
  | keypairMismatch
  | scalarHighBit
  | equation
  deriving DecidableEq

def SignatureFault.message : SignatureFault → String
  | malformed => "signature error"
  | pointDecompression => "signature error: Cannot decompress Edwards point"
  | keypairMismatch => "signature error: Mismatched Keypair detected"
  | scalarHighBit => "signature error: Cannot use scalar with high-bit set"
  | equation => "signature error: Verification equation was not satisfied"

inductive KeyFault where
  | hex (fault : Text.HexFault)
  | material (kind : KeyKind) (fault : SignatureFault)
  | keypair (fault : SignatureFault)
  | unexpectedKind (expected found : KeyKind)
  | unsupportedPublic
  | unsupportedPrivate
  deriving DecidableEq

def KeyFault.message : KeyFault → String
  | hex fault => "invalid hex: " ++ fault.message
  | material kind fault => "invalid " ++ kind.label ++ " key: " ++ fault.message
  | keypair fault => "invalid ed25519 keypair: " ++ fault.message
  | unexpectedKind expected found => "expected an " ++ expected.label ++ " key, found " ++ found.label
  | unsupportedPublic => "unsupported DER public key"
  | unsupportedPrivate => "unsupported DER private key"

inductive ArgumentFault where
  | solidityShard (shard : UInt64)
  | evmAddressLength (length : Nat)
  | aliasSolidity
  | checksumOfAccount (account : String)
  | fractionalSeconds (subject : String) (duration : Duration)
  | validDurationRange (duration : Duration)
  | chunkNumber (number total : UInt32)
  deriving DecidableEq

def ArgumentFault.message : ArgumentFault → String
  | solidityShard shard => "shard " ++ toString shard.toNat ++ " does not fit a solidity address"
  | evmAddressLength length => "evm address must be 20 bytes, got " ++ toString length
  | aliasSolidity => "alias account ids have no solidity address"
  | checksumOfAccount account => "cannot derive a checksum for " ++ account
  | fractionalSeconds subject duration =>
    subject ++ " must be whole seconds, got " ++ duration.text
  | validDurationRange duration =>
    "transaction valid duration must be within 1..=180 seconds, got " ++
      toString duration.seconds.toNat ++ "s"
  | chunkNumber number total =>
    "chunk number " ++ toString number.toNat ++ " is not within 1..=" ++ toString total.toNat

inductive LedgerError where
  | frozenMutation (field : String)
  | checksumMismatch (entity : String) (expected actual : Checksum) (ledger : LedgerId)
  | parse (input : String) (fault : ParseFault)
  | keyParse (fault : KeyFault)
  | invalidKeyList (threshold : UInt32) (keyCount : Nat)
  | invalidArgument (fault : ArgumentFault)
  | signatureVerify (fault : SignatureFault)
  deriving DecidableEq

namespace LedgerError

def code : LedgerError → ErrorCode
  | frozenMutation _ => .operationFrozen
  | checksumMismatch .. => .idChecksumMismatch
  | parse .. => .idParse
  | keyParse _ => .keyParse
  | invalidKeyList .. => .keyListThreshold
  | invalidArgument _ => .operationInvalidArgument
  | signatureVerify _ => .keySignatureVerify

def message : LedgerError → String
  | frozenMutation field => "Cannot set " ++ field ++ ": operation is frozen"
  | checksumMismatch entity expected actual ledger =>
    "Checksum mismatch for " ++ entity ++ " on " ++ ledger.text ++ ": expected " ++ expected.text ++
      ", got " ++ actual.text
  | parse input fault => "Failed to parse '" ++ input ++ "': " ++ fault.message
  | keyParse fault => "Failed to parse key: " ++ fault.message
  | invalidKeyList threshold keyCount =>
    "Invalid key list: threshold " ++ toString threshold.toNat ++ " not in 1..=" ++ toString keyCount
  | invalidArgument fault => "Invalid argument: " ++ fault.message
  | signatureVerify fault => "Signature verification failed: " ++ fault.message

end LedgerError

end LedgerClient
