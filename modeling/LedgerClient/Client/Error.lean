import LedgerClient.Json.Codec

/-!
Errors of a client: those found locally, those the engine reports, answers that do not fit the
expected type, completions that are dropped, and invalid configurations.
-/

namespace LedgerClient

/-- The engine's error codes; every 16-bit number is one. -/
inductive EngineErrorCode where
  | timedOut
  | grpcStatus
  | fromProtobuf
  | transactionPreCheckStatus
  | transactionNoIdPreCheckStatus
  | queryPreCheckStatus
  | queryPaymentPreCheckStatus
  | queryNoPaymentPreCheckStatus
  | basicParse
  | keyParse
  | keyDerive
  | noPayerAccountOrTransactionId
  | maxQueryPaymentExceeded
  | nodeAccountUnknown
  | responseStatusUnrecognized
  | receiptStatus
  | signature
  | requestParse
  | signatureVerify
  | badEntityId
  | wrongKeyType
  | freezeUnsetNodeAccountIds
  | unknown (code : UInt16)
  deriving DecidableEq

namespace EngineErrorCode

/-- The codes with a meaning, in the order of their numbers, which begin at 1. -/
def known : List (EngineErrorCode × String) :=
  [ (timedOut, "TimedOut"),
    (grpcStatus, "GrpcStatus"),
    (fromProtobuf, "FromProtobuf"),
    (transactionPreCheckStatus, "TransactionPreCheckStatus"),
    (transactionNoIdPreCheckStatus, "TransactionNoIdPreCheckStatus"),
    (queryPreCheckStatus, "QueryPreCheckStatus"),
    (queryPaymentPreCheckStatus, "QueryPaymentPreCheckStatus"),
    (queryNoPaymentPreCheckStatus, "QueryNoPaymentPreCheckStatus"),
    (basicParse, "BasicParse"),
    (keyParse, "KeyParse"),
    (keyDerive, "KeyDerive"),
    (noPayerAccountOrTransactionId, "NoPayerAccountOrTransactionId"),
    (maxQueryPaymentExceeded, "MaxQueryPaymentExceeded"),
    (nodeAccountUnknown, "NodeAccountUnknown"),
    (responseStatusUnrecognized, "ResponseStatusUnrecognized"),
    (receiptStatus, "ReceiptStatus"),
    (signature, "Signature"),
    (requestParse, "RequestParse"),
    (signatureVerify, "SignatureVerify"),
    (badEntityId, "BadEntityId"),
    (wrongKeyType, "WrongKeyType"),
    (freezeUnsetNodeAccountIds, "FreezeUnsetNodeAccountIds") ]

def ofNumber (number : UInt16) : EngineErrorCode :=
  if number = 0 then unknown 0
  else ((known[number.toNat - 1]?).map Prod.fst).getD (unknown number)

def number : EngineErrorCode → UInt16
  | unknown code => code
  | code => .ofNat (known.findIdx (·.1 = code) + 1)

def text : EngineErrorCode → String
  | unknown code => "unknown code " ++ toString code.toNat
  | code => ((known.find? (·.1 = code)).map Prod.snd).getD ""

def isUnknown : EngineErrorCode → Bool
  | unknown _ => true
  | _ => false

end EngineErrorCode

structure EngineError where
  code : EngineErrorCode
  message : String
  deriving DecidableEq

def EngineError.ofNumber (code : UInt16) (message : String) : EngineError :=
  ⟨.ofNumber code, message⟩

inductive ConfigFault where
  | validDuration (cause : LedgerError)
  | negativeTransactionFee
  | negativeQueryPayment
  | zeroTimeout
  deriving DecidableEq

def ConfigFault.message : ConfigFault → String
  | validDuration cause => cause.message
  | negativeTransactionFee => "default max transaction fee must not be negative"
  | negativeQueryPayment => "default max query payment must not be negative"
  | zeroTimeout => "request timeout must be non-zero"

inductive ClientError where
  /-- Found before anything was sent. -/
  | rejected (cause : LedgerError)
  | engine (error : EngineError)
  /-- Text or an answer for this kind of operation is not of its type. -/
  | undecodable (kind : String) (fault : DecodeFault)
  | completionDropped (kind : String)
  | config (fault : ConfigFault)
  deriving DecidableEq

namespace ClientError

/-- The message of every error but undecodable text, whose wording is not fixed. -/
def message : ClientError → String
  | rejected cause => cause.message
  | engine error => "Engine error (" ++ error.code.text ++ "): " ++ error.message
  | undecodable kind _ => "Failed to decode the " ++ kind ++ " response"
  | completionDropped kind =>
    "Execution engine dropped the completion for " ++ kind ++ " without a result"
  | config fault => "Configuration error: " ++ fault.message

def isTimeout : ClientError → Bool
  | engine error => error.code = .timedOut
  | _ => false

end ClientError

end LedgerClient
