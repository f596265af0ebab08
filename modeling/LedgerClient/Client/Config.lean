import LedgerClient.Client.Error
import LedgerClient.Hbar
import LedgerClient.OperationData

/-!
Configurations of a client: its ledger, the account it pays with, the defaults for operations that
leave a fee or a duration unset, and how long it waits.
-/

namespace LedgerClient

structure ClientConfig where
  ledger : LedgerId
  operator : Option AccountId := none
  maxTransactionFee : Option Hbar := none
  maxQueryPayment : Option Hbar := none
  validDuration : Duration := .ofSeconds 120
  timeout : Option Duration := none
  deriving DecidableEq

namespace ClientConfig

def validate (config : ClientConfig) : Except ConfigFault Unit :=
  match config.validDuration.checkValid with
  | .error cause => .error (.validDuration cause)
  | .ok () =>
    if config.maxTransactionFee.any Hbar.isNegative then .error .negativeTransactionFee
    else if config.maxQueryPayment.any Hbar.isNegative then .error .negativeQueryPayment
    else if config.timeout.any Duration.isZero then .error .zeroTimeout
    else .ok ()

def build (config : ClientConfig) : Except ClientError ClientConfig :=
  match config.validate with
  | .ok () => .ok config
  | .error fault => .error (.config fault)

def forMainnet : ClientConfig := { ledger := .mainnet }
def forTestnet : ClientConfig := { ledger := .testnet }
def forPreviewnet : ClientConfig := { ledger := .previewnet }

end ClientConfig

end LedgerClient
