import LedgerClient.NftId
import LedgerClient.Signer
import LedgerClient.TransactionId

/-!
Texts for logs: the name of a value's type with its written form. Private keys and signers show
their public key and nothing of the secret.
-/

namespace LedgerClient

def inspectText (label text : String) : String :=
  label ++ "(\"" ++ text ++ "\")"

/-- A value of which only the public key is shown. -/
def inspectSecret (label : String) (publicKey : String) : String :=
  label ++ " \x7b public_key: " ++ publicKey ++ ", .. \x7d"

def EntityId.inspect {kind : EntityKind} (id : EntityId kind) : String :=
  inspectText kind.label id.text

def NftId.inspect (id : NftId) : String :=
  inspectText "NftId" id.text

def AccountId.inspect (id : AccountId) : String :=
  inspectText "AccountId" id.text

def TransactionId.inspect (id : TransactionId) : String :=
  inspectText "TransactionId" id.text

def LedgerId.inspect (ledger : LedgerId) : String :=
  inspectText "LedgerId" ledger.text

def EvmAddress.inspect (address : EvmAddress) : String :=
  inspectText "EvmAddress" address.text

def Checksum.inspect (checksum : Checksum) : String :=
  inspectText "Checksum" checksum.text

def PublicKey.inspect (key : PublicKey) : String :=
  inspectText "PublicKey" key.text

def PrivateKey.inspect (key : PrivateKey) : String :=
  inspectSecret "PrivateKey" key.publicKey.inspect

def Signer.inspect (signer : Signer) : String :=
  inspectSecret "Signer" signer.publicKey.inspect

end LedgerClient
