import LedgerClient.Key.Private

/-!
Signers: a public key and a way to produce its signatures. The way may be a private key or any
function, so a signer is not tied to where the secret lives.
-/

namespace LedgerClient

structure Signer where
  publicKey : PublicKey
  sign : Bytes → Bytes

def Signer.ofPrivateKey (key : PrivateKey) : Signer :=
  ⟨key.publicKey, key.sign⟩

end LedgerClient
