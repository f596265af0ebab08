import LedgerClient.Der
import LedgerClient.EvmAddress
import LedgerClient.Signature.EdDsa
import LedgerClient.Signature.Ecdsa
import LedgerClient.Text.Split

/-!
Public keys of both algorithms and their encodings: raw bytes (32 for Ed25519, a compressed point
for ECDSA), the distinguished encoding of a subject public key, and the hexadecimal text of either.
-/

namespace LedgerClient

inductive PublicKey where
  | ed25519 (key : EdDsa.VerifyingKey)
  | ecdsa (key : Ecdsa.VerifyingKey)
  deriving DecidableEq

namespace KeyAlgorithm

def ed25519 : Bytes := [0x2B, 0x65, 0x70]

def ellipticCurve : Bytes := [0x2A, 0x86, 0x48, 0xCE, 0x3D, 0x02, 0x01]

def secp256k1 : Bytes := [0x2B, 0x81, 0x04, 0x00, 0x0A]

/-- Whether an algorithm is Ed25519, which has no parameters. -/
def isEd25519 (algorithm : Der.Algorithm) : Bool :=
  algorithm.identifier == ed25519 && algorithm.parameters.isNone

def isSecp256k1 (algorithm : Der.Algorithm) : Bool :=
  algorithm.identifier == ellipticCurve &&
    algorithm.parameters.any fun parameters =>
      parameters.tag == Der.Tag.objectIdentifier && parameters.contents == secp256k1

end KeyAlgorithm

/-- Reads the hexadecimal text of a key, with or without one leading `0x`. -/
def decodeKeyText (text : String) : Except LedgerError Bytes :=
  match Text.Hex.decode (String.ofList (Text.dropLead ['0', 'x'] text.toList)) with
  | .ok bytes => .ok bytes
  | .error fault => .error (.keyParse (.hex fault))

namespace PublicKey

def kind : PublicKey → KeyKind
  | ed25519 _ => .ed25519
  | ecdsa _ => .ecdsa

/-- What precedes the raw bytes of a key in its distinguished encoding. -/
def derLead : KeyKind → Bytes
  | .ed25519 => [0x30, 0x2A, 0x30, 0x05, 0x06, 0x03, 0x2B, 0x65, 0x70, 0x03, 0x21, 0x00]
  | .ecdsa =>
    [0x30, 0x36, 0x30, 0x10, 0x06, 0x07, 0x2A, 0x86, 0x48, 0xCE, 0x3D, 0x02, 0x01, 0x06, 0x05, 0x2B,
      0x81, 0x04, 0x00, 0x0A, 0x03, 0x22, 0x00]

def rawBytes : PublicKey → Bytes
  | ed25519 key => key.bytes
  | ecdsa key => key.compressed

def derBytes (key : PublicKey) : Bytes :=
  derLead key.kind ++ key.rawBytes

/-- Raw bytes for Ed25519, the distinguished encoding for ECDSA. -/
def bytes (key : PublicKey) : Bytes :=
  match key.kind with
  | .ed25519 => key.rawBytes
  | .ecdsa => key.derBytes

def text (key : PublicKey) : String :=
  Text.Hex.encode key.derBytes

def rawText (key : PublicKey) : String :=
  Text.Hex.encode key.rawBytes

def readSubjectKey (bytes : Bytes) : Option (Der.Algorithm × Bytes) := do
  let body ← Der.readWholeTagged Der.Tag.sequence bytes
  let (algorithm, rest) ← Der.readTagged Der.Tag.sequence body
  let algorithm ← Der.readAlgorithm algorithm
  let key ← Der.readWholeTagged Der.Tag.bitString rest
  let key ← Der.bitStringBytes key
  some (algorithm, key)

def ofDer? (bytes : Bytes) : Option PublicKey := do
  let (algorithm, key) ← readSubjectKey bytes
  if KeyAlgorithm.isEd25519 algorithm then ed25519 <$> EdDsa.VerifyingKey.ofBytes? key
  else if KeyAlgorithm.isSecp256k1 algorithm then ecdsa <$> Ecdsa.VerifyingKey.ofBytes? key
  else none

def ofDerBytes (bytes : Bytes) : Except LedgerError PublicKey :=
  match ofDer? bytes with
  | some key => .ok key
  | none => .error (.keyParse .unsupportedPublic)

def expectKind (expected : KeyKind) (key : PublicKey) : Except LedgerError PublicKey :=
  if key.kind = expected then .ok key
  else .error (.keyParse (.unexpectedKind expected key.kind))

/-- Reads an Ed25519 key: 32 raw bytes, or a distinguished encoding. -/
def ofBytesEd25519 (bytes : Bytes) : Except LedgerError PublicKey :=
  if bytes.length = 32 then
    match EdDsa.VerifyingKey.ofBytes? bytes with
    | some key => .ok (.ed25519 key)
    | none => .error (.keyParse (.material .ed25519 .pointDecompression))
  else ofDerBytes bytes >>= expectKind .ed25519

/-- Reads an ECDSA key: a point in 33 or 65 bytes, or a distinguished encoding. -/
def ofBytesEcdsa (bytes : Bytes) : Except LedgerError PublicKey :=
  if bytes.length = 33 ∨ bytes.length = 65 then
    match Ecdsa.VerifyingKey.ofBytes? bytes with
    | some key => .ok (.ecdsa key)
    | none => .error (.keyParse (.material .ecdsa .malformed))
  else ofDerBytes bytes >>= expectKind .ecdsa

/-- Reads a key; its length tells raw forms from a distinguished encoding. -/
def ofBytes (bytes : Bytes) : Except LedgerError PublicKey :=
  if bytes.length = 32 then ofBytesEd25519 bytes
  else if bytes.length = 33 ∨ bytes.length = 65 then ofBytesEcdsa bytes
  else ofDerBytes bytes

def parse (text : String) : Except LedgerError PublicKey :=
  decodeKeyText text >>= ofBytes

def parseEd25519 (text : String) : Except LedgerError PublicKey :=
  decodeKeyText text >>= ofBytesEd25519

def parseEcdsa (text : String) : Except LedgerError PublicKey :=
  decodeKeyText text >>= ofBytesEcdsa

def parseDer (text : String) : Except LedgerError PublicKey :=
  decodeKeyText text >>= ofDerBytes

def verify (key : PublicKey) (message signature : Bytes) : Except LedgerError Unit :=
  let verified :=
    match key with
    | ed25519 key => EdDsa.verify key message signature
    | ecdsa key => Ecdsa.verify key message signature
  match verified with
  | .ok () => .ok ()
  | .error fault => .error (.signatureVerify fault)

/-- The address of an ECDSA key: the end of the digest of both coordinates. -/
def evmAddress? : PublicKey → Option EvmAddress
  | ed25519 _ => none
  | ecdsa key => (EvmAddress.ofBytes ((Keccak.digest (key.uncompressed.drop 1)).drop 12)).toOption

end PublicKey

end LedgerClient
