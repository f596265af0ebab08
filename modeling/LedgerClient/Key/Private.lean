import LedgerClient.Key.Public

/-!
Private keys of both algorithms. They are written in a short form: a fixed lead for the algorithm
and the 32 secret bytes. Besides it, the general private key structure of either algorithm and the
bare structure for elliptic curves are read.
-/

namespace LedgerClient

inductive PrivateKey where
  | ed25519 (key : EdDsa.SigningKey)
  | ecdsa (key : Ecdsa.SigningKey)
  deriving DecidableEq

namespace PrivateKey

def kind : PrivateKey → KeyKind
  | ed25519 _ => .ed25519
  | ecdsa _ => .ecdsa

def publicKey : PrivateKey → PublicKey
  | ed25519 key => .ed25519 key.verifying
  | ecdsa key => .ecdsa key.verifying

/-- What precedes the secret bytes in the short form. -/
def derLead : KeyKind → Bytes
  | .ed25519 =>
    [0x30, 0x2E, 0x02, 0x01, 0x00, 0x30, 0x05, 0x06, 0x03, 0x2B, 0x65, 0x70, 0x04, 0x22, 0x04, 0x20]
  | .ecdsa =>
    [0x30, 0x30, 0x02, 0x01, 0x00, 0x30, 0x07, 0x06, 0x05, 0x2B, 0x81, 0x04, 0x00, 0x0A, 0x04, 0x22,
      0x04, 0x20]

def rawBytes : PrivateKey → Bytes
  | ed25519 key => key.seed
  | ecdsa key => key.bytes

def derBytes (key : PrivateKey) : Bytes :=
  derLead key.kind ++ key.rawBytes

/-- Secret bytes for Ed25519, the short form for ECDSA. -/
def bytes (key : PrivateKey) : Bytes :=
  match key.kind with
  | .ed25519 => key.rawBytes
  | .ecdsa => key.derBytes

def text (key : PrivateKey) : String :=
  Text.Hex.encode key.derBytes

structure KeyInfo where
  algorithm : Der.Algorithm
  secret : Bytes
  publicKey : Option Bytes

/-- The public key in a field: a bit string whose field is not constructed. -/
def readPublicField : Option Der.Element → Option (Option Bytes)
  | none => some none
  | some field =>
    if Der.Tag.isConstructed field.tag then none else some <$> Der.bitStringBytes field.contents

/-- Reads the general structure. Version 0 has no public key and version 1 has one; further fields
are passed over. -/
def readKeyInfo (bytes : Bytes) : Option KeyInfo := do
  let body ← Der.readWholeTagged Der.Tag.sequence bytes
  let (version, rest) ← Der.readTagged Der.Tag.integer body
  guard (version = [0] ∨ version = [1])
  let (algorithm, rest) ← Der.readTagged Der.Tag.sequence rest
  let algorithm ← Der.readAlgorithm algorithm
  let (secret, rest) ← Der.readTagged Der.Tag.octetString rest
  let (field, rest) ← Der.readField 1 rest
  let publicKey ← readPublicField field
  guard ((version = [1]) = publicKey.isSome)
  guard (Der.areFields rest)
  some { algorithm, secret, publicKey }

/-- An Ed25519 key in the general structure; a public key in it must match. -/
def ed25519OfKeyInfo? (info : KeyInfo) : Option EdDsa.SigningKey := do
  guard (KeyAlgorithm.isEd25519 info.algorithm)
  match info.secret with
  | 0x04 :: 0x20 :: seed =>
    let key ← EdDsa.SigningKey.ofSeed? seed
    guard (info.publicKey.all (· == key.verifying.bytes))
    some key
  | _ => none

/-- The optional named curve of the bare structure, which is not used further. -/
def isCurveField : Option Der.Element → Bool
  | none => true
  | some field =>
    (Der.explicitContents field).any fun curve =>
      curve.tag == Der.Tag.objectIdentifier && Der.isObjectIdentifier curve.contents

def readExplicitPublic : Option Der.Element → Option (Option Bytes)
  | none => some none
  | some field => do
    let content ← Der.explicitContents field
    guard (content.tag = Der.Tag.bitString)
    some <$> Der.bitStringBytes content.contents

/-- Reads the bare structure for elliptic curves. A secret of 24 to 32 bytes is taken as a number,
and a public key must be that of the secret, compressed or not. -/
def ecdsaOfBare? (bytes : Bytes) : Option Ecdsa.SigningKey := do
  let body ← Der.readWholeTagged Der.Tag.sequence bytes
  let (version, rest) ← Der.readTagged Der.Tag.integer body
  guard (version = [1])
  let (secret, rest) ← Der.readTagged Der.Tag.octetString rest
  let (curve, rest) ← Der.readField 0 rest
  guard (isCurveField curve)
  let (field, rest) ← Der.readField 1 rest
  let publicKey ← readExplicitPublic field
  guard rest.isEmpty
  guard (24 ≤ secret.length ∧ secret.length ≤ 32)
  let key ← Ecdsa.SigningKey.ofSecret? (Bytes.toNatBigEndian secret)
  guard (publicKey.all fun bytes =>
    bytes == key.verifying.compressed || bytes == key.verifying.uncompressed)
  some key

def ofStructure? (bytes : Bytes) : Option PrivateKey :=
  let ofInfo : Option PrivateKey := do
    let info ← readKeyInfo bytes
    (ed25519 <$> ed25519OfKeyInfo? info) <|> do
      guard (KeyAlgorithm.isSecp256k1 info.algorithm)
      ecdsa <$> ecdsaOfBare? info.secret
  ofInfo <|> ecdsa <$> ecdsaOfBare? bytes

def expectKind (expected : KeyKind) (key : PrivateKey) : Except LedgerError PrivateKey :=
  if key.kind = expected then .ok key
  else .error (.keyParse (.unexpectedKind expected key.kind))

def ofSeed (seed : Bytes) : Except LedgerError PrivateKey :=
  match EdDsa.SigningKey.ofSeed? seed with
  | some key => .ok (.ed25519 key)
  | none => .error (.keyParse (.material .ed25519 .pointDecompression))

def ofSecret (secret : Bytes) : Except LedgerError PrivateKey :=
  match Ecdsa.SigningKey.ofBytes? secret with
  | some key => .ok (.ecdsa key)
  | none => .error (.keyParse (.material .ecdsa .malformed))

/-- Reads a distinguished encoding. The lead of the short Ed25519 form must be followed by 32 bytes
to count; what follows the lead of the short ECDSA form is 32 secret bytes or again an encoding of
an ECDSA key. -/
def ofDerBytes (bytes : Bytes) : Except LedgerError PrivateKey :=
  match (Bytes.afterLead? (derLead .ed25519) bytes).filter (·.length = 32) with
  | some seed => ofSeed seed
  | none =>
    match _found : Bytes.afterLead? (derLead .ecdsa) bytes with
    | some secret =>
      if secret.length = 32 then ofSecret secret
      else ofDerBytes secret >>= expectKind .ecdsa
    | none =>
      match ofStructure? bytes with
      | some key => .ok key
      | none => .error (.keyParse .unsupportedPrivate)
termination_by bytes.length
decreasing_by
  rw [Bytes.afterLead?_eq_some_iff.1 _found, List.length_append]
  simp only [derLead, List.length_cons, List.length_nil]
  omega

/-- Reads an Ed25519 key: its 32 secret bytes, these followed by the public key, or a distinguished
encoding. -/
def ofBytesEd25519 (bytes : Bytes) : Except LedgerError PrivateKey :=
  if bytes.length = 32 then ofSeed bytes
  else if bytes.length = 64 then
    match EdDsa.SigningKey.ofPair bytes with
    | .ok key => .ok (.ed25519 key)
    | .error fault => .error (.keyParse (.keypair fault))
  else ofDerBytes bytes >>= expectKind .ed25519

/-- Reads an ECDSA key: its 32 secret bytes, or a distinguished encoding. -/
def ofBytesEcdsa (bytes : Bytes) : Except LedgerError PrivateKey :=
  if bytes.length = 32 then ofSecret bytes
  else ofDerBytes bytes >>= expectKind .ecdsa

/-- Reads a key: 32 or 64 bytes are an Ed25519 key, all else is a distinguished encoding. -/
def ofBytes (bytes : Bytes) : Except LedgerError PrivateKey :=
  if bytes.length = 32 ∨ bytes.length = 64 then ofBytesEd25519 bytes else ofDerBytes bytes

def parse (text : String) : Except LedgerError PrivateKey :=
  decodeKeyText text >>= ofBytes

def parseEd25519 (text : String) : Except LedgerError PrivateKey :=
  decodeKeyText text >>= ofBytesEd25519

def parseEcdsa (text : String) : Except LedgerError PrivateKey :=
  decodeKeyText text >>= ofBytesEcdsa

def parseDer (text : String) : Except LedgerError PrivateKey :=
  decodeKeyText text >>= ofDerBytes

def sign : PrivateKey → Bytes → Bytes
  | ed25519 key, message => key.sign message
  | ecdsa key, message => key.sign message

/-- A fixed Ed25519 key for each byte: the seed of 32 equal bytes. -/
def sampleEd25519 (byte : UInt8) : Except LedgerError PrivateKey :=
  ofBytesEd25519 (List.replicate 32 byte)

/-- A fixed ECDSA key for each byte: the secret of that value, at least 1. -/
def sampleEcdsa (byte : UInt8) : Except LedgerError PrivateKey :=
  ofBytesEcdsa (List.replicate 31 0 ++ [max byte 1])

end PrivateKey

end LedgerClient
