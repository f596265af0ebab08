import LedgerClient.Proofs.Key.ShortForm

/-! Every form in which a private key is written is read as that key, by each of the readers meant for
the form: the secret bytes alone, the short form around them, and for Ed25519 the secret bytes with the
public key behind them. The reader for the other kind refuses the short form. -/

namespace LedgerClient

namespace KeyReader

def ofSecretBytes : KeyReader → Bytes → Except LedgerError PrivateKey
  | any => PrivateKey.ofBytes
  | only .ed25519 => PrivateKey.ofBytesEd25519
  | only .ecdsa => PrivateKey.ofBytesEcdsa
  | encoded => PrivateKey.ofDerBytes

def parseSecret : KeyReader → String → Except LedgerError PrivateKey
  | any => PrivateKey.parse
  | only .ed25519 => PrivateKey.parseEd25519
  | only .ecdsa => PrivateKey.parseEcdsa
  | encoded => PrivateKey.parseDer

def readSecret (reader : KeyReader) : KeyInput → Except LedgerError PrivateKey
  | .bytes bytes => reader.ofSecretBytes bytes
  | .text text => reader.parseSecret text

theorem readSecret_of_decoded {reader : KeyReader} {input : KeyInput} {bytes : Bytes}
    (decoded : input.decoded = .ok bytes) : reader.readSecret input = reader.ofSecretBytes bytes := by
  have bind : reader.readSecret input = input.decoded >>= reader.ofSecretBytes := by
    cases input with
    | bytes given => rfl
    | text given =>
      cases reader with
      | only kind => cases kind <;> rfl
      | _ => rfl
  rw [bind, decoded]
  rfl

end KeyReader

/-- The ways to hand over some bytes: as they are, or in hexadecimal, with or without a leading `0x`. -/
def KeyInput.forms (given : Bytes) : List KeyInput :=
  [.bytes given, .text (Text.Hex.encode given), .text ("0x" ++ Text.Hex.encode given)]

theorem KeyInput.decoded_of_mem_forms {given : Bytes} {input : KeyInput} (h : input ∈ forms given) :
    input.decoded = .ok given := by
  simp only [forms, List.mem_cons, List.not_mem_nil, or_false] at h
  rcases h with rfl | rfl | rfl
  · rfl
  · exact decodeKeyText_encode given
  · exact decodeKeyText_marked given

theorem EdDsa.SigningKey.ofPair_append (key : SigningKey) :
    ofPair (key.seed ++ key.verifying.bytes) = .ok key := by
  rw [ofPair, List.drop_left' key.length_seed, List.take_left' key.length_seed, ofSeed?_seed,
    VerifyingKey.ofBytes?_bytes]
  exact if_pos rfl

namespace PrivateKey

open KeyReader

variable {key : PrivateKey} {input : KeyInput}

theorem ofBytesEcdsa_rawBytes (isEcdsa : key.kind = .ecdsa) : ofBytesEcdsa key.rawBytes = .ok key :=
  ofBytesEcdsa_leads (.secret isEcdsa) 0

theorem ofDerBytes_derBytes (key : PrivateKey) : ofDerBytes key.derBytes = .ok key := by
  cases isKind : key.kind with
  | ed25519 =>
    rw [derBytes, isKind, ofDerBytes_ed25519Lead_eq_ok_iff, derBytes, isKind]
  | ecdsa => rw [derBytes, isKind, ofDerBytes_ecdsaLead, ofBytesEcdsa_rawBytes isKind]

theorem length_derBytes_ne (key : PrivateKey) :
    key.derBytes.length ≠ 32 ∧ key.derBytes.length ≠ 64 := by
  rw [derBytes, List.length_append, key.length_rawBytes]
  cases key.kind <;> decide

theorem ofBytes_derBytes (key : PrivateKey) : ofBytes key.derBytes = .ok key := by
  rw [ofBytes, if_neg (not_or.mpr key.length_derBytes_ne), ofDerBytes_derBytes]

theorem ofBytesEd25519_rawBytes (isEd25519 : key.kind = .ed25519) :
    ofBytesEd25519 key.rawBytes = .ok key := by
  rw [ofBytesEd25519, if_pos key.length_rawBytes, ofSeed_eq_ok_iff]
  exact ⟨isEd25519, rfl⟩

theorem ofBytes_bytes (key : PrivateKey) : ofBytes key.bytes = .ok key := by
  rw [bytes]
  cases isKind : key.kind with
  | ed25519 =>
    dsimp only
    rw [ofBytes, if_pos (.inl key.length_rawBytes), ofBytesEd25519_rawBytes isKind]
  | ecdsa => exact key.ofBytes_derBytes

theorem ofSecretBytes_only_rawBytes (key : PrivateKey) :
    (only key.kind).ofSecretBytes key.rawBytes = .ok key := by
  cases isKind : key.kind with
  | ed25519 => exact ofBytesEd25519_rawBytes isKind
  | ecdsa => exact ofBytesEcdsa_rawBytes isKind

theorem ofSecretBytes_only_derBytes (key : PrivateKey) (kind : KeyKind) :
    (only kind).ofSecretBytes key.derBytes = expectKind kind key := by
  obtain ⟨long, other⟩ := key.length_derBytes_ne
  cases kind with
  | ed25519 =>
    rw [ofSecretBytes, ofBytesEd25519, if_neg long, if_neg other, ofDerBytes_derBytes]
    rfl
  | ecdsa =>
    rw [ofSecretBytes, ofBytesEcdsa, if_neg long, ofDerBytes_derBytes]
    rfl

theorem length_pair (isEd25519 : key.kind = .ed25519) :
    (key.rawBytes ++ key.publicKey.rawBytes).length = 64 := by
  cases key with
  | ed25519 key =>
    rw [List.length_append, length_rawBytes, publicKey, PublicKey.rawBytes,
      key.verifying.length_bytes]
  | ecdsa key => cases isEd25519

theorem ofBytesEd25519_pair (isEd25519 : key.kind = .ed25519) :
    ofBytesEd25519 (key.rawBytes ++ key.publicKey.rawBytes) = .ok key := by
  have length := length_pair isEd25519
  have long : (key.rawBytes ++ key.publicKey.rawBytes).length ≠ 32 := by omega
  rw [ofBytesEd25519, if_neg long, if_pos length]
  cases key with
  | ed25519 key => rw [rawBytes, publicKey, PublicKey.rawBytes, key.ofPair_append]
  | ecdsa key => cases isEd25519

theorem ofBytes_pair (isEd25519 : key.kind = .ed25519) :
    ofBytes (key.rawBytes ++ key.publicKey.rawBytes) = .ok key := by
  rw [ofBytes, if_pos (.inr (length_pair isEd25519)), ofBytesEd25519_pair isEd25519]

/-- What a private key is read from, and what the reader for the other kind makes of the short form. -/
structure ReadsBack (key : PrivateKey) : Prop where
  length_rawBytes : key.rawBytes.length = 32
  bytes : any.readSecret (.bytes key.bytes) = .ok key
  text : any.readSecret (.text key.text) = .ok key
  any : ∀ input ∈ KeyInput.forms key.derBytes, any.readSecret input = .ok key
  encoded : ∀ input ∈ KeyInput.forms key.derBytes, encoded.readSecret input = .ok key
  only : ∀ input ∈ KeyInput.forms key.rawBytes ++ KeyInput.forms key.derBytes,
    (only key.kind).readSecret input = .ok key
  refused : ∀ kind ≠ key.kind, ∀ input ∈ KeyInput.forms key.derBytes,
    (KeyReader.only kind).readSecret input = .error (.keyParse (.unexpectedKind kind key.kind))
  pair : key.kind = .ed25519 → ∀ reader ∈ [KeyReader.any, .only .ed25519],
    reader.readSecret (.bytes (key.rawBytes ++ key.publicKey.rawBytes)) = .ok key

theorem readsBack (key : PrivateKey) : key.ReadsBack where
  length_rawBytes := key.length_rawBytes
  bytes := key.ofBytes_bytes
  text := by
    have decoded : KeyInput.decoded (.text key.text) = .ok key.derBytes := by
      rw [KeyInput.decoded, PrivateKey.text, decodeKeyText_encode]
    rw [readSecret_of_decoded decoded, ofSecretBytes, ofBytes_derBytes]
  any input written := by
    rw [readSecret_of_decoded (KeyInput.decoded_of_mem_forms written), ofSecretBytes,
      ofBytes_derBytes]
  encoded input written := by
    rw [readSecret_of_decoded (KeyInput.decoded_of_mem_forms written), ofSecretBytes,
      ofDerBytes_derBytes]
  only input written := by
    rcases List.mem_append.mp written with raw | short
    · rw [readSecret_of_decoded (KeyInput.decoded_of_mem_forms raw), ofSecretBytes_only_rawBytes]
    · rw [readSecret_of_decoded (KeyInput.decoded_of_mem_forms short), ofSecretBytes_only_derBytes,
        expectKind, if_pos rfl]
  refused kind other input written := by
    rw [readSecret_of_decoded (KeyInput.decoded_of_mem_forms written), ofSecretBytes_only_derBytes,
      expectKind, if_neg other.symm]
  pair isEd25519 reader meant := by
    simp only [List.mem_cons, List.not_mem_nil, or_false] at meant
    rcases meant with rfl | rfl
    · exact ofBytes_pair isEd25519
    · exact ofBytesEd25519_pair isEd25519

theorem derBytes_injective : Function.Injective derBytes := by
  intro key twin same
  have read := key.ofDerBytes_derBytes
  rw [same, twin.ofDerBytes_derBytes] at read
  exact (Except.ok.inj read).symm

theorem eq_iff_rawBytes {twin : PrivateKey} :
    key = twin ↔ key.kind = twin.kind ∧ key.rawBytes = twin.rawBytes := by
  constructor
  · rintro rfl
    exact ⟨rfl, rfl⟩
  · rintro ⟨kind, raw⟩
    refine derBytes_injective ?_
    rw [derBytes, derBytes, kind, raw]

/-- Every private key is read from all that is written for it, and its short form tells it from all
other keys, as its kind and its secret bytes do. -/
theorem encodings_inverse (key : PrivateKey) :
    key.ReadsBack ∧ ∀ twin : PrivateKey, (key = twin ↔ key.derBytes = twin.derBytes) ∧
      (key = twin ↔ key.kind = twin.kind ∧ key.rawBytes = twin.rawBytes) :=
  ⟨key.readsBack, fun _ => ⟨derBytes_injective.eq_iff.symm, eq_iff_rawBytes⟩⟩

end PrivateKey

end LedgerClient
