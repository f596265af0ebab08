import LedgerClient.Key.Public
import LedgerClient.Proofs.Der
import Mathlib.Data.List.Basic

/-! Subject public keys as they are written: the algorithm, and a bit string around the bytes of the
key. For both algorithms exactly these are read, with bytes that are a key of the algorithm. Such
bytes have few lengths, and so have subject public keys: none is as long as the bytes alone can be.
-/

namespace LedgerClient

namespace KeyAlgorithm

def ofKind : KeyKind → Der.Algorithm
  | .ed25519 => ⟨ed25519, none⟩
  | .ecdsa => ⟨ellipticCurve, some ⟨Der.Tag.objectIdentifier, secp256k1⟩⟩

theorem isEd25519_iff {algorithm : Der.Algorithm} :
    isEd25519 algorithm = true ↔ algorithm = ofKind .ed25519 := by
  obtain ⟨identifier, parameters⟩ := algorithm
  simp [isEd25519, ofKind]

theorem isSecp256k1_iff {algorithm : Der.Algorithm} :
    isSecp256k1 algorithm = true ↔ algorithm = ofKind .ecdsa := by
  obtain ⟨identifier, parameters⟩ := algorithm
  cases parameters with
  | none => simp [isSecp256k1, ofKind]
  | some parameters =>
    obtain ⟨tag, contents⟩ := parameters
    simp [isSecp256k1, ofKind]

theorem readable_ofKind (kind : KeyKind) : (ofKind kind).Readable := by
  cases kind with
  | ed25519 => exact ⟨⟨rfl, by decide⟩, nofun⟩
  | ecdsa =>
    refine ⟨⟨rfl, by decide⟩, ?_⟩
    rintro _ ⟨⟩
    exact ⟨rfl, by decide⟩

end KeyAlgorithm

theorem Der.bitStringBytes_eq_some_iff {contents bytes : Bytes} :
    bitStringBytes contents = some bytes ↔ contents = 0x00 :: bytes := by
  constructor
  · intro read
    unfold bitStringBytes at read
    split at read
    · cases read
      rfl
    · cases read
  · rintro rfl
    rfl

theorem Der.Element.length_contents_le (element : Element) :
    element.contents.length ≤ element.bytes.length := by
  rw [bytes, List.length_cons, List.length_append]
  omega

namespace PublicKey

def algorithmElement (algorithm : Der.Algorithm) : Der.Element :=
  ⟨Der.Tag.sequence, algorithm.bytes⟩

def keyElement (key : Bytes) : Der.Element :=
  ⟨Der.Tag.bitString, 0x00 :: key⟩

def subjectElement (algorithm : Der.Algorithm) (key : Bytes) : Der.Element :=
  ⟨Der.Tag.sequence, (algorithmElement algorithm).bytes ++ (keyElement key).bytes⟩

theorem readable_inside {algorithm : Der.Algorithm} {key : Bytes}
    (around : (subjectElement algorithm key).Readable) :
    (algorithmElement algorithm).Readable ∧ (keyElement key).Readable := by
  have fits : (algorithmElement algorithm).bytes.length + (keyElement key).bytes.length ≤
      Der.maxLength := by
    rw [← List.length_append]
    exact around.length_le
  have first := (algorithmElement algorithm).length_contents_le
  have second := (keyElement key).length_contents_le
  exact ⟨⟨rfl, by omega⟩, ⟨rfl, by omega⟩⟩

theorem readSubjectKey_eq_some_iff {bytes key : Bytes} {algorithm : Der.Algorithm} :
    readSubjectKey bytes = some (algorithm, key) ↔
      algorithm.Readable ∧ (subjectElement algorithm key).Readable ∧
        bytes = (subjectElement algorithm key).bytes := by
  rw [readSubjectKey]
  constructor
  · intro read
    obtain ⟨body, whole, inside⟩ := Option.bind_eq_some_iff.mp read
    obtain ⟨⟨contents, rest⟩, first, behind⟩ := Option.bind_eq_some_iff.mp inside
    obtain ⟨described, isAlgorithm, last⟩ := Option.bind_eq_some_iff.mp behind
    obtain ⟨bits, second, unused⟩ := Option.bind_eq_some_iff.mp last
    obtain ⟨raw, isKey, same⟩ := Option.bind_eq_some_iff.mp unused
    cases same
    obtain ⟨readable, rfl⟩ := Der.readAlgorithm_eq_some_iff.mp isAlgorithm
    obtain ⟨-, rfl⟩ := Der.readTagged_eq_some_iff.mp first
    obtain ⟨-, rfl⟩ := Der.readWholeTagged_eq_some_iff.mp second
    obtain ⟨around, rfl⟩ := Der.readWholeTagged_eq_some_iff.mp whole
    cases Der.bitStringBytes_eq_some_iff.mp isKey
    exact ⟨readable, around, rfl⟩
  · rintro ⟨readable, around, rfl⟩
    have whole : Der.readWholeTagged Der.Tag.sequence (subjectElement algorithm key).bytes =
        some ((algorithmElement algorithm).bytes ++ (keyElement key).bytes) :=
      Der.readWholeTagged_eq_some_iff.mpr ⟨around, rfl⟩
    have first : Der.readTagged Der.Tag.sequence
        ((algorithmElement algorithm).bytes ++ (keyElement key).bytes) =
          some (algorithm.bytes, (keyElement key).bytes) :=
      Der.readTagged_eq_some_iff.mpr ⟨(readable_inside around).1, rfl⟩
    have described := Der.readAlgorithm_eq_some_iff.mpr ⟨readable, rfl⟩
    have second : Der.readWholeTagged Der.Tag.bitString (keyElement key).bytes =
        some (0x00 :: key) :=
      Der.readWholeTagged_eq_some_iff.mpr ⟨(readable_inside around).2, rfl⟩
    simp only [Option.bind_eq_bind, whole, Option.bind_some, first, described, second,
      Der.bitStringBytes]

/-- Reads bytes that are a key of a kind, without anything around them. -/
def ofRaw? : KeyKind → Bytes → Option PublicKey
  | .ed25519, bytes => ed25519 <$> EdDsa.VerifyingKey.ofBytes? bytes
  | .ecdsa, bytes => ecdsa <$> Ecdsa.VerifyingKey.ofBytes? bytes

def subjectKey (kind : KeyKind) (raw : Bytes) : Bytes :=
  (subjectElement (KeyAlgorithm.ofKind kind) raw).bytes

def rawLengths : KeyKind → List Nat
  | .ed25519 => [32]
  | .ecdsa => [33, 65]

@[simp] theorem mem_rawLengths_ed25519 {length : Nat} :
    length ∈ rawLengths .ed25519 ↔ length = 32 :=
  List.mem_singleton

@[simp] theorem mem_rawLengths_ecdsa {length : Nat} :
    length ∈ rawLengths .ecdsa ↔ length = 33 ∨ length = 65 :=
  List.mem_pair

theorem kind_of_ofRaw? {kind : KeyKind} {raw : Bytes} {key : PublicKey}
    (read : ofRaw? kind raw = some key) : key.kind = kind := by
  cases kind with
  | ed25519 =>
    obtain ⟨found, -, rfl⟩ := Option.map_eq_some_iff.mp read
    rfl
  | ecdsa =>
    obtain ⟨found, -, rfl⟩ := Option.map_eq_some_iff.mp read
    rfl

end PublicKey

namespace Ecdsa.VerifyingKey

theorem x_lt (key : VerifyingKey) : key.x < 256 ^ 32 := by
  have isPoint := key.isPoint
  rw [Secp256k1.liftX?] at isPoint
  split at isPoint
  · next inField =>
    have field : Secp256k1.prime < 256 ^ 32 := by decide +kernel
    exact Nat.lt_trans inField field
  · cases isPoint

theorem ofBytes?_compressed (key : VerifyingKey) : ofBytes? key.compressed = some key := by
  have length : (Bytes.bigEndian 32 key.x).length = 32 := Bytes.length_bigEndian 32 key.x
  have value : Bytes.toNatBigEndian (Bytes.bigEndian 32 key.x) = key.x :=
    Bytes.toNatBigEndian_bigEndian key.x_lt
  have point := ofCompressed?_x_odd key
  rw [compressed, ofBytes?, if_pos length]
  simp only [value]
  cases parity : key.odd with
  | false =>
    rw [parity] at point
    exact point
  | true =>
    rw [parity] at point
    exact point

theorem length_of_ofBytes? {bytes : Bytes} {key : VerifyingKey}
    (read : ofBytes? bytes = some key) : bytes.length = 33 ∨ bytes.length = 65 := by
  cases bytes with
  | nil => cases read
  | cons tag rest =>
    rw [ofBytes?] at read
    split at read
    · next compressed => exact .inl (congrArg (· + 1) compressed)
    · split at read
      · next uncompressed => exact .inr (congrArg (· + 1) uncompressed.1)
      · cases read

end Ecdsa.VerifyingKey

namespace PublicKey

theorem length_of_ofRaw? {kind : KeyKind} {raw : Bytes} {key : PublicKey}
    (read : ofRaw? kind raw = some key) : raw.length ∈ rawLengths kind := by
  cases kind with
  | ed25519 =>
    obtain ⟨found, point, -⟩ := Option.map_eq_some_iff.mp read
    have length := found.length_bytes
    rw [EdDsa.VerifyingKey.bytes_of_ofBytes? point] at length
    exact mem_rawLengths_ed25519.mpr length
  | ecdsa =>
    obtain ⟨found, point, -⟩ := Option.map_eq_some_iff.mp read
    exact mem_rawLengths_ecdsa.mpr (Ecdsa.VerifyingKey.length_of_ofBytes? point)

/-- What precedes `length` bytes of a key of a kind. -/
def subjectLead (kind : KeyKind) (length : Nat) : Bytes :=
  0x30 :: .ofNat ((derLead kind).length + length - 2) ::
    ((algorithmElement (KeyAlgorithm.ofKind kind)).bytes ++ [0x03, .ofNat (length + 1), 0x00])

theorem length_subjectLead (kind : KeyKind) (length : Nat) :
    (subjectLead kind length).length = (derLead kind).length := by
  cases kind <;> rfl

theorem length_derLead_add_le {kind : KeyKind} {length : Nat} (h : length ∈ rawLengths kind) :
    (derLead kind).length + length ≤ 88 := by
  cases kind with
  | ed25519 =>
    rw [mem_rawLengths_ed25519.mp h]
    decide
  | ecdsa =>
    rcases mem_rawLengths_ecdsa.mp h with rfl | rfl
    · decide
    · decide

theorem subjectKey_eq {kind : KeyKind} {raw : Bytes} (h : raw.length ∈ rawLengths kind) :
    subjectKey kind raw = subjectLead kind raw.length ++ raw := by
  have algorithm : (algorithmElement (KeyAlgorithm.ofKind kind)).bytes.length + 5 =
      (derLead kind).length := by
    cases kind <;> decide
  have whole := length_derLead_add_le h
  have short : (derLead kind).length + raw.length - 2 < 0x80 := by omega
  have inner : (keyElement raw).bytes = 0x03 :: .ofNat (raw.length + 1) :: 0x00 :: raw := by
    refine Der.Element.bytes_of_length_lt ?_
    rw [List.length_cons]
    omega
  have contents : ((algorithmElement (KeyAlgorithm.ofKind kind)).bytes ++
      (keyElement raw).bytes).length = (derLead kind).length + raw.length - 2 := by
    rw [inner, List.length_append, List.length_cons, List.length_cons, List.length_cons]
    omega
  rw [subjectKey, subjectElement, Der.Element.bytes_of_length_lt (contents ▸ short), contents,
    inner, subjectLead, List.cons_append, List.cons_append, List.append_assoc]
  rfl

theorem length_subjectKey {kind : KeyKind} {raw : Bytes} (h : raw.length ∈ rawLengths kind) :
    (subjectKey kind raw).length = (derLead kind).length + raw.length := by
  rw [subjectKey_eq h, List.length_append, length_subjectLead]

theorem readable_subjectElement {kind : KeyKind} {raw : Bytes} (h : raw.length ∈ rawLengths kind) :
    (subjectElement (KeyAlgorithm.ofKind kind) raw).Readable where
  known := rfl
  length_le := by
    have whole := length_subjectKey h
    have inside := (subjectElement (KeyAlgorithm.ofKind kind) raw).length_contents_le
    have limit : (derLead kind).length + raw.length ≤ Der.maxLength :=
      Nat.le_trans (length_derLead_add_le h) (by decide)
    exact Nat.le_trans inside (whole ▸ limit)

theorem ofDer?_eq_some_iff {bytes : Bytes} {key : PublicKey} :
    ofDer? bytes = some key ↔
      ∃ raw, ofRaw? key.kind raw = some key ∧ bytes = subjectKey key.kind raw := by
  rw [ofDer?]
  constructor
  · intro read
    obtain ⟨⟨algorithm, raw⟩, subject, inside⟩ := Option.bind_eq_some_iff.mp read
    obtain ⟨-, -, rfl⟩ := readSubjectKey_eq_some_iff.mp subject
    dsimp only at inside
    split at inside
    · next isKind =>
      cases KeyAlgorithm.isEd25519_iff.mp isKind
      have isKey : ofRaw? .ed25519 raw = some key := inside
      have kind := kind_of_ofRaw? isKey
      exact ⟨raw, kind.symm ▸ isKey, kind.symm ▸ rfl⟩
    · split at inside
      · next isKind =>
        cases KeyAlgorithm.isSecp256k1_iff.mp isKind
        have isKey : ofRaw? .ecdsa raw = some key := inside
        have kind := kind_of_ofRaw? isKey
        exact ⟨raw, kind.symm ▸ isKey, kind.symm ▸ rfl⟩
      · cases inside
  · rintro ⟨raw, isKey, rfl⟩
    have length := length_of_ofRaw? isKey
    have subject : readSubjectKey (subjectKey key.kind raw) =
        some (KeyAlgorithm.ofKind key.kind, raw) :=
      readSubjectKey_eq_some_iff.mpr
        ⟨KeyAlgorithm.readable_ofKind _, readable_subjectElement length, rfl⟩
    rw [subject]
    simp only [Option.bind_eq_bind, Option.bind_some]
    generalize key.kind = kind at isKey
    cases kind with
    | ed25519 => exact isKey
    | ecdsa => exact isKey

theorem length_of_ofDer? {bytes : Bytes} {key : PublicKey} (read : ofDer? bytes = some key) :
    bytes.length = 44 ∨ bytes.length = 56 ∨ bytes.length = 88 := by
  obtain ⟨raw, isKey, rfl⟩ := ofDer?_eq_some_iff.mp read
  have known := length_of_ofRaw? isKey
  have length := length_subjectKey known
  generalize key.kind = kind at known length
  cases kind with
  | ed25519 =>
    rw [mem_rawLengths_ed25519.mp known] at length
    exact .inl length
  | ecdsa =>
    rcases mem_rawLengths_ecdsa.mp known with compressed | uncompressed
    · rw [compressed] at length
      exact .inr (.inl length)
    · rw [uncompressed] at length
      exact .inr (.inr length)

theorem ofRaw?_rawBytes (key : PublicKey) : ofRaw? key.kind key.rawBytes = some key := by
  cases key with
  | ed25519 key => exact congrArg (Option.map ed25519) key.ofBytes?_bytes
  | ecdsa key => exact congrArg (Option.map ecdsa) key.ofBytes?_compressed

theorem subjectKey_rawBytes (key : PublicKey) :
    subjectKey key.kind key.rawBytes = key.derBytes := by
  have lead : subjectLead key.kind key.rawBytes.length = derLead key.kind := by
    cases key with
    | ed25519 key =>
      rw [rawBytes, key.length_bytes]
      rfl
    | ecdsa key =>
      rw [rawBytes, key.length_compressed]
      rfl
  rw [subjectKey_eq (length_of_ofRaw? key.ofRaw?_rawBytes), lead, derBytes]

theorem ofDer?_derBytes (key : PublicKey) : ofDer? key.derBytes = some key :=
  ofDer?_eq_some_iff.mpr ⟨_, key.ofRaw?_rawBytes, key.subjectKey_rawBytes.symm⟩

end PublicKey

end LedgerClient
