import LedgerClient.Proofs.Key.SubjectKey

/-! Readers of public keys: one that detects the kind, one for each kind, and one for distinguished
encodings only, each of them on bytes and on text. A reader for a kind accepts raw bytes and
distinguished encodings of that kind; as the two never have the same length, what is detected is
exactly what one of the readers for a kind accepts, and no two of them accept the same input. -/

namespace LedgerClient

inductive KeyReader where
  | any
  | only (kind : KeyKind)
  | encoded
  deriving DecidableEq

inductive KeyInput where
  | bytes (bytes : Bytes)
  | text (text : String)

/-- The bytes of an input: text is hexadecimal. -/
def KeyInput.decoded : KeyInput → Except LedgerError Bytes
  | bytes given => .ok given
  | text given => decodeKeyText given

namespace KeyReader

open PublicKey

def ofBytes : KeyReader → Bytes → Except LedgerError PublicKey
  | any => PublicKey.ofBytes
  | only .ed25519 => ofBytesEd25519
  | only .ecdsa => ofBytesEcdsa
  | encoded => ofDerBytes

def parse : KeyReader → String → Except LedgerError PublicKey
  | any => PublicKey.parse
  | only .ed25519 => parseEd25519
  | only .ecdsa => parseEcdsa
  | encoded => parseDer

def read (reader : KeyReader) : KeyInput → Except LedgerError PublicKey
  | .bytes bytes => reader.ofBytes bytes
  | .text text => reader.parse text

theorem read_eq_ok_iff {reader : KeyReader} {input : KeyInput} {key : PublicKey} :
    reader.read input = .ok key ↔
      ∃ bytes, input.decoded = .ok bytes ∧ reader.ofBytes bytes = .ok key := by
  have bind : reader.read input = input.decoded >>= reader.ofBytes := by
    cases input with
    | bytes given => rfl
    | text given =>
      cases reader with
      | only kind => cases kind <;> rfl
      | _ => rfl
  rw [bind]
  cases input.decoded with
  | error fault => simp [Bind.bind, Except.bind]
  | ok bytes => simp [Bind.bind, Except.bind]

variable {bytes : Bytes} {key : PublicKey} {kind : KeyKind} {input : KeyInput}

theorem ofDerBytes_eq_ok_iff : ofDerBytes bytes = .ok key ↔ ofDer? bytes = some key := by
  unfold ofDerBytes
  cases ofDer? bytes with
  | none => simp
  | some found => simp

theorem not_mem_rawLengths (read : ofDer? bytes = some key) (kind : KeyKind) :
    bytes.length ∉ rawLengths kind := by
  -- A subject public key is never as long as a key's bytes alone can be.
  have length := length_of_ofDer? read
  cases kind with
  | ed25519 =>
    rw [mem_rawLengths_ed25519]
    omega
  | ecdsa =>
    rw [mem_rawLengths_ecdsa]
    omega

theorem ofBytes_only_of_raw (h : bytes.length ∈ rawLengths kind) :
    (only kind).ofBytes bytes = .ok key ↔ ofRaw? kind bytes = some key := by
  cases kind with
  | ed25519 =>
    rw [ofBytes, ofBytesEd25519, if_pos (mem_rawLengths_ed25519.mp h), ofRaw?]
    cases EdDsa.VerifyingKey.ofBytes? bytes with
    | none => simp
    | some found => simp
  | ecdsa =>
    rw [ofBytes, ofBytesEcdsa, if_pos (mem_rawLengths_ecdsa.mp h), ofRaw?]
    cases Ecdsa.VerifyingKey.ofBytes? bytes with
    | none => simp
    | some found => simp

theorem ofBytes_only_of_not_raw (h : bytes.length ∉ rawLengths kind) :
    (only kind).ofBytes bytes = .ok key ↔ ofDer? bytes = some key ∧ key.kind = kind := by
  have typed : (only kind).ofBytes bytes = ofDerBytes bytes >>= expectKind kind := by
    cases kind with
    | ed25519 => exact if_neg (fun length => h (mem_rawLengths_ed25519.mpr length))
    | ecdsa => exact if_neg (fun length => h (mem_rawLengths_ecdsa.mpr length))
  rw [typed, ← ofDerBytes_eq_ok_iff]
  cases ofDerBytes bytes with
  | error fault => simp [bind, Except.bind]
  | ok found =>
    simp only [bind, Except.bind, expectKind]
    split
    · next same => simp; rintro rfl; exact same
    · next other => simp; rintro rfl; exact other

theorem ofBytes_only_eq_ok_iff :
    (only kind).ofBytes bytes = .ok key ↔
      key.kind = kind ∧ (ofRaw? kind bytes = some key ∨ ofDer? bytes = some key) := by
  by_cases raw : bytes.length ∈ rawLengths kind
  · rw [ofBytes_only_of_raw raw]
    constructor
    · intro isKey
      exact ⟨kind_of_ofRaw? isKey, .inl isKey⟩
    · rintro ⟨-, isKey | isSubject⟩
      · exact isKey
      · exact absurd raw (not_mem_rawLengths isSubject kind)
  · rw [ofBytes_only_of_not_raw raw]
    constructor
    · rintro ⟨isSubject, isKind⟩
      exact ⟨isKind, .inr isSubject⟩
    · rintro ⟨isKind, isKey | isSubject⟩
      · exact absurd (length_of_ofRaw? isKey) raw
      · exact ⟨isSubject, isKind⟩

theorem ofBytes_any_of_raw (h : bytes.length ∈ rawLengths kind) :
    any.ofBytes bytes = (only kind).ofBytes bytes := by
  cases kind with
  | ed25519 => exact if_pos (mem_rawLengths_ed25519.mp h)
  | ecdsa =>
    have length := mem_rawLengths_ecdsa.mp h
    have other : bytes.length ≠ 32 := by omega
    exact (if_neg other).trans (if_pos length)

theorem ofBytes_any_of_not_raw (h : ∀ kind, bytes.length ∉ rawLengths kind) :
    any.ofBytes bytes = encoded.ofBytes bytes := by
  have other : bytes.length ≠ 32 := fun length => h .ed25519 (mem_rawLengths_ed25519.mpr length)
  have another : ¬(bytes.length = 33 ∨ bytes.length = 65) := fun length =>
    h .ecdsa (mem_rawLengths_ecdsa.mpr length)
  exact (if_neg other).trans (if_neg another)

theorem kind_eq_of_mem_rawLengths {other : KeyKind} {length : Nat} (h : length ∈ rawLengths kind)
    (known : length ∈ rawLengths other) : other = kind := by
  cases kind with
  | ed25519 =>
    cases other with
    | ed25519 => rfl
    | ecdsa =>
      rw [mem_rawLengths_ed25519.mp h] at known
      exact absurd known (by decide)
  | ecdsa =>
    cases other with
    | ed25519 =>
      rw [mem_rawLengths_ed25519.mp known] at h
      exact absurd h (by decide)
    | ecdsa => rfl

theorem kind_eq_of_raw {other : KeyKind} (h : bytes.length ∈ rawLengths kind)
    (read : (only other).ofBytes bytes = .ok key) : other = kind := by
  obtain ⟨rfl, isKey | isSubject⟩ := ofBytes_only_eq_ok_iff.mp read
  · exact kind_eq_of_mem_rawLengths h (length_of_ofRaw? isKey)
  · exact absurd h (not_mem_rawLengths isSubject kind)

theorem ofBytes_any_eq_ok_iff :
    any.ofBytes bytes = .ok key ↔ (only key.kind).ofBytes bytes = .ok key := by
  by_cases raw : ∃ kind, bytes.length ∈ rawLengths kind
  · obtain ⟨kind, length⟩ := raw
    rw [ofBytes_any_of_raw length]
    constructor
    · intro read
      rwa [(ofBytes_only_eq_ok_iff.mp read).1]
    · intro read
      rwa [← kind_eq_of_raw length read]
  · have subject := not_exists.mp raw
    rw [ofBytes_any_of_not_raw subject, ofBytes, ofDerBytes_eq_ok_iff,
      ofBytes_only_of_not_raw (subject _), and_iff_left rfl]

theorem read_any_eq_ok_iff : any.read input = .ok key ↔ (only key.kind).read input = .ok key := by
  rw [read_eq_ok_iff, read_eq_ok_iff]
  simp only [ofBytes_any_eq_ok_iff]

theorem kind_of_read (read : (only kind).read input = .ok key) : key.kind = kind := by
  obtain ⟨bytes, -, found⟩ := read_eq_ok_iff.mp read
  exact (ofBytes_only_eq_ok_iff.mp found).1

theorem read_only_of_encoded (read : encoded.read input = .ok key) :
    (only key.kind).read input = .ok key := by
  obtain ⟨bytes, decoded, found⟩ := read_eq_ok_iff.mp read
  exact read_eq_ok_iff.mpr ⟨bytes, decoded,
    ofBytes_only_eq_ok_iff.mpr ⟨rfl, .inr (ofDerBytes_eq_ok_iff.mp found)⟩⟩

end KeyReader

open KeyReader

/-- Detection of the kind of a key in an input: `only_iff` says what is read as a key of a kind,
`exclusive` that no input is read as keys of both kinds, and `length_encoded` that no distinguished
encoding is as long as the bytes of a key alone, which are 32, 33 or 65. -/
structure KeyInput.Detects (input : KeyInput) : Prop where
  only_iff : ∀ kind key, (only kind).read input = .ok key ↔ ∃ bytes, input.decoded = .ok bytes ∧
    key.kind = kind ∧ (PublicKey.ofRaw? kind bytes = some key ∨ PublicKey.ofDer? bytes = some key)
  kind_eq : ∀ {kind key}, (only kind).read input = .ok key → key.kind = kind
  exclusive : ∀ {kind other key twin},
    (only kind).read input = .ok key → (only other).read input = .ok twin → kind = other
  any_iff : ∀ key, any.read input = .ok key ↔ ∃ kind, (only kind).read input = .ok key
  any_of_encoded : ∀ {key}, encoded.read input = .ok key → any.read input = .ok key
  length_encoded : ∀ {bytes key}, input.decoded = .ok bytes →
    encoded.read input = .ok key → bytes.length ∈ [44, 56, 88]

/-- What is detected in an input is what exactly one of the readers for a kind accepts. -/
theorem KeyInput.detects (input : KeyInput) : input.Detects where
  only_iff kind key := by
    rw [read_eq_ok_iff]
    simp only [ofBytes_only_eq_ok_iff]
  kind_eq := kind_of_read
  exclusive first second := by
    obtain rfl := kind_of_read first
    obtain rfl := kind_of_read second
    have found := read_any_eq_ok_iff.mpr first
    have again := read_any_eq_ok_iff.mpr second
    cases found.symm.trans again
    rfl
  any_iff key := by
    constructor
    · intro read
      exact ⟨key.kind, read_any_eq_ok_iff.mp read⟩
    · rintro ⟨kind, read⟩
      obtain rfl := kind_of_read read
      exact read_any_eq_ok_iff.mpr read
  any_of_encoded read := read_any_eq_ok_iff.mpr (read_only_of_encoded read)
  length_encoded decoded read := by
    obtain ⟨_, again, found⟩ := read_eq_ok_iff.mp read
    cases decoded.symm.trans again
    simpa using PublicKey.length_of_ofDer? (ofDerBytes_eq_ok_iff.mp found)

end LedgerClient
