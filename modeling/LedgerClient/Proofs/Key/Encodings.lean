import LedgerClient.Proofs.Key.Detection
import LedgerClient.Proofs.Notation.Key

/-! Every form in which a public key is written is read as that key, by each of the readers meant for
the form. So whatever input a key was read from, its distinguished encoding is its one canonical form,
which tells it from all other keys. -/

namespace LedgerClient

namespace PublicKey

theorem derBytes_injective : Function.Injective derBytes := by
  intro key twin same
  have read := key.ofDer?_derBytes
  rw [same, twin.ofDer?_derBytes] at read
  exact (Option.some.inj read).symm

def encodedInputs (key : PublicKey) : List KeyInput :=
  [.bytes key.derBytes, .text key.text, .text ("0x" ++ key.text)]

def inputs (key : PublicKey) : List KeyInput :=
  [.bytes key.rawBytes, .text key.rawText, .text ("0x" ++ key.rawText), .bytes key.bytes] ++
    key.encodedInputs

variable {key : PublicKey} {input : KeyInput}

theorem decoded_of_mem_encodedInputs (h : input ∈ key.encodedInputs) :
    input.decoded = .ok key.derBytes := by
  simp only [encodedInputs, List.mem_cons, List.not_mem_nil, or_false] at h
  rcases h with rfl | rfl | rfl
  · rfl
  · rw [KeyInput.decoded, text, decodeKeyText_encode]
  · rw [KeyInput.decoded, text, decodeKeyText_marked]

theorem decoded_of_mem_inputs (h : input ∈ key.inputs) :
    input.decoded = .ok key.rawBytes ∨ input.decoded = .ok key.derBytes := by
  rcases List.mem_append.mp h with other | isEncoded
  · simp only [List.mem_cons, List.not_mem_nil, or_false] at other
    rcases other with rfl | rfl | rfl | rfl
    · exact .inl rfl
    · left
      rw [KeyInput.decoded, rawText, decodeKeyText_encode]
    · left
      rw [KeyInput.decoded, rawText, decodeKeyText_marked]
    · cases key with
      | ed25519 key => exact .inl rfl
      | ecdsa key => exact .inr rfl
  · exact .inr (decoded_of_mem_encodedInputs isEncoded)

open KeyReader

/-- A key is read from all that is written for it, by what detects the kind and by the reader for its
kind, and from its distinguished encoding also by the reader for those. -/
structure ReadsBack (key : PublicKey) : Prop where
  any : ∀ input ∈ key.inputs, any.read input = .ok key
  only : ∀ input ∈ key.inputs, (only key.kind).read input = .ok key
  encoded : ∀ input ∈ key.encodedInputs, encoded.read input = .ok key

theorem readsBack (key : PublicKey) : key.ReadsBack := by
  have only : ∀ input ∈ key.inputs, (KeyReader.only key.kind).read input = .ok key := by
    intro input written
    rcases decoded_of_mem_inputs written with isRaw | isEncoded
    · exact read_eq_ok_iff.mpr
        ⟨_, isRaw, ofBytes_only_eq_ok_iff.mpr ⟨rfl, .inl key.ofRaw?_rawBytes⟩⟩
    · exact read_eq_ok_iff.mpr
        ⟨_, isEncoded, ofBytes_only_eq_ok_iff.mpr ⟨rfl, .inr key.ofDer?_derBytes⟩⟩
  refine ⟨fun input written => read_any_eq_ok_iff.mpr (only input written), only, ?encoded⟩
  case encoded =>
    intro input written
    exact read_eq_ok_iff.mpr ⟨_, decoded_of_mem_encodedInputs written,
      ofDerBytes_eq_ok_iff.mpr key.ofDer?_derBytes⟩

theorem eq_iff_rawBytes {key twin : PublicKey} :
    key = twin ↔ key.kind = twin.kind ∧ key.rawBytes = twin.rawBytes := by
  constructor
  · rintro rfl
    exact ⟨rfl, rfl⟩
  · rintro ⟨kind, raw⟩
    refine derBytes_injective ?_
    rw [derBytes, derBytes, kind, raw]

end PublicKey

/-- Two inputs are read as the same key when the distinguished encodings are the same, or, which is
as much, the kind and the raw bytes. -/
theorem KeyReader.canonical {reader other : KeyReader} {input another : KeyInput}
    {key twin : PublicKey} (read : reader.read input = .ok key)
    (readOther : other.read another = .ok twin) :
    key.ReadsBack ∧
      (reader.read input = other.read another ↔ key.derBytes = twin.derBytes) ∧
      (reader.read input = other.read another ↔
        key.kind = twin.kind ∧ key.rawBytes = twin.rawBytes) := by
  have same : reader.read input = other.read another ↔ key = twin := by
    rw [read, readOther, Except.ok.injEq]
  exact ⟨key.readsBack, same.trans PublicKey.derBytes_injective.eq_iff.symm,
    same.trans PublicKey.eq_iff_rawBytes⟩

/-- The key whose point is the base of the curve, where `y` is even. -/
def Ecdsa.VerifyingKey.base : VerifyingKey :=
  ⟨Secp256k1.base.x, false, by decide +kernel⟩

theorem KeyReader.canonical_base :
    let base := PublicKey.ecdsa .base
    let compact := "0x0579BE667EF9DCBBAC55A06295CE870B07029BFCDB2DCE28D959F2815B16F81798"
    let subject := PublicKey.subjectKey .ecdsa Ecdsa.VerifyingKey.base.uncompressed
    any.read (.text compact) = .ok base ∧ encoded.read (.bytes subject) = .ok base ∧
      base.ReadsBack ∧
      (any.read (.text compact) = encoded.read (.bytes subject) ↔ base.derBytes = base.derBytes) ∧
      (any.read (.text compact) = encoded.read (.bytes subject) ↔
        base.kind = base.kind ∧ base.rawBytes = base.rawBytes) := by
  intro base compact subject
  have read : any.read (.text compact) = .ok base := by decide +kernel
  have readOther : encoded.read (.bytes subject) = .ok base := by decide +kernel
  exact ⟨read, readOther, KeyReader.canonical read readOther⟩

end LedgerClient
