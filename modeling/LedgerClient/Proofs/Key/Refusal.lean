import LedgerClient.Proofs.Json.Faults
import LedgerClient.Proofs.Key.Threshold

/-! The faults of the decoder of keys: an id or a public key is refused for its own form, and a
threshold only if it is not in its range. -/

namespace LedgerClient

/-- A threshold that a fault refuses is not in its range. -/
def DecodeFault.Justified (fault : DecodeFault) : Prop :=
  ∀ threshold keyCount, fault = .rejected (.invalidKeyList threshold keyCount) →
    ¬ KeyList.InRange threshold keyCount

namespace DecodeFault

theorem justified_malformed : Justified .malformed := nofun

theorem justified_of_code {cause : LedgerError} (h : cause.code ≠ .keyListThreshold) :
    Justified (.rejected cause) := by
  rintro threshold keyCount same
  cases same
  exact absurd rfl h

end DecodeFault

theorem code_of_parseComponent {input : String} {part : List Char} {cause : LedgerError}
    (h : parseComponent input part = .error cause) : cause.code = .idParse := by
  unfold parseComponent at h
  split at h
  · split at h
    · cases h
    · cases h
      rfl
  · cases h
    rfl

theorem Checksum.code_of_parse {input : String} {cause : LedgerError}
    (h : Checksum.parse input = .error cause) : cause.code = .idParse := by
  unfold Checksum.parse at h
  dsimp only at h
  split at h
  · cases h
    rfl
  · split at h
    · cases h
    · cases h
      rfl

namespace EntityId

variable {kind : EntityKind}

theorem code_of_parseBody {input : String} {checksum : Option Checksum} {body : List Char}
    {cause : LedgerError}
    (h : (parseBody input checksum body : Except LedgerError (EntityId kind)) = .error cause) :
    cause.code = .idParse := by
  unfold parseBody at h
  split at h
  · rcases Except.bind_eq_error h with h | ⟨_, -, h⟩
    · exact code_of_parseComponent h
    · cases h
  · rcases Except.bind_eq_error h with h | ⟨_, -, h⟩
    · exact code_of_parseComponent h
    rcases Except.bind_eq_error h with h | ⟨_, -, h⟩
    · exact code_of_parseComponent h
    rcases Except.bind_eq_error h with h | ⟨_, -, h⟩
    · exact code_of_parseComponent h
    · cases h
  · cases h
    rfl

theorem code_of_parse {input : String} {cause : LedgerError}
    (h : (parse input : Except LedgerError (EntityId kind)) = .error cause) :
    cause.code = .idParse := by
  unfold parse at h
  split at h
  · exact code_of_parseBody h
  · rcases Except.bind_eq_error h with h | ⟨checksum, -, h⟩
    · exact Checksum.code_of_parse h
    · exact code_of_parseBody h

theorem justified_decode {json : Json} {fault : DecodeFault}
    (h : (codec : Codec (EntityId kind)).decode json = .error fault) : fault.Justified := by
  refine Codec.fault_of_text DecodeFault.justified_malformed ?_ h
  intro text cause refused
  exact DecodeFault.justified_of_code (by rw [code_of_parse refused]; decide)

end EntityId

namespace PublicKey

variable {bytes : Bytes} {cause : LedgerError}

theorem code_of_ofDerBytes (h : ofDerBytes bytes = .error cause) : cause.code = .keyParse := by
  unfold ofDerBytes at h
  split at h
  · cases h
  · cases h
    rfl

theorem code_of_ofBytes (h : ofBytes bytes = .error cause) : cause.code = .keyParse := by
  unfold ofBytes ofBytesEd25519 ofBytesEcdsa at h
  split at h
  · split at h
    · cases h
    · cases h
      rfl
  · split at h
    · split at h
      · cases h
      · cases h
        rfl
    · exact code_of_ofDerBytes h

theorem code_of_parse {text : String} (h : parse text = .error cause) : cause.code = .keyParse := by
  rcases Except.bind_eq_error h with h | ⟨bytes, -, h⟩
  · unfold decodeKeyText at h
    split at h
    · cases h
    · cases h
      rfl
  · exact code_of_ofBytes h

theorem justified_decode {json : Json} {fault : DecodeFault} (h : codec.decode json = .error fault) :
    fault.Justified := by
  refine Codec.fault_of_text DecodeFault.justified_malformed ?_ h
  intro text cause refused
  exact DecodeFault.justified_of_code (by rw [code_of_parse refused]; decide)

end PublicKey

namespace Key

theorem justified_decodeList {decodeKey : Json → Decoded Key}
    (inner : ∀ json fault, decodeKey json = .error fault → fault.Justified) {json : Json}
    {fault : DecodeFault} (h : decodeList decodeKey json = .error fault) : fault.Justified := by
  rcases Except.bind_eq_error h with h | ⟨list, -, h⟩
  · refine Record.fault_of_decode DecodeFault.justified_malformed ?_ h
    intro slot hs json list fault h
    rw [slots_listRecord] at hs
    simp only [List.mem_cons, List.not_mem_nil, or_false] at hs
    rcases hs with rfl | rfl
    · exact Codec.fault_of_list DecodeFault.justified_malformed inner (Except.map_eq_error h)
    · exact Codec.fault_of_optional
        (fun _ _ => Codec.fault_of_uint32 DecodeFault.justified_malformed) (Except.map_eq_error h)
  · cases set : list.threshold with
    | none =>
      rw [set] at h
      cases h
    | some threshold =>
      rw [set, KeyList.setThreshold_some] at h
      split at h
      · cases h
      · next outside =>
        rintro threshold keyCount rfl
        cases h
        exact outside

theorem justified_decodeTagged {decodeKey : Json → Decoded Key}
    (inner : ∀ json fault, decodeKey json = .error fault → fault.Justified) {tag : String}
    {json : Json} {fault : DecodeFault} (h : decodeTagged decodeKey tag json = .error fault) :
    fault.Justified := by
  rw [decodeTagged] at h
  split at h
  · exact PublicKey.justified_decode (Except.map_eq_error h)
  split at h
  · exact EntityId.justified_decode (Except.map_eq_error h)
  split at h
  · exact EntityId.justified_decode (Except.map_eq_error h)
  split at h
  · exact justified_decodeList inner (Except.map_eq_error h)
  · exact Except.error.inj h ▸ DecodeFault.justified_malformed

theorem justified_decodeUpTo {limit : Nat} {json : Json} {fault : DecodeFault}
    (h : decodeUpTo limit json = .error fault) : fault.Justified := by
  induction limit generalizing json fault with
  | zero => exact Except.error.inj h ▸ DecodeFault.justified_malformed
  | succ limit ih =>
    unfold decodeUpTo at h
    split at h
    · next same =>
      cases same
      split at h
      · exact Except.error.inj h ▸ DecodeFault.justified_malformed
      · rcases Except.bind_eq_error h with h | ⟨key, -, h⟩
        · exact justified_decodeTagged (fun _ _ => ih) h
        · split at h
          · cases h
          · exact Except.error.inj h ▸ DecodeFault.justified_malformed
    · exact Except.error.inj h ▸ DecodeFault.justified_malformed

theorem justified_decode {json : Json} {fault : DecodeFault} (h : codec.decode json = .error fault) :
    fault.Justified :=
  justified_decodeUpTo h

end Key

theorem KeyList.justified_decode {json : Json} {fault : DecodeFault}
    (h : codec.decode json = .error fault) : fault.Justified :=
  Key.justified_decodeList (fun _ _ => Key.justified_decode) h

end LedgerClient
