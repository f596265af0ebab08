import LedgerClient.Json.Scalar
import LedgerClient.Proofs.Json.Codec
import LedgerClient.Proofs.Notation.Transaction
import LedgerClient.Proofs.Time.Timestamp

/-! The codecs of ids, amounts, spans and instants restore what they write: a span if it is a whole
count of seconds, a transaction id if its instant is in no leap second, another instant if it is one
of civil time. -/

namespace LedgerClient

theorem EntityId.codec_restores {kind : EntityKind} (id : EntityId kind) : codec.Restores id :=
  Codec.restores_text id.parse_text

theorem AccountId.codec_restores (id : AccountId) : codec.Restores id :=
  Codec.restores_text id.parse_text

theorem TransactionId.codec_restores {id : TransactionId} (h : id.validStart.isLeap = false) :
    codec.Restores id :=
  Codec.restores_text (parse_text h)

theorem PublicKey.codec_restores (key : PublicKey) : codec.Restores key :=
  Codec.restores_text key.parse_text

theorem Hbar.codec_restores (amount : Hbar) : codec.Restores amount :=
  Codec.restores_part (Codec.restores_int64 amount.tinybars) rfl (fun _ => rfl) rfl

theorem Duration.ofSeconds_seconds {d : Duration} (h : d.isWholeSeconds = true) :
    ofSeconds d.seconds = d := by
  obtain ⟨seconds, nanos, bound⟩ := d
  obtain rfl : nanos = 0 := beq_iff_eq.mp h
  rfl

theorem Duration.encode_of_nanos_eq_zero {d : Duration} (h : d.nanos = 0) :
    codec.encode d = Codec.uint64.encode d.seconds := by
  have less : ¬ 500000000 ≤ d.nanos := by omega
  exact congrArg Codec.uint64.encode (if_neg less)

theorem Duration.codec_restores {d : Duration} (h : d.isWholeSeconds = true) :
    codec.Restores d :=
  Codec.restores_part (Codec.restores_uint64 d.seconds)
    (encode_of_nanos_eq_zero (beq_iff_eq.mp h)) (fun _ => rfl) (ofSeconds_seconds h)

theorem Instant.codec_decode_string (text : String) :
    codec.decode (.string text) = Codec.ofOption (Timestamp.parse? text) := rfl

theorem Instant.codec_restores {t : Instant} (civil : t.IsCivil) : codec.Restores t := by
  refine Codec.restores_symbols rfl ?_
  rw [codec_decode_string, Timestamp.parse?_text t civil]
  rfl

section

variable {levels : Nat}

@[simp] theorem EntityId.codec_within {kind : EntityKind} :
    (codec : Codec (EntityId kind)).WritesWithin levels := Codec.within_text

@[simp] theorem AccountId.codec_within : codec.WritesWithin levels := Codec.within_text

@[simp] theorem TransactionId.codec_within : codec.WritesWithin levels := Codec.within_text

@[simp] theorem Hbar.codec_within : codec.WritesWithin levels := fun _ => Nat.zero_le levels

end

end LedgerClient
