import LedgerClient.Json.Codec
import LedgerClient.Proofs.Json.Tree
import LedgerClient.Proofs.Text.Base64
import LedgerClient.Proofs.Text.Hex

/-! Codecs that restore what they write: from every tree that presents the JSON of a value, the value
is read. The nesting limit of trees is assumed, since only a key counts its own nesting. -/

namespace LedgerClient

/-- Whether a codec writes a value as JSON from which the value is read again. Null stands for missing
values only. -/
structure Codec.Restores {α : Type} (codec : Codec α) (value : α) : Prop where
  written : (codec.encode value).Written
  ne_null : codec.encode value ≠ .null
  decode : (codec.encode value).depth ≤ Json.maxDepth →
    ∀ tree, Json.Presents (codec.encode value) tree → codec.decode tree = .ok value

namespace Codec

variable {α : Type}

theorem restores_symbols {codec : Codec α} {value : α} {text : String}
    (encode : codec.encode value = .string text) (decode : codec.decode (.string text) = .ok value) :
    codec.Restores value where
  written := encode ▸ Json.Written.string text
  ne_null h := by
    rw [encode] at h
    cases h
  decode _ tree presents := by
    rw [encode] at presents
    rw [presents.eq_string, decode]

theorem restores_string (value : String) : string.Restores value :=
  restores_symbols rfl rfl

theorem restores_text {write : α → String} {parse : String → Except LedgerError α} {value : α}
    (h : parse (write value) = .ok value) : (text write parse).Restores value :=
  restores_symbols rfl (congrArg ofResult h)

theorem restores_hexBytes (bytes : Bytes) : hexBytes.Restores bytes :=
  restores_symbols rfl
    (congrArg (fun read => ofOption (Except.toOption read)) (Text.Hex.decode_encode bytes))

theorem restores_base64Bytes (bytes : Bytes) : base64Bytes.Restores bytes :=
  restores_symbols rfl (congrArg ofOption (Text.Base64.decode?_encode bytes))

theorem restores_bool (value : Bool) : bool.Restores value where
  written := Json.Written.bool value
  ne_null h := by cases h
  decode _ tree h := by
    cases h
    rfl

theorem decodeInt_ofInt {low high n : Int} (hl : low ≤ n) (hh : n ≤ high) :
    decodeInt low high (Json.ofInt n) = .ok n := by
  rw [Json.ofInt, decodeInt, Json.toInt?_ofInt]
  simp only [hl, hh, and_self, if_true]

theorem restores_integer {codec : Codec α} {value : α} {low high n : Int} {ofInt : Int → α}
    (encode : codec.encode value = Json.ofInt n)
    (decode : ∀ json, codec.decode json = ofInt <$> decodeInt low high json)
    (same : ofInt n = value) (hl : low ≤ n) (hh : n ≤ high)
    (narrow : -9223372036854775808 ≤ low ∧ high ≤ 18446744073709551615) :
    codec.Restores value where
  written := encode ▸ Json.Written.integer (Int.le_trans narrow.1 hl) (Int.le_trans hh narrow.2)
  ne_null h := by
    rw [encode] at h
    cases h
  decode _ tree presents := by
    rw [encode] at presents
    rw [presents.eq_ofInt, decode, decodeInt_ofInt hl hh, ← same]
    rfl

theorem restores_uint64 (n : UInt64) : uint64.Restores n := by
  have bound := n.toNat_lt
  exact restores_integer (n := n.toNat) rfl (fun _ => rfl) UInt64.ofNat_toNat
    (Int.natCast_nonneg _) (by omega) (by decide)

theorem restores_uint32 (n : UInt32) : uint32.Restores n := by
  have bound := n.toNat_lt
  exact restores_integer (n := n.toNat) rfl (fun _ => rfl) UInt32.ofNat_toNat
    (Int.natCast_nonneg _) (by omega) (by decide)

theorem restores_int64 (n : Int64) : int64.Restores n := by
  have high := n.toInt_lt
  exact restores_integer rfl (fun _ => rfl) (Int64.ofInt_toInt n) n.le_toInt (by omega) (by decide)

theorem restores_part {β : Type} {codec : Codec α} {inner : Codec β} {value : α} {part : β}
    {make : β → α} (h : inner.Restores part) (encode : codec.encode value = inner.encode part)
    (decode : ∀ json, codec.decode json = make <$> inner.decode json) (same : make part = value) :
    codec.Restores value where
  written := encode ▸ h.written
  ne_null := encode ▸ h.ne_null
  decode deep tree presents := by
    rw [encode] at deep presents
    rw [decode, h.decode deep tree presents, ← same]
    rfl

theorem mapM_of_forall₂ {codec : Codec α} {values : List α} {trees : List Json}
    (h : ∀ value ∈ values, ∀ tree, Json.Presents (codec.encode value) tree →
      codec.decode tree = .ok value)
    (all : List.Forall₂ Json.Presents (values.map codec.encode) trees) :
    trees.mapM codec.decode = .ok values := by
  induction values generalizing trees with
  | nil =>
    cases all
    rfl
  | cons value rest ih =>
    cases all with
    | cons presents others =>
      have first := h value List.mem_cons_self _ presents
      have tail := ih (fun other ho => h other (List.mem_cons_of_mem value ho)) others
      rw [List.mapM_cons, first, tail]
      rfl

theorem mapM_malformed {decode : Json → Decoded α} {items : List Json}
    (each : ∀ item ∈ items, (∃ value, decode item = .ok value) ∨ decode item = .error .malformed)
    (one : ∃ item ∈ items, decode item = .error .malformed) :
    items.mapM decode = .error .malformed := by
  induction items with
  | nil =>
    obtain ⟨item, hi, -⟩ := one
    cases hi
  | cons item rest ih =>
    rw [List.mapM_cons]
    rcases each item List.mem_cons_self with ⟨value, read⟩ | malformed
    · have later : ∃ other ∈ rest, decode other = .error .malformed := by
        obtain ⟨other, ho, malformed⟩ := one
        rcases List.mem_cons.mp ho with rfl | ho
        · rw [read] at malformed
          cases malformed
        · exact ⟨other, ho, malformed⟩
      rw [read, ih (fun other ho => each other (List.mem_cons_of_mem item ho)) later]
      rfl
    · rw [malformed]
      rfl

theorem checkEnding_of_ne {ends : Json.Ending} (h : ends ≠ .broken) :
    checkEnding ends = .ok () := by
  cases ends with
  | broken => exact absurd rfl h
  | closed => rfl
  | counted => rfl

theorem restores_list {codec : Codec α} {values : List α}
    (h : ∀ value ∈ values, codec.Restores value) :
    codec.list.Restores values where
  written := by
    refine Json.Written.items ?_
    intro item hi
    obtain ⟨value, hv, rfl⟩ := List.mem_map.mp hi
    exact (h value hv).written
  ne_null h := by cases h
  decode deep tree presents := by
    obtain ⟨trees, ends, rfl, complete, all⟩ := presents.of_ofItems
    have items := Json.depth_ofItems (values.map codec.encode)
    have bound : Json.depthOfItems (values.map codec.encode) ≤ Json.maxDepth := by
      have deep : (Json.ofItems (values.map codec.encode)).depth ≤ Json.maxDepth := deep
      omega
    have read : trees.mapM codec.decode = .ok values := by
      refine mapM_of_forall₂ ?_ all
      intro value hv tree presents
      have inside := Json.depth_le_of_mem_items (List.mem_map_of_mem (f := codec.encode) hv)
      exact (h value hv).decode (Nat.le_trans inside bound) tree presents
    show (do
      let values ← trees.mapM codec.decode
      checkEnding ends
      return values) = _
    rw [read]
    show (do
      checkEnding ends
      return values) = _
    rw [checkEnding_of_ne complete]
    rfl

theorem optional_decode_of_ne {codec : Codec α} {tree : Json} (h : tree ≠ .null) :
    codec.optional.decode tree = some <$> codec.decode tree := by
  cases tree with
  | null => exact absurd rfl h
  | _ => rfl

theorem decode_optional {codec : Codec α} {value : α} (h : codec.Restores value)
    (deep : (codec.encode value).depth ≤ Json.maxDepth) {tree : Json}
    (presents : Json.Presents (codec.encode value) tree) :
    codec.optional.decode tree = .ok (some value) := by
  have read := h.decode deep tree presents
  have notNull : tree ≠ .null := by
    rintro rfl
    have ne := h.ne_null
    generalize codec.encode value = json at presents ne
    cases presents
    exact ne rfl
  rw [optional_decode_of_ne notNull, read]
  rfl

/-! ### Nesting -/

def WritesWithin (levels : Nat) (codec : Codec α) : Prop :=
  ∀ value, (codec.encode value).depth ≤ levels

section

variable {levels : Nat}

@[simp] theorem within_string : string.WritesWithin levels := fun _ => Nat.zero_le levels

@[simp] theorem within_uint64 : uint64.WritesWithin levels := fun _ => Nat.zero_le levels

@[simp] theorem within_hexBytes : hexBytes.WritesWithin levels := fun _ => Nat.zero_le levels

@[simp] theorem within_text {write : α → String} {parse : String → Except LedgerError α} :
    (text write parse).WritesWithin levels := fun _ => Nat.zero_le levels

@[simp] theorem within_optional {codec : Codec α} (h : codec.WritesWithin levels) :
    codec.optional.WritesWithin levels
  | none => Nat.zero_le levels
  | some value => h value

@[simp] theorem within_list {codec : Codec α} (h : codec.WritesWithin levels) :
    codec.list.WritesWithin (levels + 1) := by
  intro values
  show (Json.ofItems (values.map codec.encode)).depth ≤ levels + 1
  rw [Json.depth_ofItems]
  refine Nat.succ_le_succ (Nat.le_of_not_lt fun deeper => ?_)
  obtain ⟨item, hi, deep⟩ := Json.exists_of_lt_depthOfItems deeper
  obtain ⟨value, -, rfl⟩ := List.mem_map.mp hi
  exact Nat.not_lt_of_le (h value) deep

end

end Codec

end LedgerClient
