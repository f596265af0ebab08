import LedgerClient.Proofs.Checksum.Ledgers
import LedgerClient.Proofs.Notation.AccountGrammar

/-! An id written with the checksum for a ledger is the text of the id that carries this checksum, in
place of any other. So it is read as that id, and the ledger accepts it. -/

namespace LedgerClient

theorem CheckedId.validate_stamped (id : CheckedId) (ledger : LedgerId) :
    (id.stamped ledger).validate ledger = .ok () :=
  (id.validate_stamped_eq_ok_iff ledger ledger).mpr rfl

variable (ledger : LedgerId)

namespace EntityId

variable {kind : EntityKind}

/-- The id with the checksum for a ledger. -/
def stamped (id : EntityId kind) : EntityId kind :=
  { id with checksum := some (Checksum.generate id.baseText ledger) }

theorem text_stamped (id : EntityId kind) : (id.stamped ledger).text = id.textWithChecksum ledger :=
  rfl

theorem parse_textWithChecksum (id : EntityId kind) :
    parse (id.textWithChecksum ledger) = .ok (id.stamped ledger) := by
  rw [← text_stamped, parse_text]

theorem validateChecksum_stamped (id : EntityId kind) :
    (id.stamped ledger).validateChecksum ledger = .ok () :=
  id.checked.validate_stamped ledger

end EntityId

namespace NftId

def stamped (id : NftId) : NftId :=
  { id with token := id.token.stamped ledger }

theorem parse_textWithChecksum (id : NftId) :
    parse (id.textWithChecksum ledger) = .ok (id.stamped ledger) := by
  have text : (id.stamped ledger).text = id.textWithChecksum ledger := rfl
  rw [← text, parse_text]

end NftId

namespace AccountId

/-- The account with the checksum for a ledger, if it is a numeric one. -/
def stamped (id : AccountId) : AccountId :=
  id.withChecksum (Checksum.generate id.checked.text ledger)

theorem textWithChecksum_ofEntity (id : EntityId .entity) :
    (ofEntity id).textWithChecksum ledger = .ok ((ofEntity id).stamped ledger).text := rfl

theorem validateChecksum_stamped_ofEntity (id : EntityId .entity) :
    ((ofEntity id).stamped ledger).validateChecksum ledger = .ok () :=
  id.checked.validate_stamped ledger

variable {id : AccountId}

theorem exists_ofEntity (h : id.isNumeric = true) :
    ∃ entity : EntityId .entity, id = ofEntity entity := by
  obtain ⟨shard, realm, form⟩ := id
  cases form with
  | number num carried => exact ⟨⟨shard, realm, num, carried⟩, rfl⟩
  | key key => cases h
  | address address => cases h

theorem validateChecksum_of_not_numeric (h : id.isNumeric = false) :
    id.validateChecksum ledger = .ok () := by
  obtain ⟨shard, realm, form⟩ := id
  cases form with
  | number num carried => cases h
  | key key => rfl
  | address address => rfl

end AccountId

/-- What is written with the checksum for a ledger is read with that checksum, whichever one the id
carried before, and the ledger accepts it. For accounts with an alias or an address nothing is written,
and every ledger accepts them. -/
theorem Checksum.accepted_where_generated :
    (∀ (kind : EntityKind) (id : EntityId kind),
      EntityId.parse (id.textWithChecksum ledger) = .ok (id.stamped ledger) ∧
        (id.stamped ledger).validateChecksum ledger = .ok ()) ∧
    (∀ id : NftId,
      NftId.parse (id.textWithChecksum ledger) = .ok (id.stamped ledger) ∧
        (id.stamped ledger).token.validateChecksum ledger = .ok ()) ∧
    (∀ id : AccountId, id.isNumeric = true →
      ∃ text, id.textWithChecksum ledger = .ok text ∧
        AccountId.parse text = .ok (id.stamped ledger) ∧
        (id.stamped ledger).validateChecksum ledger = .ok ()) ∧
    ∀ id : AccountId, id.isNumeric = false →
      id.textWithChecksum ledger = .error (.invalidArgument (.checksumOfAccount id.text)) ∧
        id.validateChecksum ledger = .ok () := by
  refine ⟨fun kind id => ?entity, fun id => ?nft, fun id numeric => ?numeric,
    fun id other => ?other⟩
  case entity => exact ⟨id.parse_textWithChecksum ledger, id.validateChecksum_stamped ledger⟩
  case nft => exact ⟨id.parse_textWithChecksum ledger, id.token.validateChecksum_stamped ledger⟩
  case numeric =>
    obtain ⟨entity, rfl⟩ := AccountId.exists_ofEntity numeric
    exact ⟨_, AccountId.textWithChecksum_ofEntity ledger entity, AccountId.parse_text _,
      AccountId.validateChecksum_stamped_ofEntity ledger entity⟩
  case other =>
    refine ⟨?_, AccountId.validateChecksum_of_not_numeric ledger other⟩
    rw [AccountId.textWithChecksum, other]
    rfl

theorem Checksum.accepted_where_generated_nameless :
    let stale := (AccountId.ofNum 123).withChecksum (generate "0.0.123" .mainnet)
    let addressed := AccountId.ofAddress 0 0 ⟨List.replicate 20 7, rfl⟩
    (stale.isNumeric = true ∧
      ∃ text, stale.textWithChecksum ⟨[]⟩ = .ok text ∧
        AccountId.parse text = .ok (stale.stamped ⟨[]⟩) ∧
        (stale.stamped ⟨[]⟩).validateChecksum ⟨[]⟩ = .ok ()) ∧
    addressed.isNumeric = false ∧
      addressed.textWithChecksum ⟨[]⟩ =
        .error (.invalidArgument (.checksumOfAccount addressed.text)) ∧
      addressed.validateChecksum ⟨[]⟩ = .ok () := by
  obtain ⟨-, -, numeric, other⟩ := Checksum.accepted_where_generated ⟨[]⟩
  exact ⟨⟨rfl, numeric _ rfl⟩, rfl, other _ rfl⟩

end LedgerClient
