import LedgerClient.Operation.Basic
import LedgerClient.Proofs.Operation.Approval
import LedgerClient.Proofs.Operation.RoundTrip
import Mathlib.Data.Multiset.Basic

/-!
Approvals as a multiset of rights to single serials. Approving one more serial adds one right for its
token, owner and spender and takes none away. The right is on the terms of the entry that takes the
serial up, the first serial list that was read for the three; what is called after reading does not
change which one this is.
-/

namespace LedgerClient

namespace AllowanceApproval

/-- The right to transfer one serial, and who delegates it, if not the owner grants it. -/
structure SerialGrant extends Grant where
  delegatingSpender : Option AccountId
  serial : UInt64
  deriving DecidableEq

/-- The rights that an entry lists; an entry for all serials lists none. -/
def listed (entry : NftAllowance) : List SerialGrant :=
  if entry.approvedForAll = none then
    entry.serials.map (⟨⟨entry.token, entry.owner, entry.spender⟩, entry.delegatingSpender, ·⟩)
  else []

def serialGrants (approval : AllowanceApproval) : Multiset SerialGrant :=
  ↑(approval.nft.flatMap listed)

def coveringAll (approval : AllowanceApproval) : List NftAllowance :=
  approval.nft.filter (·.approvedForAll.isSome)

/-- Who delegates the first serial list for a grant. -/
def delegate? (grant : Grant) (entries : List NftAllowance) : Option AccountId :=
  (entries.find? grant.lists).bind (·.delegatingSpender)

section

variable (nft : NftId) (owner spender : AccountId) (entries : List NftAllowance)

theorem listed_append {grant : Grant} {entry : NftAllowance} (h : grant.lists entry = true)
    (serial : UInt64) :
    listed { entry with serials := entry.serials ++ [serial] } =
      listed entry ++ [⟨grant, entry.delegatingSpender, serial⟩] := by
  obtain ⟨token, owner, spender, unset⟩ := (grant.lists_iff entry).mp h
  rw [listed, listed, if_pos unset, if_pos unset, List.map_append, token, owner, spender]
  rfl

theorem flatMap_listed_addSerial :
    ((addSerial nft owner spender entries).flatMap listed).Perm
      (⟨⟨nft.token, owner, spender⟩, delegate? ⟨nft.token, owner, spender⟩ entries, nft.serial⟩ ::
        entries.flatMap listed) := by
  induction entries with
  | nil => exact .refl _
  | cons entry rest ih =>
    rw [addSerial]
    split
    · next found =>
      have found : Grant.lists ⟨nft.token, owner, spender⟩ entry = true := found
      have first : delegate? ⟨nft.token, owner, spender⟩ (entry :: rest) =
          entry.delegatingSpender := by
        rw [delegate?, List.find?_cons_of_pos found]
        rfl
      rw [List.flatMap_cons, List.flatMap_cons, listed_append found, first, List.append_assoc]
      exact List.perm_middle
    · next other =>
      have other : ¬ Grant.lists ⟨nft.token, owner, spender⟩ entry = true := other
      have later : delegate? ⟨nft.token, owner, spender⟩ (entry :: rest) =
          delegate? ⟨nft.token, owner, spender⟩ rest := by
        rw [delegate?, List.find?_cons_of_neg other]
        rfl
      rw [List.flatMap_cons, List.flatMap_cons, later]
      exact (ih.append_left (listed entry)).trans List.perm_middle

theorem filter_isSome_addSerial :
    (addSerial nft owner spender entries).filter (·.approvedForAll.isSome) =
      entries.filter (·.approvedForAll.isSome) := by
  induction entries with
  | nil => rfl
  | cons entry rest ih =>
    rw [addSerial]
    split
    · next found =>
      have unset : entry.approvedForAll = none :=
        ((Grant.lists_iff ⟨nft.token, owner, spender⟩ entry).mp found).2.2.2
      simp [unset]
    · simp [List.filter_cons, ih]

theorem delegate?_addSerial (grant : Grant) :
    delegate? grant (addSerial nft owner spender entries) = delegate? grant entries := by
  -- The first serial list for a grant keeps its terms when a serial is approved; a list that
  -- is new has no delegating spender.
  induction entries with
  | nil =>
    rw [addSerial, delegate?, List.find?_singleton]
    split <;> rfl
  | cons entry rest ih =>
    rw [addSerial]
    split
    · -- A serial more does not change what an entry is for.
      have same : grant.lists { entry with serials := entry.serials ++ [nft.serial] } =
          grant.lists entry := rfl
      rw [delegate?, delegate?, List.find?_cons, List.find?_cons, same]
      split <;> rfl
    · rw [delegate?, delegate?, List.find?_cons, List.find?_cons]
      split
      · rfl
      · exact ih

end

theorem delegate?_apply (grant : Grant) (approval : AllowanceApproval) (call : Call) :
    delegate? grant (approval.apply call).nft = delegate? grant approval.nft := by
  cases call with
  | approveNft nft owner spender => exact delegate?_addSerial nft owner spender approval.nft grant
  | approveAllSerials token owner spender | deleteAllSerials token owner spender =>
    have never (approved : Bool) : grant.lists (allSerials token owner spender approved) = false :=
      grant.lists_of_isSome rfl
    simp [apply, delegate?, List.find?_append, never]
  | _ => rfl

theorem delegate?_after (grant : Grant) (approval : AllowanceApproval) (calls : List Call) :
    delegate? grant (approval.after calls).nft = delegate? grant approval.nft := by
  induction calls generalizing approval with
  | nil => rfl
  | cons call rest ih => exact (ih (approval.apply call)).trans (delegate?_apply grant approval call)

/-- `next` has one right more than `approval` to a single serial, and all else as before. -/
structure GrantsOnly (right : SerialGrant) (approval next : AllowanceApproval) : Prop where
  grants : next.serialGrants = right ::ₘ approval.serialGrants
  coveringAll : next.coveringAll = approval.coveringAll
  hbar : next.hbar = approval.hbar
  token : next.token = approval.token

theorem grantsOnly_approveNft (approval : AllowanceApproval) (nft : NftId)
    (owner spender : AccountId) :
    GrantsOnly ⟨⟨nft.token, owner, spender⟩,
        delegate? ⟨nft.token, owner, spender⟩ approval.nft, nft.serial⟩
      approval (approval.apply (.approveNft nft owner spender)) where
  grants := Multiset.coe_eq_coe.mpr (flatMap_listed_addSerial nft owner spender approval.nft)
  coveringAll := filter_isSome_addSerial nft owner spender approval.nft
  hbar := rfl
  token := rfl

theorem GrantsOnly.unique {right other : SerialGrant} {approval next : AllowanceApproval}
    (first : GrantsOnly right approval next) (second : GrantsOnly other approval next) :
    right = other :=
  (Multiset.cons_inj_left _).mp (first.grants.symm.trans second.grants)

end AllowanceApproval

open AllowanceApproval in
/-- Approving a serial, after any calls on a transaction that is new or was read, grants one right,
which the spender named first delegates whose serial list for the same token, owner and spender was
read first. So it grants exactly the right that was asked for if this list has no delegating spender,
or if there is no such list; transactions that were built from new have none. -/
theorem serial_granted_exactly_iff (start : Transaction .accountAllowanceApprove)
    (unfrozen : start.isFrozen = false) (calls : List Call) (nft : NftId)
    (owner spender : AccountId) :
    ∃ transaction next : Transaction .accountAllowanceApprove,
      start.approve calls = .ok transaction ∧
      transaction.call (.data (Call.approveNft nft owner spender)) = .ok next ∧
      GrantsOnly ⟨⟨nft.token, owner, spender⟩,
          delegate? ⟨nft.token, owner, spender⟩ (AllowanceApproval.nft start.body.data), nft.serial⟩
        transaction.body.data next.body.data ∧
      (GrantsOnly ⟨⟨nft.token, owner, spender⟩, none, nft.serial⟩ transaction.body.data
          next.body.data ↔
        delegate? ⟨nft.token, owner, spender⟩ (AllowanceApproval.nft start.body.data) = none) ∧
      (start = .new →
        delegate? ⟨nft.token, owner, spender⟩ (AllowanceApproval.nft start.body.data) = none) := by
  obtain ⟨transaction, run, stillUnfrozen, data⟩ :
      ∃ transaction, start.approve calls = .ok transaction ∧ transaction.isFrozen = false ∧
        transaction.body.data = AllowanceApproval.after start.body.data calls :=
    ⟨_, start.approve_of_not_frozen unfrozen calls, unfrozen, rfl⟩
  have granted := grantsOnly_approveNft transaction.body.data nft owner spender
  have delegates := delegate?_after ⟨nft.token, owner, spender⟩ start.body.data calls
  rw [← data] at delegates
  rw [delegates] at granted
  refine ⟨transaction, _, run, Transaction.call_approval_of_not_frozen stillUnfrozen _, granted,
    ⟨?_, ?_⟩, ?_⟩
  · intro exactly
    exact congrArg SerialGrant.delegatingSpender (granted.unique exactly)
  · intro owned
    rw [owned] at granted
    exact granted
  · rintro rfl
    rfl

/-- Account 1003 delegates serial 1 of account 1001. -/
def delegatedSerial : NftAllowance where
  token := .ofNum 500
  owner := .ofNum 1001
  spender := .ofNum 1002
  serials := [1]
  delegatingSpender := some (.ofNum 1003)

def delegatedApproval : Transaction .accountAllowanceApprove :=
  { body := { data := { nft := [delegatedSerial] : AllowanceApproval } } }

open AllowanceApproval in
theorem serial_granted_exactly_iff_delegated :
    delegatedApproval.isFrozen = false ∧
      ∃ transaction next : Transaction .accountAllowanceApprove,
        delegatedApproval.approve [.approveAllSerials (.ofNum 500) (.ofNum 1001) (.ofNum 1002)] =
          .ok transaction ∧
        transaction.call (.data (Call.approveNft ⟨.ofNum 500, 2⟩ (.ofNum 1001) (.ofNum 1002))) =
          .ok next ∧
        GrantsOnly ⟨⟨.ofNum 500, .ofNum 1001, .ofNum 1002⟩, some (.ofNum 1003), 2⟩
          transaction.body.data next.body.data ∧
        ¬ GrantsOnly ⟨⟨.ofNum 500, .ofNum 1001, .ofNum 1002⟩, none, 2⟩ transaction.body.data
          next.body.data := by
  obtain ⟨transaction, next, run, called, granted, exactly, -⟩ :=
    serial_granted_exactly_iff delegatedApproval rfl
      [.approveAllSerials (.ofNum 500) (.ofNum 1001) (.ofNum 1002)] ⟨.ofNum 500, 2⟩ (.ofNum 1001)
      (.ofNum 1002)
  exact ⟨rfl, transaction, next, run, called, granted, fun asked => nomatch exactly.mp asked⟩

def delegatedApprovalText : String :=
  "\x7b\"accountAllowanceApprove\":\x7b\"hbarAllowances\":[],\"tokenAllowances\":[]," ++
    "\"nftAllowances\":[\x7b\"tokenId\":\"0.0.500\",\"ownerAccountId\":\"0.0.1001\"," ++
    "\"spenderAccountId\":\"0.0.1002\",\"serials\":[1]," ++
    "\"delegatingSpenderAccountId\":\"0.0.1003\"\x7d]\x7d\x7d"

open AllowanceApproval in
/-- A serial that the owner approves ends up in the list of another account that delegates. -/
theorem serial_granted_by_delegate :
    ∃ transaction next : Transaction .accountAllowanceApprove,
      Transaction.ofEnvelope delegatedApprovalText = .ok transaction ∧
      transaction.isFrozen = false ∧
      transaction.call (.data (Call.approveNft ⟨.ofNum 500, 2⟩ (.ofNum 1001) (.ofNum 1002))) =
        .ok next ∧
      ¬ GrantsOnly ⟨⟨.ofNum 500, .ofNum 1001, .ofNum 1002⟩, none, 2⟩ transaction.body.data
        next.body.data := by
  have text : delegatedApprovalText = delegatedApproval.envelope := by decide +kernel
  have read : Transaction.ofEnvelope delegatedApprovalText = .ok delegatedApproval := by
    rw [text]
    have sound : delegatedApproval.body.Sound := ⟨⟨nofun, nofun, nofun⟩, nofun⟩
    exact Transaction.ofEnvelope_envelope sound (by decide) (by decide) (by decide +kernel)
  refine ⟨delegatedApproval, _, read, rfl, Transaction.call_approval_of_not_frozen rfl _, ?_⟩
  intro asked
  have granted := grantsOnly_approveNft delegatedApproval.body.data ⟨.ofNum 500, 2⟩ (.ofNum 1001)
    (.ofNum 1002)
  exact nomatch congrArg SerialGrant.delegatingSpender (granted.unique asked)

end LedgerClient
