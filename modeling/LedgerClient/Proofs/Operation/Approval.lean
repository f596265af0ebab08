import LedgerClient.Transaction.Basic

/-! What a run of approvals amounts to. The entries for single serials are grouped by token, owner and
spender, at the place of the first approval of each group; all other calls have entries of their own. -/

namespace LedgerClient

namespace AllowanceApproval

/-- Whose tokens are approved, and for whom. -/
structure Grant where
  token : TokenId
  owner : AccountId
  spender : AccountId
  deriving DecidableEq

namespace Grant

def lists (grant : Grant) (entry : NftAllowance) : Bool :=
  listsSerialsOf grant.token grant.owner grant.spender entry

def entry (grant : Grant) (serials : List UInt64) : NftAllowance :=
  { token := grant.token, owner := grant.owner, spender := grant.spender, serials }

theorem lists_iff (grant : Grant) (entry : NftAllowance) :
    grant.lists entry = true ↔ entry.token = grant.token ∧ entry.owner = grant.owner ∧
      entry.spender = grant.spender ∧ entry.approvedForAll = none := by
  simp [lists, listsSerialsOf, and_assoc]

@[simp] theorem lists_entry (grant other : Grant) (serials : List UInt64) :
    grant.lists (other.entry serials) = decide (other = grant) := by
  obtain ⟨token, owner, spender⟩ := other
  obtain ⟨token', owner', spender'⟩ := grant
  rw [Bool.eq_iff_iff, lists_iff]
  simp [entry]

theorem lists_of_isSome (grant : Grant) {entry : NftAllowance}
    (h : entry.approvedForAll.isSome = true) : grant.lists entry = false := by
  rw [Bool.eq_false_iff, Ne, lists_iff]
  rintro ⟨-, -, -, unset⟩
  rw [unset] at h
  cases h

end Grant

namespace Call

def hbar? : Call → Option HbarAllowance
  | approveHbar owner spender amount => some { owner, spender, amount }
  | _ => none

def token? : Call → Option TokenAllowance
  | approveToken token owner spender amount => some { token, owner, spender, amount }
  | _ => none

def allSerials? : Call → Option NftAllowance
  | approveAllSerials token owner spender =>
    some { token, owner, spender, serials := [], approvedForAll := some true }
  | deleteAllSerials token owner spender =>
    some { token, owner, spender, serials := [], approvedForAll := some false }
  | _ => none

def serial? (grant : Grant) : Call → Option UInt64
  | approveNft nft owner spender =>
    if (⟨nft.token, owner, spender⟩ : Grant) = grant then some nft.serial else none
  | _ => none

/-- An entry after a call that lists one more serial in it, or does not concern it. -/
def extend (entry : NftAllowance) : Call → NftAllowance
  | approveNft nft owner spender =>
    if (⟨nft.token, owner, spender⟩ : Grant).lists entry then
      { entry with serials := entry.serials ++ [nft.serial] }
    else entry
  | _ => entry

end Call

def serialsOf (grant : Grant) (calls : List Call) : List UInt64 :=
  calls.filterMap (Call.serial? grant)

@[simp] theorem serialsOf_nil (grant : Grant) : serialsOf grant [] = [] := rfl

@[simp] theorem serialsOf_cons (grant : Grant) (call : Call) (calls : List Call) :
    serialsOf grant (call :: calls) = (call.serial? grant).toList ++ serialsOf grant calls := by
  cases h : call.serial? grant <;> simp [serialsOf, h]

@[simp] theorem serialsOf_append (grant : Grant) (first second : List Call) :
    serialsOf grant (first ++ second) = serialsOf grant first ++ serialsOf grant second :=
  List.filterMap_append

/-- The entry that a call creates behind the calls before it, as it stands after all calls. -/
def entryOf (all before : List Call) : Call → Option NftAllowance
  | .approveNft nft owner spender =>
    let grant : Grant := ⟨nft.token, owner, spender⟩
    if serialsOf grant before = [] then some (grant.entry (serialsOf grant all)) else none
  | call => call.allSerials?

def entriesFrom (all : List Call) : (before calls : List Call) → List NftAllowance
  | _, [] => []
  | before, call :: rest =>
    (entryOf all before call).toList ++ entriesFrom all (before ++ [call]) rest

/-- The entries of the calls, each at the place of the call that creates it. -/
def grouped (calls : List Call) : List NftAllowance :=
  entriesFrom calls [] calls

theorem entriesFrom_concat (all before calls : List Call) (call : Call) :
    entriesFrom all before (calls ++ [call]) =
      entriesFrom all before calls ++ (entryOf all (before ++ calls) call).toList := by
  induction calls generalizing before with
  | nil => simp [entriesFrom]
  | cons first rest ih => simp [entriesFrom, ih]

theorem extend_of_isSome {entry : NftAllowance} (h : entry.approvedForAll.isSome = true)
    (call : Call) : call.extend entry = entry := by
  cases call <;> simp [Call.extend, Grant.lists_of_isSome, h]

theorem extend_entry (grant : Grant) (serials : List UInt64) (call : Call) :
    call.extend (grant.entry serials) = grant.entry (serials ++ (call.serial? grant).toList) := by
  cases call with
  | approveNft nft owner spender =>
    rw [Call.extend, Call.serial?, Grant.lists_entry]
    by_cases same : grant = ⟨nft.token, owner, spender⟩
    · simp [same, Grant.entry]
    · simp [same, Ne.symm same]
  | _ => simp [Call.extend, Call.serial?]

theorem isSome_of_allSerials? {call : Call} {entry : NftAllowance}
    (h : call.allSerials? = some entry) : entry.approvedForAll.isSome = true := by
  cases call with
  | approveAllSerials token owner spender | deleteAllSerials token owner spender =>
    cases h
    rfl
  | _ => cases h

theorem map_extend_allSerials? (call other : Call) :
    other.allSerials?.map call.extend = other.allSerials? := by
  cases h : other.allSerials? with
  | none => rfl
  | some entry => simp [extend_of_isSome (isSome_of_allSerials? h)]

theorem map_extend_entryOf (all before : List Call) (call other : Call) :
    (entryOf all before other).map call.extend = entryOf (all ++ [call]) before other := by
  cases other with
  | approveNft nft owner spender =>
    simp only [entryOf]
    split
    · simp [extend_entry]
    · rfl
  | _ =>
    simp only [entryOf]
    exact map_extend_allSerials? call _

theorem map_extend_entriesFrom (all before calls : List Call) (call : Call) :
    (entriesFrom all before calls).map call.extend = entriesFrom (all ++ [call]) before calls := by
  induction calls generalizing before with
  | nil => rfl
  | cons first rest ih =>
    simp [entriesFrom, ih, ← map_extend_entryOf, Option.toList_map]

theorem grouped_concat (calls : List Call) (call : Call) :
    grouped (calls ++ [call]) =
      (grouped calls).map call.extend ++ (entryOf (calls ++ [call]) calls call).toList := by
  rw [grouped, entriesFrom_concat, List.nil_append, grouped, map_extend_entriesFrom]

theorem filter_lists_entryOf (grant : Grant) (all before : List Call) (call : Call) :
    (entryOf all before call).toList.filter grant.lists =
      if serialsOf grant before = [] ∧ call.serial? grant ≠ none then
        [grant.entry (serialsOf grant all)]
      else [] := by
  cases call with
  | approveNft nft owner spender =>
    simp only [entryOf, Call.serial?]
    by_cases same : (⟨nft.token, owner, spender⟩ : Grant) = grant
    · subst same
      split <;> simp_all
    · split <;> simp [same]
  | _ =>
    simp [entryOf, Call.allSerials?, Call.serial?, Grant.lists_of_isSome]

theorem filter_lists_entriesFrom (grant : Grant) (all before calls : List Call) :
    (entriesFrom all before calls).filter grant.lists =
      if serialsOf grant before = [] ∧ serialsOf grant calls ≠ [] then
        [grant.entry (serialsOf grant all)]
      else [] := by
  -- A grant has one serial list, from the first call that approves a serial for it.
  induction calls generalizing before with
  | nil => simp [entriesFrom]
  | cons call rest ih =>
    rw [entriesFrom, List.filter_append, ih, filter_lists_entryOf]
    cases serial : call.serial? grant <;> by_cases first : serialsOf grant before = [] <;>
      simp [serial, first]

theorem filter_lists_grouped (grant : Grant) (calls : List Call) :
    (grouped calls).filter grant.lists =
      if serialsOf grant calls = [] then [] else [grant.entry (serialsOf grant calls)] := by
  rw [grouped, filter_lists_entriesFrom]
  by_cases none : serialsOf grant calls = [] <;> simp [none]

theorem filter_isSome_entriesFrom (all before calls : List Call) :
    (entriesFrom all before calls).filter (·.approvedForAll.isSome) =
      calls.filterMap Call.allSerials? := by
  -- The entries that cover all serials are those of the calls for them.
  induction calls generalizing before with
  | nil => rfl
  | cons call rest ih =>
    have own : (entryOf all before call).toList.filter (·.approvedForAll.isSome) =
        call.allSerials?.toList := by
      cases call with
      | approveNft nft owner spender =>
        simp only [entryOf]
        split <;> simp [Grant.entry, Call.allSerials?]
      | _ => simp [entryOf, Call.allSerials?]
    rw [entriesFrom, List.filter_append, ih, own]
    cases entry : call.allSerials? <;> simp [entry]

theorem extend_of_not_lists {nft : NftId} {owner spender : AccountId} {entry : NftAllowance}
    (h : listsSerialsOf nft.token owner spender entry = false) :
    (Call.approveNft nft owner spender).extend entry = entry := by
  simp [Call.extend, Grant.lists, h]

section

variable {nft : NftId} {owner spender : AccountId} {entries : List NftAllowance}

theorem addSerial_of_filter_eq_nil
    (h : entries.filter (listsSerialsOf nft.token owner spender) = []) :
    addSerial nft owner spender entries =
      entries.map (Call.approveNft nft owner spender).extend ++
        [Grant.entry ⟨nft.token, owner, spender⟩ [nft.serial]] := by
  induction entries with
  | nil => rfl
  | cons entry rest ih =>
    have other : listsSerialsOf nft.token owner spender entry = false := by
      simp_all [List.filter_eq_nil_iff]
    rw [List.filter_cons_of_neg (by simp [other])] at h
    rw [addSerial, other, List.map_cons, extend_of_not_lists other, ih h]
    rfl

theorem addSerial_of_filter_eq_single {listed : NftAllowance}
    (h : entries.filter (listsSerialsOf nft.token owner spender) = [listed]) :
    addSerial nft owner spender entries =
      entries.map (Call.approveNft nft owner spender).extend := by
  induction entries with
  | nil => cases h
  | cons entry rest ih =>
    cases found : listsSerialsOf nft.token owner spender entry with
    | true =>
      rw [List.filter_cons_of_pos found] at h
      have none : rest.filter (listsSerialsOf nft.token owner spender) = [] := (List.cons.inj h).2
      have same : ∀ other ∈ rest, (Call.approveNft nft owner spender).extend other = other := by
        intro other ho
        exact extend_of_not_lists (Bool.eq_false_iff.mpr (List.filter_eq_nil_iff.mp none other ho))
      rw [addSerial, if_pos found, List.map_cons, List.map_congr_left same, List.map_id']
      simp [Call.extend, Grant.lists, found]
    | false =>
      rw [List.filter_cons_of_neg (by simp [found])] at h
      rw [addSerial, found, List.map_cons, extend_of_not_lists found, ih h]
      rfl

end

theorem nft_apply {approval : AllowanceApproval} {calls : List Call}
    (before : approval.nft = grouped calls) (call : Call) :
    (approval.apply call).nft = grouped (calls ++ [call]) := by
  rw [grouped_concat]
  cases call with
  | approveNft nft owner spender =>
    -- The call finds the first entry for its grant and the grouping extends all of them. There is at
    -- most one.
    have listed := filter_lists_grouped ⟨nft.token, owner, spender⟩ calls
    show addSerial nft owner spender approval.nft = _
    rw [before]
    by_cases first : serialsOf ⟨nft.token, owner, spender⟩ calls = []
    · rw [if_pos first] at listed
      rw [addSerial_of_filter_eq_nil listed]
      simp [entryOf, first, Call.serial?]
    · rw [if_neg first] at listed
      rw [addSerial_of_filter_eq_single listed]
      simp [entryOf, first]
  | approveAllSerials token owner spender | deleteAllSerials token owner spender =>
    simp [apply, allSerials, before, entryOf, Call.allSerials?, Call.extend]
  | _ => simp [apply, before, entryOf, Call.allSerials?, Call.extend]

def after (approval : AllowanceApproval) (calls : List Call) : AllowanceApproval :=
  calls.foldl apply approval

theorem nft_after {approval : AllowanceApproval} {before : List Call}
    (h : approval.nft = grouped before) (calls : List Call) :
    (approval.after calls).nft = grouped (before ++ calls) := by
  induction calls generalizing approval before with
  | nil => rw [List.append_nil]; exact h
  | cons call rest ih =>
    rw [List.append_cons]
    exact ih (nft_apply h call)

example :
    (after {} [.approveNft ⟨default, 1⟩ default default,
        .approveAllSerials default default default,
        .approveNft ⟨default, 2⟩ default default]).nft =
      [Grant.entry ⟨default, default, default⟩ [1, 2], allSerials default default default true] := by
  decide

theorem field_after {α : Type} {field : AllowanceApproval → List α} {added? : Call → Option α}
    (step : ∀ approval call, field (apply approval call) = field approval ++ (added? call).toList)
    (approval : AllowanceApproval) (calls : List Call) :
    field (approval.after calls) = field approval ++ calls.filterMap added? := by
  induction calls generalizing approval with
  | nil => simp [after]
  | cons call rest ih =>
    have later : field ((approval.apply call).after rest) = _ := ih _
    rw [after, List.foldl_cons, ← after, later, step]
    cases entry : added? call <;> simp [entry]

theorem hbar_after (approval : AllowanceApproval) (calls : List Call) :
    (approval.after calls).hbar = approval.hbar ++ calls.filterMap Call.hbar? :=
  field_after (fun _ call => by cases call <;> simp [apply, Call.hbar?]) approval calls

theorem token_after (approval : AllowanceApproval) (calls : List Call) :
    (approval.after calls).token = approval.token ++ calls.filterMap Call.token? :=
  field_after (fun _ call => by cases call <;> simp [apply, Call.token?]) approval calls

/-- What approvals hold after a run of calls, from the calls alone. -/
structure Aggregates (calls : List Call) (approval : AllowanceApproval) : Prop where
  hbar : approval.hbar = calls.filterMap Call.hbar?
  token : approval.token = calls.filterMap Call.token?
  /-- The entries stand in the order of the calls that created them. -/
  nft : approval.nft = grouped calls
  /-- A grant has one serial list if a serial was approved for it, and none otherwise. -/
  serials : ∀ grant : Grant, approval.nft.filter grant.lists =
    if serialsOf grant calls = [] then [] else [grant.entry (serialsOf grant calls)]
  /-- Each call for all serials has an entry of its own. -/
  allSerials : approval.nft.filter (·.approvedForAll.isSome) = calls.filterMap Call.allSerials?

theorem aggregates_after (calls : List Call) : Aggregates calls (after {} calls) := by
  have nft : (after {} calls).nft = grouped calls :=
    @nft_after {} [] rfl calls
  exact
    { hbar := hbar_after {} calls
      token := token_after {} calls
      nft
      serials := fun grant => by rw [nft, filter_lists_grouped]
      allSerials := by rw [nft, grouped, filter_isSome_entriesFrom] }

end AllowanceApproval

namespace Transaction

def approve (transaction : Transaction .accountAllowanceApprove)
    (calls : List AllowanceApproval.Call) :
    Except LedgerError (Transaction .accountAllowanceApprove) :=
  calls.foldlM (fun transaction call => transaction.call (.data call)) transaction

theorem call_approval_of_not_frozen {transaction : Transaction .accountAllowanceApprove}
    (unfrozen : transaction.isFrozen = false) (call : AllowanceApproval.Call) :
    transaction.call (.data call) =
      .ok { transaction with
        body := { transaction.body with
          data := AllowanceApproval.apply transaction.body.data call } } := by
  rw [Transaction.call, unfrozen]
  rfl

theorem approve_of_not_frozen {transaction : Transaction .accountAllowanceApprove}
    (unfrozen : transaction.isFrozen = false) (calls : List AllowanceApproval.Call) :
    transaction.approve calls =
      .ok { transaction with
        body := { transaction.body with
          data := AllowanceApproval.after transaction.body.data calls } } := by
  induction calls generalizing transaction with
  | nil => rfl
  | cons call rest ih =>
    show (transaction.call (.data call) >>= fun next => next.approve rest) = _
    rw [call_approval_of_not_frozen unfrozen]
    exact ih unfrozen

end Transaction

/-- Any calls on a new transaction of approvals succeed and are aggregated. What the transaction lists
for a grant depends on the serials approved for that grant alone, whatever is approved in between. -/
theorem approvals_aggregate (calls : List AllowanceApproval.Call) :
    ∃ transaction : Transaction .accountAllowanceApprove,
      Transaction.new.approve calls = .ok transaction ∧ transaction.isFrozen = false ∧
      AllowanceApproval.Aggregates calls transaction.body.data ∧
      ∀ (others : List AllowanceApproval.Call) (other : Transaction .accountAllowanceApprove),
        Transaction.new.approve others = .ok other → ∀ grant : AllowanceApproval.Grant,
          AllowanceApproval.serialsOf grant others = AllowanceApproval.serialsOf grant calls →
            (AllowanceApproval.nft other.body.data).filter grant.lists =
              (AllowanceApproval.nft transaction.body.data).filter grant.lists := by
  have aggregates := AllowanceApproval.aggregates_after calls
  refine ⟨_, Transaction.approve_of_not_frozen rfl calls, rfl, aggregates, ?_⟩
  intro others other run grant same
  rw [Transaction.approve_of_not_frozen rfl others] at run
  obtain rfl := Except.ok.inj run
  have alike := (AllowanceApproval.aggregates_after others).serials grant
  rw [same] at alike
  exact alike.trans (aggregates.serials grant).symm

end LedgerClient
