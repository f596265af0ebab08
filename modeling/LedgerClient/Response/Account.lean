import LedgerClient.Key.List

/-!
What the network answers about accounts: balances and metadata.
-/

namespace LedgerClient

/-- Balances by token, sorted by the text of the token's id. -/
structure TokenBalances where
  entries : List (TokenId × UInt64)
  sorted : entries.Pairwise fun a b => a.1.text < b.1.text
  deriving DecidableEq

namespace TokenBalances

def empty : TokenBalances := ⟨[], .nil⟩

/-- Puts a balance at its place, in place of an earlier one of the same token. -/
def insertEntry (token : TokenId) (balance : UInt64) :
    List (TokenId × UInt64) → List (TokenId × UInt64)
  | [] => [(token, balance)]
  | (t, b) :: rest =>
    if token.text < t.text then (token, balance) :: (t, b) :: rest
    else if token.text = t.text then (token, balance) :: rest
    else (t, b) :: insertEntry token balance rest

theorem mem_insertEntry {token : TokenId} {balance : UInt64} {entries : List (TokenId × UInt64)}
    {entry : TokenId × UInt64} (h : entry ∈ insertEntry token balance entries) :
    entry = (token, balance) ∨ entry ∈ entries := by
  induction entries with
  | nil => simp_all [insertEntry]
  | cons head rest ih =>
    rw [insertEntry] at h
    split at h <;> grind

theorem pairwise_insertEntry {token : TokenId} {balance : UInt64}
    {entries : List (TokenId × UInt64)}
    (sorted : entries.Pairwise fun a b => a.1.text < b.1.text) :
    (insertEntry token balance entries).Pairwise fun a b => a.1.text < b.1.text := by
  induction entries with
  | nil => simp [insertEntry]
  | cons head rest ih =>
    obtain ⟨t, b⟩ := head
    rw [List.pairwise_cons] at sorted
    rw [insertEntry]
    split
    · next before =>
      refine List.pairwise_cons.2 ⟨fun entry member => ?_, List.pairwise_cons.2 sorted⟩
      rcases List.mem_cons.1 member with rfl | member
      · exact before
      · exact String.lt_trans before (sorted.1 entry member)
    · split
      · next same =>
        refine List.pairwise_cons.2 ⟨fun entry member => ?_, sorted.2⟩
        rw [same]
        exact sorted.1 entry member
      · next notBefore different =>
        have after : t.text < token.text := by
          rcases String.le_total token.text t.text with le | le
          · exact absurd (String.le_antisymm le (String.not_lt.1 notBefore)) different
          · exact String.not_le.1 fun le' => different (String.le_antisymm le' le)
        refine List.pairwise_cons.2 ⟨fun entry member => ?_, ih sorted.2⟩
        rcases mem_insertEntry member with rfl | member
        · exact after
        · exact sorted.1 entry member

def insert (balances : TokenBalances) (token : TokenId) (balance : UInt64) : TokenBalances :=
  ⟨insertEntry token balance balances.entries, pairwise_insertEntry balances.sorted⟩

/-- Reads members into the balances; a later one replaces an earlier one of the same token. -/
def readMembers (balances : TokenBalances) : List (String × Json) → Decoded TokenBalances
  | [] => .ok balances
  | (token, json) :: rest => do
    let token ← Codec.ofResult (EntityId.parse token)
    let balance ← Codec.uint64.decode json
    readMembers (balances.insert token balance) rest

def codec : Codec TokenBalances where
  encode balances :=
    Json.ofMembers (balances.entries.map fun (token, balance) =>
      (token.text, Codec.uint64.encode balance))
  decode
    | .object members ending => do
      let balances ← readMembers empty members
      Codec.checkEnding ending
      return balances
    | _ => .error .malformed

end TokenBalances

structure AccountBalance where
  account : AccountId
  hbars : Hbar := .zero
  tokens : TokenBalances := .empty
  deriving DecidableEq

namespace AccountBalance

def record : Record AccountBalance where
  initial := { account := default }
  slots :=
    [ .mandatory "accountId" AccountId.codec (·.account) fun account b => { b with account },
      .defaulted "hbars" Hbar.codec (·.hbars) fun hbars b => { b with hbars },
      .defaulted "tokens" TokenBalances.codec (·.tokens) fun tokens b => { b with tokens } ]

def codec : Codec AccountBalance := record.codec

end AccountBalance

structure AccountInfo where
  account : AccountId
  contractAccount : String := ""
  isDeleted : Bool := false
  proxyAccount : Option AccountId := none
  proxyReceived : Hbar := .zero
  key : Option Key := none
  balance : Hbar := .zero
  isReceiverSignatureRequired : Bool := false
  expirationTime : Option Instant := none
  autoRenewPeriod : Option Duration := none
  memo : String := ""
  ownedNfts : UInt64 := 0
  maxAutomaticTokenAssociations : UInt32 := 0
  aliasKey : Option PublicKey := none
  ethereumNonce : UInt64 := 0
  ledger : Option LedgerId := none

namespace AccountInfo

def record : Record AccountInfo where
  initial := { account := default }
  slots :=
    [ .mandatory "accountId" AccountId.codec (·.account) fun account i => { i with account },
      .defaulted "contractAccountId" Codec.string (·.contractAccount) fun contractAccount i =>
        { i with contractAccount },
      .defaulted "isDeleted" Codec.bool (·.isDeleted) fun isDeleted i => { i with isDeleted },
      .nullable "proxyAccountId" AccountId.codec (·.proxyAccount) fun proxyAccount i =>
        { i with proxyAccount },
      .defaulted "proxyReceived" Hbar.codec (·.proxyReceived) fun proxyReceived i =>
        { i with proxyReceived },
      .nullable "key" Key.codec (·.key) fun key i => { i with key },
      .defaulted "balance" Hbar.codec (·.balance) fun balance i => { i with balance },
      .defaulted "isReceiverSignatureRequired" Codec.bool (·.isReceiverSignatureRequired)
        fun isReceiverSignatureRequired i => { i with isReceiverSignatureRequired },
      .nullable "expirationTime" Instant.codec (·.expirationTime) fun expirationTime i =>
        { i with expirationTime },
      .nullable "autoRenewPeriod" Duration.codec (·.autoRenewPeriod) fun autoRenewPeriod i =>
        { i with autoRenewPeriod },
      .defaulted "accountMemo" Codec.string (·.memo) fun memo i => { i with memo },
      .defaulted "ownedNfts" Codec.uint64 (·.ownedNfts) fun ownedNfts i => { i with ownedNfts },
      .defaulted "maxAutomaticTokenAssociations" Codec.uint32 (·.maxAutomaticTokenAssociations)
        fun maxAutomaticTokenAssociations i => { i with maxAutomaticTokenAssociations },
      .nullable "aliasKey" PublicKey.codec (·.aliasKey) fun aliasKey i => { i with aliasKey },
      .defaulted "ethereumNonce" Codec.uint64 (·.ethereumNonce) fun ethereumNonce i =>
        { i with ethereumNonce },
      .nullable "ledgerId" LedgerId.codec (·.ledger) fun ledger i => { i with ledger } ]

def codec : Codec AccountInfo := record.codec

end AccountInfo

end LedgerClient
