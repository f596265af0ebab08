import LedgerClient.Operation.Basic

/-!
The fields of operations by name, for callers that show operations of any kind. Ids are shown in
their written form, numbers of 64 bits as decimal texts, and structured values as JSON texts; a field
that is not set is null.
-/

namespace LedgerClient

/-- Seconds, and nanoseconds with nine digits. -/
def Duration.fullText (d : Duration) : String :=
  toString d.seconds.toNat ++ "." ++ Text.padZeros 9 (toString d.nanos)

def Hbar.tinybarsText (amount : Hbar) : String :=
  toString amount.tinybars.toInt

def Json.orNull {α : Type} (encode : α → Json) : Option α → Json
  | some value => encode value
  | none => null

def Json.textOrNull {α : Type} (text : α → String) : Option α → Json :=
  orNull fun value => string (text value)

namespace FieldView

def accounts : Option (List AccountId) → Json :=
  .textOrNull AccountId.codec.list.encodeText

def account : Option AccountId → Json := .textOrNull AccountId.text

def entity {kind : EntityKind} : Option (EntityId kind) → Json := .textOrNull EntityId.text

def transactionId : Option TransactionId → Json := .textOrNull TransactionId.text

def key : Option Key → Json := .textOrNull Key.codec.encodeText

def duration : Option Duration → Json := .textOrNull Duration.fullText

def instant : Option Instant → Json := .textOrNull TransactionId.startText

def hbar : Option Hbar → Json := .textOrNull Hbar.tinybarsText

def uint64 (n : UInt64) : Json := .string (toString n.toNat)

def uint32 (n : UInt32) : Json := .ofNat n.toNat

def serials (serials : List UInt64) : Json := .string (Codec.uint64.list.encodeText serials)

def records {α : Type} (record : Record α) (values : List α) : Json :=
  .string (record.codec.list.encodeText values)

def accountAllowanceApprove (a : AllowanceApproval) : List (String × Json) :=
  [("hbar_approvals", records HbarAllowance.record a.hbar),
    ("token_approvals", records TokenAllowance.record a.token),
    ("nft_approvals", records NftAllowance.record a.nft)]

def contractUpdate (u : ContractUpdate) : List (String × Json) :=
  [("contract_id", entity u.contract), ("expiration_time", instant u.expirationTime),
    ("admin_key", key u.adminKey), ("auto_renew_period", duration u.autoRenewPeriod),
    ("contract_memo", .orNull .string u.memo),
    ("max_automatic_token_associations", .orNull uint32 u.maxAutomaticTokenAssociations),
    ("auto_renew_account_id", account u.autoRenewAccount),
    ("proxy_account_id", account u.proxyAccount), ("staked_account_id", account u.stakedAccount),
    ("staked_node_id", .orNull uint64 u.stakedNode),
    ("decline_staking_reward", .orNull .bool u.declineStakingReward)]

def tokenBurn (burn : TokenBurn) : List (String × Json) :=
  [("token_id", entity burn.token), ("amount", uint64 burn.amount),
    ("serials", serials burn.serials)]

def tokenWipe (wipe : TokenWipe) : List (String × Json) :=
  [("token_id", entity wipe.token), ("account_id", account wipe.account),
    ("amount", uint64 wipe.amount), ("serials", serials wipe.serials)]

def tokenRelation (relation : TokenRelation) : List (String × Json) :=
  [("account_id", account relation.account), ("token_id", entity relation.token)]

def tokenUnpause (unpause : TokenUnpause) : List (String × Json) :=
  [("token_id", entity unpause.token)]

def topicCreate (t : TopicCreate) : List (String × Json) :=
  [("topic_memo", .string t.memo), ("admin_key", key t.adminKey), ("submit_key", key t.submitKey),
    ("auto_renew_period", duration t.autoRenewPeriod),
    ("auto_renew_account_id", account t.autoRenewAccount)]

def topicUpdate (t : TopicUpdate) : List (String × Json) :=
  [("topic_id", entity t.topic), ("expiration_time", instant t.expirationTime),
    ("topic_memo", .orNull .string t.memo), ("admin_key", key t.adminKey),
    ("submit_key", key t.submitKey), ("auto_renew_period", duration t.autoRenewPeriod),
    ("auto_renew_account_id", account t.autoRenewAccount)]

def topicMessageSubmit (t : TopicMessageSubmit) : List (String × Json) :=
  [("topic_id", entity t.topic), ("message", .textOrNull Text.Hex.encode t.message),
    ("initial_transaction_id", transactionId t.initialTransaction),
    ("chunk_total", uint32 t.chunkTotal), ("chunk_number", uint32 t.chunkNumber)]

def transactionData : (kind : TransactionKind) → kind.Data → List (String × Json)
  | .accountAllowanceApprove => accountAllowanceApprove
  | .contractUpdate => contractUpdate
  | .tokenBurn => tokenBurn
  | .tokenFreeze => tokenRelation
  | .tokenRevokeKyc => tokenRelation
  | .tokenUnpause => tokenUnpause
  | .tokenWipe => tokenWipe
  | .topicCreate => topicCreate
  | .topicMessageSubmit => topicMessageSubmit
  | .topicUpdate => topicUpdate

def accountBalance (q : AccountBalanceQuery) : List (String × Json) :=
  [("account_id", account q.account), ("contract_id", entity q.contract)]

def accountInfo (q : AccountInfoQuery) : List (String × Json) :=
  [("account_id", account q.account)]

def transactionReceipt (q : TransactionReceiptQuery) : List (String × Json) :=
  [("transaction_id", transactionId q.id), ("include_children", .bool q.includeChildren),
    ("include_duplicates", .bool q.includeDuplicates)]

def queryData : (kind : QueryKind) → kind.Data → List (String × Json)
  | .accountBalance => accountBalance
  | .accountInfo => accountInfo
  | .transactionReceipt => transactionReceipt

def transaction {kind : TransactionKind} (t : Transaction kind) : List (String × Json) :=
  transactionData kind t.body.data ++
    [("node_account_ids", accounts t.body.nodes), ("transaction_id", transactionId t.body.id),
      ("max_transaction_fee", hbar t.body.maxFee),
      ("transaction_valid_duration", duration t.body.validDuration),
      ("transaction_memo", .string t.body.memo), ("frozen", .bool t.isFrozen)]

def query {kind : QueryKind} (q : Query kind) : List (String × Json) :=
  queryData kind q.body.data ++
    [("payment", .string (Payment.codec.encodeText q.body.payment)),
      ("node_account_ids", accounts q.body.payment.nodes), ("frozen", .bool q.isFrozen)]

end FieldView

def Operation.fields : Operation → List (String × Json)
  | transaction t => FieldView.transaction t
  | query q => FieldView.query q

end LedgerClient
