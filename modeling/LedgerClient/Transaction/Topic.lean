import LedgerClient.Key.List
import LedgerClient.OperationData

/-!
Transactions on consensus topics: creating one, updating one, and submitting a message, possibly in
chunks.
-/

namespace LedgerClient

structure TopicCreate where
  memo : String := ""
  adminKey : Option Key := none
  submitKey : Option Key := none
  autoRenewPeriod : Option Duration := none
  autoRenewAccount : Option AccountId := none

namespace TopicCreate

def defaultAutoRenewPeriod : Duration := .ofSeconds 7890000

def new : TopicCreate :=
  { autoRenewPeriod := some defaultAutoRenewPeriod }

inductive Call where
  | setMemo (memo : String)
  | setAdminKey (key : Key)
  | setSubmitKey (key : Key)
  | setAutoRenewPeriod (period : Duration)
  | setAutoRenewAccount (account : AccountId)

def Call.field : Call → String
  | setMemo _ => "topic_memo"
  | setAdminKey _ => "admin_key"
  | setSubmitKey _ => "submit_key"
  | setAutoRenewPeriod _ => "auto_renew_period"
  | setAutoRenewAccount _ => "auto_renew_account_id"

def apply (create : TopicCreate) : Call → Except LedgerError TopicCreate
  | .setMemo memo => .ok { create with memo }
  | .setAdminKey key => .ok { create with adminKey := key }
  | .setSubmitKey key => .ok { create with submitKey := key }
  | .setAutoRenewPeriod period => do
    period.checkRenewal
    return { create with autoRenewPeriod := period }
  | .setAutoRenewAccount account => .ok { create with autoRenewAccount := account }

def record : Record TopicCreate where
  initial := {}
  slots :=
    [ .memo "topicMemo" (·.memo) fun memo t => { t with memo },
      .optional "adminKey" Key.codec (·.adminKey) fun adminKey t => { t with adminKey },
      .optional "submitKey" Key.codec (·.submitKey) fun submitKey t => { t with submitKey },
      .optional "autoRenewPeriod" Duration.codec (·.autoRenewPeriod) fun autoRenewPeriod t =>
        { t with autoRenewPeriod },
      .optional "autoRenewAccountId" AccountId.codec (·.autoRenewAccount) fun autoRenewAccount t =>
        { t with autoRenewAccount } ]

def operation : OperationData TopicCreate Call where
  record := record
  new := new
  checkedIds create :=
    create.adminKey.toList.flatMap Key.checkedIds ++ create.submitKey.toList.flatMap Key.checkedIds ++
      checkedOf AccountId.checked create.autoRenewAccount
  field := Call.field
  apply call create := create.apply call

end TopicCreate

structure TopicUpdate where
  topic : Option TopicId := none
  expirationTime : Option Instant := none
  memo : Option String := none
  adminKey : Option Key := none
  submitKey : Option Key := none
  autoRenewPeriod : Option Duration := none
  autoRenewAccount : Option AccountId := none

namespace TopicUpdate

inductive Call where
  | setTopic (topic : TopicId)
  | setExpirationTime (time : Instant)
  | setMemo (memo : String)
  | clearMemo
  | setAdminKey (key : Key)
  | clearAdminKey
  | setSubmitKey (key : Key)
  | clearSubmitKey
  | setAutoRenewPeriod (period : Duration)
  | setAutoRenewAccount (account : AccountId)
  | clearAutoRenewAccount

def Call.field : Call → String
  | setTopic _ => "topic_id"
  | setExpirationTime _ => "expiration_time"
  | setMemo _ | clearMemo => "topic_memo"
  | setAdminKey _ | clearAdminKey => "admin_key"
  | setSubmitKey _ | clearSubmitKey => "submit_key"
  | setAutoRenewPeriod _ => "auto_renew_period"
  | setAutoRenewAccount _ | clearAutoRenewAccount => "auto_renew_account_id"

def apply (update : TopicUpdate) : Call → Except LedgerError TopicUpdate
  | .setTopic topic => .ok { update with topic }
  | .setExpirationTime time => .ok { update with expirationTime := time }
  | .setMemo memo => .ok { update with memo }
  | .clearMemo => .ok { update with memo := none }
  | .setAdminKey key => .ok { update with adminKey := key }
  | .clearAdminKey => .ok { update with adminKey := none }
  | .setSubmitKey key => .ok { update with submitKey := key }
  | .clearSubmitKey => .ok { update with submitKey := none }
  | .setAutoRenewPeriod period => do
    period.checkRenewal
    return { update with autoRenewPeriod := period }
  | .setAutoRenewAccount account => .ok { update with autoRenewAccount := account }
  | .clearAutoRenewAccount => .ok { update with autoRenewAccount := none }

def record : Record TopicUpdate where
  initial := {}
  slots :=
    [ .optional "topicId" EntityId.codec (·.topic) fun topic t => { t with topic },
      .optional "expirationTime" Instant.codec (·.expirationTime) fun expirationTime t =>
        { t with expirationTime },
      .optional "topicMemo" Codec.string (·.memo) fun memo t => { t with memo },
      .optional "adminKey" Key.codec (·.adminKey) fun adminKey t => { t with adminKey },
      .optional "submitKey" Key.codec (·.submitKey) fun submitKey t => { t with submitKey },
      .optional "autoRenewPeriod" Duration.codec (·.autoRenewPeriod) fun autoRenewPeriod t =>
        { t with autoRenewPeriod },
      .optional "autoRenewAccountId" AccountId.codec (·.autoRenewAccount) fun autoRenewAccount t =>
        { t with autoRenewAccount } ]

def operation : OperationData TopicUpdate Call where
  record := record
  checkedIds update :=
    checkedOf EntityId.checked update.topic ++ update.adminKey.toList.flatMap Key.checkedIds ++
      update.submitKey.toList.flatMap Key.checkedIds ++
      checkedOf AccountId.checked update.autoRenewAccount
  field := Call.field
  apply call update := update.apply call

end TopicUpdate

structure TopicMessageSubmit where
  topic : Option TopicId := none
  message : Option Bytes := none
  initialTransaction : Option TransactionId := none
  chunkTotal : UInt32 := 1
  chunkNumber : UInt32 := 1
  deriving DecidableEq

namespace TopicMessageSubmit

inductive Call where
  | setTopic (topic : TopicId)
  | setMessage (message : Bytes)
  | setInitialTransaction (id : TransactionId)
  | setChunkTotal (total : UInt32)
  | setChunkNumber (number : UInt32)

def Call.field : Call → String
  | setTopic _ => "topic_id"
  | setMessage _ => "message"
  | setInitialTransaction _ => "initial_transaction_id"
  | setChunkTotal _ => "chunk_total"
  | setChunkNumber _ => "chunk_number"

def apply (submit : TopicMessageSubmit) : Call → TopicMessageSubmit
  | .setTopic topic => { submit with topic }
  | .setMessage message => { submit with message }
  | .setInitialTransaction id => { submit with initialTransaction := id }
  | .setChunkTotal total => { submit with chunkTotal := total }
  | .setChunkNumber number => { submit with chunkNumber := number }

def record : Record TopicMessageSubmit where
  initial := {}
  slots :=
    [ .optional "topicId" EntityId.codec (·.topic) fun topic t => { t with topic },
      .optional "message" Codec.base64Bytes (·.message) fun message t => { t with message },
      .optional "initialTransactionId" TransactionId.codec (·.initialTransaction)
        fun initialTransaction t => { t with initialTransaction },
      .defaulted "chunkTotal" Codec.uint32 (·.chunkTotal) fun chunkTotal t => { t with chunkTotal },
      .defaulted "chunkNumber" Codec.uint32 (·.chunkNumber) fun chunkNumber t =>
        { t with chunkNumber } ]

def validate (submit : TopicMessageSubmit) : Except LedgerError Unit :=
  if 1 ≤ submit.chunkNumber ∧ submit.chunkNumber ≤ submit.chunkTotal then .ok ()
  else .error (.invalidArgument (.chunkNumber submit.chunkNumber submit.chunkTotal))

def operation : OperationData TopicMessageSubmit Call where
  record := record
  checkedIds submit :=
    checkedOf EntityId.checked submit.topic ++
      checkedOf TransactionId.checked submit.initialTransaction
  validate := validate
  field := Call.field
  apply call submit := .ok (submit.apply call)

end TopicMessageSubmit

end LedgerClient
