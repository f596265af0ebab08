import LedgerClient.Operation.Argument
import LedgerClient.Operation.Basic

/-!
Calls by name, for callers that hold the name of a method and its arguments as JSON. The arguments
are read before the call is made, so a faulty one is reported even if the operation is frozen.
-/

namespace LedgerClient

abbrev CallByName (C : Type) := String → List Json → Except CallFault C

namespace CallByName

open Argument

def tokenBurn : CallByName TokenBurn.Call
  | "set_token_id", [a] => .setToken <$> entity a
  | "set_amount", [a] => .setAmount <$> uint64 a
  | "set_serials", [a] => .setSerials <$> list uint64 a
  | "add_serial", [a] => .addSerial <$> uint64 a
  | name, _ => .error (.unknownMethod name)

def tokenWipe : CallByName TokenWipe.Call
  | "set_token_id", [a] => .setToken <$> entity a
  | "set_account_id", [a] => .setAccount <$> account a
  | "set_amount", [a] => .setAmount <$> uint64 a
  | "set_serials", [a] => .setSerials <$> list uint64 a
  | "add_serial", [a] => .addSerial <$> uint64 a
  | name, _ => .error (.unknownMethod name)

def tokenRelation : CallByName TokenRelation.Call
  | "set_account_id", [a] => .setAccount <$> account a
  | "set_token_id", [a] => .setToken <$> entity a
  | name, _ => .error (.unknownMethod name)

def tokenUnpause : CallByName TokenUnpause.Call
  | "set_token_id", [a] => .setToken <$> entity a
  | name, _ => .error (.unknownMethod name)

def topicCreate : CallByName TopicCreate.Call
  | "set_topic_memo", [a] => .setMemo <$> text a
  | "set_admin_key", [a] => .setAdminKey <$> key a
  | "set_submit_key", [a] => .setSubmitKey <$> key a
  | "set_auto_renew_period", [a] => .setAutoRenewPeriod <$> duration a
  | "set_auto_renew_account_id", [a] => .setAutoRenewAccount <$> account a
  | name, _ => .error (.unknownMethod name)

def topicUpdate : CallByName TopicUpdate.Call
  | "set_topic_id", [a] => .setTopic <$> entity a
  | "set_expiration_time", [a] => .setExpirationTime <$> instant a
  | "set_topic_memo", [a] => .setMemo <$> text a
  | "clear_topic_memo", [] => .ok .clearMemo
  | "set_admin_key", [a] => .setAdminKey <$> key a
  | "clear_admin_key", [] => .ok .clearAdminKey
  | "set_submit_key", [a] => .setSubmitKey <$> key a
  | "clear_submit_key", [] => .ok .clearSubmitKey
  | "set_auto_renew_period", [a] => .setAutoRenewPeriod <$> duration a
  | "set_auto_renew_account_id", [a] => .setAutoRenewAccount <$> account a
  | "clear_auto_renew_account_id", [] => .ok .clearAutoRenewAccount
  | name, _ => .error (.unknownMethod name)

/-- A message is given as bytes in a member, or as a text. -/
def topicMessageSubmit : CallByName TopicMessageSubmit.Call
  | "set_topic_id", [a] => .setTopic <$> entity a
  | "set_message", [a] => .setMessage <$> member "hex" bytes a
  | "set_message_text", [a] => (.setMessage ∘ Bytes.ofText) <$> text a
  | "set_initial_transaction_id", [a] => .setInitialTransaction <$> transactionId a
  | "set_chunk_total", [a] => .setChunkTotal <$> uint32 a
  | "set_chunk_number", [a] => .setChunkNumber <$> uint32 a
  | name, _ => .error (.unknownMethod name)

def contractUpdate : CallByName ContractUpdate.Call
  | "set_contract_id", [a] => .setContract <$> entity a
  | "set_expiration_time", [a] => .setExpirationTime <$> instant a
  | "set_admin_key", [a] => .setAdminKey <$> key a
  | "set_auto_renew_period", [a] => .setAutoRenewPeriod <$> duration a
  | "set_contract_memo", [a] => .setMemo <$> text a
  | "clear_contract_memo", [] => .ok .clearMemo
  | "set_max_automatic_token_associations", [a] => .setMaxAutomaticTokenAssociations <$> uint32 a
  | "set_auto_renew_account_id", [a] => .setAutoRenewAccount <$> account a
  | "clear_auto_renew_account_id", [] => .ok .clearAutoRenewAccount
  | "set_proxy_account_id", [a] => .setProxyAccount <$> account a
  | "set_staked_account_id", [a] => .setStakedAccount <$> account a
  | "clear_staked_account_id", [] => .ok .clearStakedAccount
  | "set_staked_node_id", [a] => .setStakedNode <$> uint64 a
  | "clear_staked_node_id", [] => .ok .clearStakedNode
  | "set_decline_staking_reward", [a] => .setDeclineStakingReward <$> flag a
  | "clear_decline_staking_reward", [] => .ok .clearDeclineStakingReward
  | name, _ => .error (.unknownMethod name)

def allowanceApproval : CallByName AllowanceApproval.Call
  | "approve_hbar_allowance", [owner, spender, amount] => do
    return .approveHbar (← account owner) (← account spender) (← hbar amount)
  | "approve_token_allowance", [token, owner, spender, amount] => do
    return .approveToken (← entity token) (← account owner) (← account spender) (← uint64 amount)
  | "approve_token_nft_allowance", [id, owner, spender] => do
    return .approveNft (← nft id) (← account owner) (← account spender)
  | "approve_token_nft_allowance_all_serials", [token, owner, spender] => do
    return .approveAllSerials (← entity token) (← account owner) (← account spender)
  | "delete_token_nft_allowance_all_serials", [token, owner, spender] => do
    return .deleteAllSerials (← entity token) (← account owner) (← account spender)
  | name, _ => .error (.unknownMethod name)

def transactionData : (kind : TransactionKind) → CallByName kind.DataCall
  | .accountAllowanceApprove => allowanceApproval
  | .contractUpdate => contractUpdate
  | .tokenBurn => tokenBurn
  | .tokenFreeze => tokenRelation
  | .tokenRevokeKyc => tokenRelation
  | .tokenUnpause => tokenUnpause
  | .tokenWipe => tokenWipe
  | .topicCreate => topicCreate
  | .topicMessageSubmit => topicMessageSubmit
  | .topicUpdate => topicUpdate

def transaction {kind : TransactionKind} : CallByName (Transaction.Call kind)
  | "set_node_account_ids", [a] => .setNodes <$> list account a
  | "set_transaction_id", [a] => .setId <$> transactionId a
  | "set_max_transaction_fee", [a] => .setMaxFee <$> hbar a
  | "set_transaction_memo", [a] => .setMemo <$> text a
  | "set_transaction_valid_duration", [a] => .setValidDuration <$> duration a
  | name, args => .data <$> transactionData kind name args

def accountBalance : CallByName AccountBalanceQuery.Call
  | "set_account_id", [a] => .setAccount <$> account a
  | "set_contract_id", [a] => .setContract <$> entity a
  | name, _ => .error (.unknownMethod name)

def accountInfo : CallByName AccountInfoQuery.Call
  | "set_account_id", [a] => .setAccount <$> account a
  | name, _ => .error (.unknownMethod name)

def transactionReceipt : CallByName TransactionReceiptQuery.Call
  | "set_transaction_id", [a] => .setId <$> transactionId a
  | "set_include_children", [a] => .setIncludeChildren <$> flag a
  | "set_include_duplicates", [a] => .setIncludeDuplicates <$> flag a
  | name, _ => .error (.unknownMethod name)

def queryData : (kind : QueryKind) → CallByName kind.DataCall
  | .accountBalance => accountBalance
  | .accountInfo => accountInfo
  | .transactionReceipt => transactionReceipt

def query {kind : QueryKind} : CallByName (Query.Call kind)
  | "set_node_account_ids", [a] => .setNodes <$> list account a
  | "set_payment_amount", [a] => .setAmount <$> hbar a
  | "set_max_payment_amount", [a] => .setMaxAmount <$> hbar a
  | "set_payment_max_transaction_fee", [a] => .setMaxFee <$> hbar a
  | "set_payment_transaction_memo", [a] => .setMemo <$> text a
  | "set_payer_account_id", [a] => .setPayer <$> account a
  | "set_payment_transaction_id", [a] => .setId <$> transactionId a
  | "set_payment_transaction_valid_duration", [a] => .setValidDuration <$> duration a
  | name, args => .data <$> queryData kind name args

end CallByName

def Operation.callByName (operation : Operation) (method : String) (args : List Json) :
    Except CallFault Operation :=
  match operation with
  | transaction t => do return transaction (← t.call (← CallByName.transaction method args))
  | query q => do return query (← q.call (← CallByName.query method args))

end LedgerClient
