import LedgerClient.Key.List
import LedgerClient.OperationData

/-!
Updating a smart contract. An account and a node exclude each other as staking targets: setting one
clears the other.
-/

namespace LedgerClient

/-- Updates a contract; fields that are not set stay as they are on the network. -/
structure ContractUpdate where
  contract : Option ContractId := none
  expirationTime : Option Instant := none
  adminKey : Option Key := none
  autoRenewPeriod : Option Duration := none
  memo : Option String := none
  maxAutomaticTokenAssociations : Option UInt32 := none
  autoRenewAccount : Option AccountId := none
  proxyAccount : Option AccountId := none
  stakedAccount : Option AccountId := none
  stakedNode : Option UInt64 := none
  declineStakingReward : Option Bool := none

namespace ContractUpdate

inductive Call where
  | setContract (contract : ContractId)
  | setExpirationTime (time : Instant)
  | setAdminKey (key : Key)
  | setAutoRenewPeriod (period : Duration)
  | setMemo (memo : String)
  | clearMemo
  | setMaxAutomaticTokenAssociations (count : UInt32)
  | setAutoRenewAccount (account : AccountId)
  | clearAutoRenewAccount
  | setProxyAccount (account : AccountId)
  | setStakedAccount (account : AccountId)
  | clearStakedAccount
  | setStakedNode (node : UInt64)
  | clearStakedNode
  | setDeclineStakingReward (decline : Bool)
  | clearDeclineStakingReward

def Call.field : Call → String
  | setContract _ => "contract_id"
  | setExpirationTime _ => "expiration_time"
  | setAdminKey _ => "admin_key"
  | setAutoRenewPeriod _ => "auto_renew_period"
  | setMemo _ | clearMemo => "contract_memo"
  | setMaxAutomaticTokenAssociations _ => "max_automatic_token_associations"
  | setAutoRenewAccount _ | clearAutoRenewAccount => "auto_renew_account_id"
  | setProxyAccount _ => "proxy_account_id"
  | setStakedAccount _ | clearStakedAccount => "staked_account_id"
  | setStakedNode _ | clearStakedNode => "staked_node_id"
  | setDeclineStakingReward _ | clearDeclineStakingReward => "decline_staking_reward"

def apply (update : ContractUpdate) : Call → Except LedgerError ContractUpdate
  | .setContract contract => .ok { update with contract }
  | .setExpirationTime time => .ok { update with expirationTime := time }
  | .setAdminKey key => .ok { update with adminKey := key }
  | .setAutoRenewPeriod period => do
    period.checkRenewal
    return { update with autoRenewPeriod := period }
  | .setMemo memo => .ok { update with memo }
  | .clearMemo => .ok { update with memo := none }
  | .setMaxAutomaticTokenAssociations count =>
    .ok { update with maxAutomaticTokenAssociations := count }
  | .setAutoRenewAccount account => .ok { update with autoRenewAccount := account }
  | .clearAutoRenewAccount => .ok { update with autoRenewAccount := none }
  | .setProxyAccount account => .ok { update with proxyAccount := account }
  | .setStakedAccount account => .ok { update with stakedAccount := account, stakedNode := none }
  | .clearStakedAccount => .ok { update with stakedAccount := none }
  | .setStakedNode node => .ok { update with stakedNode := node, stakedAccount := none }
  | .clearStakedNode => .ok { update with stakedNode := none }
  | .setDeclineStakingReward decline => .ok { update with declineStakingReward := decline }
  | .clearDeclineStakingReward => .ok { update with declineStakingReward := none }

def record : Record ContractUpdate where
  initial := {}
  slots :=
    [ .optional "contractId" EntityId.codec (·.contract) fun contract u => { u with contract },
      .optional "expirationTime" Instant.codec (·.expirationTime) fun expirationTime u =>
        { u with expirationTime },
      .optional "adminKey" Key.codec (·.adminKey) fun adminKey u => { u with adminKey },
      .optional "autoRenewPeriod" Duration.codec (·.autoRenewPeriod) fun autoRenewPeriod u =>
        { u with autoRenewPeriod },
      .optional "contractMemo" Codec.string (·.memo) fun memo u => { u with memo },
      .optional "maxAutomaticTokenAssociations" Codec.uint32 (·.maxAutomaticTokenAssociations)
        fun maxAutomaticTokenAssociations u => { u with maxAutomaticTokenAssociations },
      .optional "autoRenewAccountId" AccountId.codec (·.autoRenewAccount) fun autoRenewAccount u =>
        { u with autoRenewAccount },
      .optional "proxyAccountId" AccountId.codec (·.proxyAccount) fun proxyAccount u =>
        { u with proxyAccount },
      .optional "stakedAccountId" AccountId.codec (·.stakedAccount) fun stakedAccount u =>
        { u with stakedAccount },
      .optional "stakedNodeId" Codec.uint64 (·.stakedNode) fun stakedNode u => { u with stakedNode },
      .optional "declineStakingReward" Codec.bool (·.declineStakingReward)
        fun declineStakingReward u => { u with declineStakingReward } ]

def operation : OperationData ContractUpdate Call where
  record := record
  checkedIds update :=
    checkedOf EntityId.checked update.contract ++ update.adminKey.toList.flatMap Key.checkedIds ++
      checkedOf AccountId.checked update.autoRenewAccount ++
      checkedOf AccountId.checked update.proxyAccount ++
      checkedOf AccountId.checked update.stakedAccount
  field := Call.field
  apply call update := update.apply call

end ContractUpdate

end LedgerClient
