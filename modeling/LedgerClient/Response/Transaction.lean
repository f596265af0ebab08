import LedgerClient.Json.Record
import LedgerClient.Json.Scalar

/-!
What the network answers about transactions: where a transaction was accepted and under which id and
hash, and later its receipt.
-/

namespace LedgerClient

structure TransactionResponse where
  node : AccountId
  transactionId : TransactionId
  hash : Bytes
  deriving DecidableEq

namespace TransactionResponse

def record : Record TransactionResponse where
  initial := ⟨default, { account := default, validStart := .epoch }, []⟩
  slots :=
    [ .mandatory "nodeAccountId" AccountId.codec (·.node) fun node r => { r with node },
      .mandatory "transactionId" TransactionId.codec (·.transactionId) fun transactionId r =>
        { r with transactionId },
      .mandatory "transactionHash" Codec.hexBytes (·.hash) fun hash r => { r with hash } ]

def codec : Codec TransactionResponse := record.codec

end TransactionResponse

structure TransactionReceipt where
  status : String
  account : Option AccountId := none
  file : Option FileId := none
  contract : Option ContractId := none
  topic : Option TopicId := none
  token : Option TokenId := none
  schedule : Option ScheduleId := none
  topicSequenceNumber : UInt64 := 0
  topicRunningHash : Bytes := []
  totalSupply : UInt64 := 0
  serials : List UInt64 := []
  scheduledTransaction : Option TransactionId := none
  deriving DecidableEq

namespace TransactionReceipt

def record : Record TransactionReceipt where
  initial := { status := "" }
  slots :=
    [ .mandatory "status" Codec.string (·.status) fun status r => { r with status },
      .nullable "accountId" AccountId.codec (·.account) fun account r => { r with account },
      .nullable "fileId" EntityId.codec (·.file) fun file r => { r with file },
      .nullable "contractId" EntityId.codec (·.contract) fun contract r => { r with contract },
      .nullable "topicId" EntityId.codec (·.topic) fun topic r => { r with topic },
      .nullable "tokenId" EntityId.codec (·.token) fun token r => { r with token },
      .nullable "scheduleId" EntityId.codec (·.schedule) fun schedule r => { r with schedule },
      .defaulted "topicSequenceNumber" Codec.uint64 (·.topicSequenceNumber)
        fun topicSequenceNumber r => { r with topicSequenceNumber },
      .defaulted "topicRunningHash" Codec.hexBytes (·.topicRunningHash) fun topicRunningHash r =>
        { r with topicRunningHash },
      .defaulted "totalSupply" Codec.uint64 (·.totalSupply) fun totalSupply r =>
        { r with totalSupply },
      .defaulted "serials" Codec.uint64.list (·.serials) fun serials r => { r with serials },
      .nullable "scheduledTransactionId" TransactionId.codec (·.scheduledTransaction)
        fun scheduledTransaction r => { r with scheduledTransaction } ]

def codec : Codec TransactionReceipt := record.codec

end TransactionReceipt

end LedgerClient
