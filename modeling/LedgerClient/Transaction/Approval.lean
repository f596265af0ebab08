import LedgerClient.Allowance
import LedgerClient.OperationData

/-!
Approving allowances. Approving one more serial for the same token, owner and spender extends the
entry that lists serials; an approval of all serials, or taking it back, is always an entry of its
own.
-/

namespace LedgerClient

structure AllowanceApproval where
  hbar : List HbarAllowance := []
  token : List TokenAllowance := []
  nft : List NftAllowance := []
  deriving DecidableEq

namespace AllowanceApproval

inductive Call where
  | approveHbar (owner spender : AccountId) (amount : Hbar)
  | approveToken (token : TokenId) (owner spender : AccountId) (amount : UInt64)
  | approveNft (nft : NftId) (owner spender : AccountId)
  | approveAllSerials (token : TokenId) (owner spender : AccountId)
  | deleteAllSerials (token : TokenId) (owner spender : AccountId)

def Call.field : Call → String
  | approveHbar .. => "hbar_allowances"
  | approveToken .. => "token_allowances"
  | approveNft .. | approveAllSerials .. | deleteAllSerials .. => "nft_allowances"

def listsSerialsOf (token : TokenId) (owner spender : AccountId) (entry : NftAllowance) : Bool :=
  entry.token = token && entry.owner = owner && entry.spender = spender &&
    entry.approvedForAll.isNone

/-- Adds a serial to the first entry that lists serials for its token, owner and spender, or to a
new entry at the end. -/
def addSerial (nft : NftId) (owner spender : AccountId) : List NftAllowance → List NftAllowance
  | [] => [{ token := nft.token, owner, spender, serials := [nft.serial] }]
  | entry :: rest =>
    if listsSerialsOf nft.token owner spender entry then
      { entry with serials := entry.serials ++ [nft.serial] } :: rest
    else entry :: addSerial nft owner spender rest

def allSerials (token : TokenId) (owner spender : AccountId) (approved : Bool) : NftAllowance :=
  { token, owner, spender, serials := [], approvedForAll := approved }

def apply (approval : AllowanceApproval) : Call → AllowanceApproval
  | .approveHbar owner spender amount =>
    { approval with hbar := approval.hbar ++ [{ owner, spender, amount }] }
  | .approveToken token owner spender amount =>
    { approval with token := approval.token ++ [{ token, owner, spender, amount }] }
  | .approveNft nft owner spender =>
    { approval with nft := addSerial nft owner spender approval.nft }
  | .approveAllSerials token owner spender =>
    { approval with nft := approval.nft ++ [allSerials token owner spender true] }
  | .deleteAllSerials token owner spender =>
    { approval with nft := approval.nft ++ [allSerials token owner spender false] }

def record : Record AllowanceApproval where
  initial := {}
  slots :=
    [ .defaulted "hbarAllowances" HbarAllowance.record.codec.list (·.hbar) fun hbar a =>
        { a with hbar },
      .defaulted "tokenAllowances" TokenAllowance.record.codec.list (·.token) fun token a =>
        { a with token },
      .defaulted "nftAllowances" NftAllowance.record.codec.list (·.nft) fun nft a =>
        { a with nft } ]

def operation : OperationData AllowanceApproval Call where
  record := record
  checkedIds approval :=
    approval.hbar.flatMap HbarAllowance.checkedIds ++
      approval.token.flatMap TokenAllowance.checkedIds ++
      approval.nft.flatMap NftAllowance.checkedIds
  field := Call.field
  apply call approval := .ok (approval.apply call)

end AllowanceApproval

end LedgerClient
