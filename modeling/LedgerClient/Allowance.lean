import LedgerClient.Json.Record
import LedgerClient.Json.Scalar

/-!
Allowances: what an owner lets a spender use of hbars, of a token's units, or of single non-fungible
tokens. For these an allowance lists serials, or covers all of them (`approvedForAll`), or takes
that back.
-/

namespace LedgerClient

structure HbarAllowance where
  owner : AccountId
  spender : AccountId
  amount : Hbar
  deriving DecidableEq

namespace HbarAllowance

def record : Record HbarAllowance where
  initial := ⟨default, default, .zero⟩
  slots :=
    [ .mandatory "ownerAccountId" AccountId.codec (·.owner) fun owner a => { a with owner },
      .mandatory "spenderAccountId" AccountId.codec (·.spender) fun spender a => { a with spender },
      .defaulted "amount" Hbar.codec (·.amount) fun amount a => { a with amount } ]

def checkedIds (allowance : HbarAllowance) : List CheckedId :=
  [allowance.owner.checked, allowance.spender.checked]

end HbarAllowance

structure TokenAllowance where
  token : TokenId
  owner : AccountId
  spender : AccountId
  amount : UInt64
  deriving DecidableEq

namespace TokenAllowance

def record : Record TokenAllowance where
  initial := ⟨default, default, default, 0⟩
  slots :=
    [ .mandatory "tokenId" EntityId.codec (·.token) fun token a => { a with token },
      .mandatory "ownerAccountId" AccountId.codec (·.owner) fun owner a => { a with owner },
      .mandatory "spenderAccountId" AccountId.codec (·.spender) fun spender a => { a with spender },
      .defaulted "amount" Codec.uint64 (·.amount) fun amount a => { a with amount } ]

def checkedIds (allowance : TokenAllowance) : List CheckedId :=
  [allowance.token.checked, allowance.owner.checked, allowance.spender.checked]

end TokenAllowance

structure NftAllowance where
  token : TokenId
  owner : AccountId
  spender : AccountId
  serials : List UInt64
  approvedForAll : Option Bool := none
  delegatingSpender : Option AccountId := none
  deriving DecidableEq

namespace NftAllowance

def record : Record NftAllowance where
  initial := { token := default, owner := default, spender := default, serials := [] }
  slots :=
    [ .mandatory "tokenId" EntityId.codec (·.token) fun token a => { a with token },
      .mandatory "ownerAccountId" AccountId.codec (·.owner) fun owner a => { a with owner },
      .mandatory "spenderAccountId" AccountId.codec (·.spender) fun spender a => { a with spender },
      .defaulted "serials" Codec.uint64.list (·.serials) fun serials a => { a with serials },
      .optional "approvedForAll" Codec.bool (·.approvedForAll) fun approvedForAll a =>
        { a with approvedForAll },
      .optional "delegatingSpenderAccountId" AccountId.codec (·.delegatingSpender)
        fun delegatingSpender a => { a with delegatingSpender } ]

def checkedIds (allowance : NftAllowance) : List CheckedId :=
  [allowance.token.checked, allowance.owner.checked, allowance.spender.checked] ++
    allowance.delegatingSpender.toList.map AccountId.checked

end NftAllowance

end LedgerClient
