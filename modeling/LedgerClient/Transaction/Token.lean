import LedgerClient.OperationData

/-!
Transactions on tokens: burning from the treasury, wiping from an account, freezing an account's
balance, revoking an account's KYC mark, and unpausing.
-/

namespace LedgerClient

structure TokenBurn where
  token : Option TokenId := none
  amount : UInt64 := 0
  serials : List UInt64 := []
  deriving DecidableEq

namespace TokenBurn

inductive Call where
  | setToken (token : TokenId)
  | setAmount (amount : UInt64)
  | setSerials (serials : List UInt64)
  | addSerial (serial : UInt64)

def Call.field : Call → String
  | setToken _ => "token_id"
  | setAmount _ => "amount"
  | setSerials _ | addSerial _ => "serials"

def apply (burn : TokenBurn) : Call → TokenBurn
  | .setToken token => { burn with token }
  | .setAmount amount => { burn with amount }
  | .setSerials serials => { burn with serials }
  | .addSerial serial => { burn with serials := burn.serials ++ [serial] }

def record : Record TokenBurn where
  initial := {}
  slots :=
    [ .optional "tokenId" EntityId.codec (·.token) fun token burn => { burn with token },
      .defaulted "amount" Codec.uint64 (·.amount) fun amount burn => { burn with amount },
      .defaulted "serials" Codec.uint64.list (·.serials) fun serials burn => { burn with serials } ]

def operation : OperationData TokenBurn Call where
  record := record
  checkedIds burn := checkedOf EntityId.checked burn.token
  field := Call.field
  apply call burn := .ok (burn.apply call)

end TokenBurn

structure TokenWipe where
  token : Option TokenId := none
  account : Option AccountId := none
  amount : UInt64 := 0
  serials : List UInt64 := []
  deriving DecidableEq

namespace TokenWipe

inductive Call where
  | setToken (token : TokenId)
  | setAccount (account : AccountId)
  | setAmount (amount : UInt64)
  | setSerials (serials : List UInt64)
  | addSerial (serial : UInt64)

def Call.field : Call → String
  | setToken _ => "token_id"
  | setAccount _ => "account_id"
  | setAmount _ => "amount"
  | setSerials _ | addSerial _ => "serials"

def apply (wipe : TokenWipe) : Call → TokenWipe
  | .setToken token => { wipe with token }
  | .setAccount account => { wipe with account }
  | .setAmount amount => { wipe with amount }
  | .setSerials serials => { wipe with serials }
  | .addSerial serial => { wipe with serials := wipe.serials ++ [serial] }

def record : Record TokenWipe where
  initial := {}
  slots :=
    [ .optional "tokenId" EntityId.codec (·.token) fun token wipe => { wipe with token },
      .optional "accountId" AccountId.codec (·.account) fun account wipe => { wipe with account },
      .defaulted "amount" Codec.uint64 (·.amount) fun amount wipe => { wipe with amount },
      .defaulted "serials" Codec.uint64.list (·.serials) fun serials wipe => { wipe with serials } ]

def operation : OperationData TokenWipe Call where
  record := record
  checkedIds wipe :=
    checkedOf EntityId.checked wipe.token ++ checkedOf AccountId.checked wipe.account
  field := Call.field
  apply call wipe := .ok (wipe.apply call)

end TokenWipe

/-- An account's relation to a token: what is frozen, and of what the KYC mark is revoked. -/
structure TokenRelation where
  account : Option AccountId := none
  token : Option TokenId := none
  deriving DecidableEq

namespace TokenRelation

inductive Call where
  | setAccount (account : AccountId)
  | setToken (token : TokenId)

def Call.field : Call → String
  | setAccount _ => "account_id"
  | setToken _ => "token_id"

def apply (relation : TokenRelation) : Call → TokenRelation
  | .setAccount account => { relation with account }
  | .setToken token => { relation with token }

def record : Record TokenRelation where
  initial := {}
  slots :=
    [ .optional "accountId" AccountId.codec (·.account) fun account r => { r with account },
      .optional "tokenId" EntityId.codec (·.token) fun token r => { r with token } ]

def operation : OperationData TokenRelation Call where
  record := record
  checkedIds relation :=
    checkedOf AccountId.checked relation.account ++ checkedOf EntityId.checked relation.token
  field := Call.field
  apply call relation := .ok (relation.apply call)

end TokenRelation

structure TokenUnpause where
  token : Option TokenId := none
  deriving DecidableEq

namespace TokenUnpause

inductive Call where
  | setToken (token : TokenId)

def record : Record TokenUnpause where
  initial := {}
  slots := [.optional "tokenId" EntityId.codec (·.token) fun token _ => { token }]

def operation : OperationData TokenUnpause Call where
  record := record
  checkedIds unpause := checkedOf EntityId.checked unpause.token
  field | .setToken _ => "token_id"
  apply | .setToken token, _ => .ok { token }

end TokenUnpause

end LedgerClient
