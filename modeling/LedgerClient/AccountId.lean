import LedgerClient.EntityId
import LedgerClient.Key.Public

/-!
Account ids. Within its shard and realm an account is addressed by its number, by a public key it
is aliased to, or by an EVM address; only a number can carry a checksum.
-/

namespace LedgerClient

/-- How an account is addressed within its realm. -/
inductive AccountForm where
  | number (num : UInt64) (checksum : Option Checksum)
  | key (key : PublicKey)
  | address (address : EvmAddress)
  deriving DecidableEq

structure AccountId where
  shard : UInt64
  realm : UInt64
  form : AccountForm
  deriving DecidableEq

namespace AccountId

def new (shard realm num : UInt64) : AccountId :=
  ⟨shard, realm, .number num none⟩

def ofNum (num : UInt64) : AccountId :=
  new 0 0 num

instance : Inhabited AccountId := ⟨ofNum 0⟩

def ofKey (shard realm : UInt64) (key : PublicKey) : AccountId :=
  ⟨shard, realm, .key key⟩

def ofAddress (shard realm : UInt64) (address : EvmAddress) : AccountId :=
  ⟨shard, realm, .address address⟩

/-- The number; zero for accounts that are addressed otherwise. -/
def num (id : AccountId) : UInt64 :=
  match id.form with
  | .number num _ => num
  | _ => 0

def checksum (id : AccountId) : Option Checksum :=
  match id.form with
  | .number _ checksum => checksum
  | _ => none

def aliasKey (id : AccountId) : Option PublicKey :=
  match id.form with
  | .key key => some key
  | _ => none

def evmAddress (id : AccountId) : Option EvmAddress :=
  match id.form with
  | .address address => some address
  | _ => none

/-- What a checksum of the id covers; only numeric ids carry one. -/
def checked (id : AccountId) : CheckedId :=
  ⟨id.shard, id.realm, id.num, id.checksum⟩

def isNumeric (id : AccountId) : Bool :=
  match id.form with
  | .number .. => true
  | _ => false

/-- Sets the checksum of a numeric id; other ids stay as they are. -/
def withChecksum (id : AccountId) (checksum : Checksum) : AccountId :=
  match id.form with
  | .number num _ => { id with form := .number num (some checksum) }
  | _ => id

def realmText (id : AccountId) : String :=
  toString id.shard.toNat ++ "." ++ toString id.realm.toNat ++ "."

def text (id : AccountId) : String :=
  match id.form with
  | .number num none => id.realmText ++ toString num.toNat
  | .number num (some checksum) => id.realmText ++ toString num.toNat ++ "-" ++ checksum.text
  | .key key => id.realmText ++ key.text
  | .address address => id.realmText ++ address.hex

def textWithChecksum (id : AccountId) (ledger : LedgerId) : Except LedgerError String :=
  if id.isNumeric then
    .ok (id.checked.text ++ "-" ++ (Checksum.generate id.checked.text ledger).text)
  else .error (.invalidArgument (.checksumOfAccount id.text))

def validateChecksum (id : AccountId) (ledger : LedgerId) : Except LedgerError Unit :=
  id.checked.validate ledger

/-- The account's own address, or the long-zero address of its number. -/
def toEvmAddress (id : AccountId) : Except LedgerError EvmAddress :=
  match id.form with
  | .address address => .ok address
  | .key _ => .error (.invalidArgument .aliasSolidity)
  | .number num _ => EvmAddress.ofEntity id.shard id.realm num

def ofEvmAddress (address : EvmAddress) : AccountId :=
  new address.shard address.realm address.num

def ofEntity {kind : EntityKind} (id : EntityId kind) : AccountId :=
  ⟨id.shard, id.realm, .number id.num id.checksum⟩

/-- Whether the last of three parts, up to a `-`, is read as a number: digits, but not 40 of them,
which are an address. -/
def isNumberPart (last : List Char) : Bool :=
  let number := last.takeWhile (· != '-')
  Text.isDigits number && number.length != 40

/-- Reads the last part of an id as an address or a key, with or without one leading `0x`. -/
def parseOther (input : String) (shard realm last : List Char) : Except LedgerError AccountId := do
  let shard ← parseComponent input shard
  let realm ← parseComponent input realm
  let digits := String.ofList (Text.dropLead ['0', 'x'] last)
  if digits.utf8ByteSize = 40 then
    let address ← EvmAddress.parse digits
    return ofAddress shard realm address
  else
    match PublicKey.parse digits with
    | .ok key => return ofKey shard realm key
    | .error _ => throw (.parse input .accountShape)

/-- The text up to the first point, up to the second one, and the rest. -/
def threeParts (text : List Char) : Option (List Char × List Char × List Char) := do
  let (shard, rest) ← Text.splitFirst '.' text
  let (realm, last) ← Text.splitFirst '.' rest
  some (shard, realm, last)

def parseNumeric (input : String) : Except LedgerError AccountId :=
  (ofEntity : EntityId .entity → AccountId) <$> EntityId.parse input

def parse (input : String) : Except LedgerError AccountId :=
  match threeParts input.toList with
  | some (shard, realm, last) =>
    if isNumberPart last then parseNumeric input else parseOther input shard realm last
  | none => parseNumeric input

end AccountId

end LedgerClient
