import LedgerClient.Checksum.Notation
import LedgerClient.Checksum.Validation
import LedgerClient.EvmAddress
import LedgerClient.Text.Split

/-!
Entity ids `shard.realm.num`, optionally followed by `-` and a checksum. Tokens, topics, contracts,
files and schedules have ids of their own types, which differ in their kind only; the kind `entity`
is the untyped id.
-/

namespace LedgerClient

inductive EntityKind where
  | entity
  | token
  | topic
  | contract
  | file
  | schedule
  deriving DecidableEq

/-- The name of the id type in texts for logs. -/
def EntityKind.label : EntityKind → String
  | entity => "EntityId"
  | token => "TokenId"
  | topic => "TopicId"
  | contract => "ContractId"
  | file => "FileId"
  | schedule => "ScheduleId"

structure EntityId (kind : EntityKind) where
  shard : UInt64 := 0
  realm : UInt64 := 0
  num : UInt64 := 0
  checksum : Option Checksum := none
  deriving DecidableEq

abbrev TokenId := EntityId .token
abbrev TopicId := EntityId .topic
abbrev ContractId := EntityId .contract
abbrev FileId := EntityId .file
abbrev ScheduleId := EntityId .schedule

def parseComponent (input : String) (part : List Char) : Except LedgerError UInt64 :=
  if Text.isDigits part then
    match Text.readMagnitude (UInt64.size - 1) .tooLarge 0 part with
    | .ok value => .ok (.ofNat value)
    | .error fault => .error (.parse input (.number (String.ofList part) fault))
  else .error (.parse input (.notDigits (String.ofList part)))

namespace EntityId

variable {kind : EntityKind}

instance : Inhabited (EntityId kind) := ⟨{}⟩

def ofNum (num : UInt64) : EntityId kind :=
  { num }

def cast {target : EntityKind} (id : EntityId kind) : EntityId target :=
  ⟨id.shard, id.realm, id.num, id.checksum⟩

def checked (id : EntityId kind) : CheckedId :=
  ⟨id.shard, id.realm, id.num, id.checksum⟩

def baseText (id : EntityId kind) : String :=
  id.checked.text

def text (id : EntityId kind) : String :=
  match id.checksum with
  | none => id.baseText
  | some checksum => id.baseText ++ "-" ++ checksum.text

/-- The id written with the checksum for a ledger, whichever one it carries. -/
def textWithChecksum (id : EntityId kind) (ledger : LedgerId) : String :=
  id.baseText ++ "-" ++ (Checksum.generate id.baseText ledger).text

/-- Reads the numbers before a checksum: `num`, or `shard.realm.num`. -/
def parseBody (input : String) (checksum : Option Checksum) (body : List Char) :
    Except LedgerError (EntityId kind) :=
  match Text.splitAll '.' body with
  | [num] => do
    return { num := ← parseComponent input num, checksum }
  | [shard, realm, num] => do
    let shard ← parseComponent input shard
    let realm ← parseComponent input realm
    let num ← parseComponent input num
    return { shard, realm, num, checksum }
  | _ => .error (.parse input .entityShape)

/-- Reads an id; a checksum begins after the first `-` and is read first. -/
def parse (input : String) : Except LedgerError (EntityId kind) :=
  match Text.splitFirst '-' input.toList with
  | none => parseBody input none input.toList
  | some (body, checksum) => do
    let checksum ← Checksum.parse (String.ofList checksum)
    parseBody input (some checksum) body

def validateChecksum (id : EntityId kind) (ledger : LedgerId) : Except LedgerError Unit :=
  id.checked.validate ledger

def toEvmAddress (id : EntityId kind) : Except LedgerError EvmAddress :=
  EvmAddress.ofEntity id.shard id.realm id.num

def ofEvmAddress (address : EvmAddress) : EntityId kind :=
  { shard := address.shard, realm := address.realm, num := address.num }

end EntityId

end LedgerClient
