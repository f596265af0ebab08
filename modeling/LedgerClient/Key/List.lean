import LedgerClient.Json.Record
import LedgerClient.Json.Scalar

/-!
Keys that authorize an operation: a public key, a contract, or a list of keys. All keys of a list
must sign unless it has a threshold `k`; then any `k` of them suffice, and `1 ≤ k ≤ n` for a list of
`n` keys. Lists nest.
-/

namespace LedgerClient

inductive Key where
  | single (key : PublicKey)
  | contract (id : ContractId)
  | delegatableContract (id : ContractId)
  | list (keys : List Key) (threshold : Option UInt32)

structure KeyList where
  keys : List Key := []
  threshold : Option UInt32 := none

namespace KeyList

def empty : KeyList := {}

/-- A list all of whose keys must sign. -/
def ofKeys (keys : List Key) : KeyList :=
  { keys }

def toKey (list : KeyList) : Key :=
  .list list.keys list.threshold

def size (list : KeyList) : Nat :=
  list.keys.length

/-- A threshold counts at least one key and at most all of them. -/
def checkThreshold (threshold : UInt32) (keyCount : Nat) : Except LedgerError Unit :=
  if 1 ≤ threshold.toNat ∧ threshold.toNat ≤ keyCount then .ok ()
  else .error (.invalidKeyList threshold keyCount)

def setThreshold (list : KeyList) : Option UInt32 → Except LedgerError KeyList
  | none => .ok { list with threshold := none }
  | some threshold => do
    checkThreshold threshold list.size
    return { list with threshold := some threshold }

/-- A list of which any `threshold` keys suffice. -/
def withThreshold (keys : List Key) (threshold : UInt32) : Except LedgerError KeyList :=
  (ofKeys keys).setThreshold (some threshold)

/-- Adds a key at the end; a threshold stays in its range as the list grows. -/
def push (list : KeyList) (key : Key) : KeyList :=
  { list with keys := list.keys ++ [key] }

end KeyList

namespace Key

mutual

/-- The contracts in a key, at any depth, in their order. -/
def checkedIds : Key → List CheckedId
  | .single _ => []
  | .contract id => [id.checked]
  | .delegatableContract id => [id.checked]
  | .list keys _ => checkedIdsOfAll keys

def checkedIdsOfAll : List Key → List CheckedId
  | [] => []
  | key :: rest => checkedIds key ++ checkedIdsOfAll rest

end

def listMembers (keys : List Json) (threshold : Option UInt32) : List (String × Json) :=
  ("keys", Json.ofItems keys) ::
    match threshold with
    | none => []
    | some threshold => [("threshold", Codec.uint32.encode threshold)]

mutual

/-- A key is an object with one member, named for its kind. -/
def encode : Key → Json
  | .single key => Json.ofMembers [("single", .string key.text)]
  | .contract id => Json.ofMembers [("contractId", .string id.text)]
  | .delegatableContract id => Json.ofMembers [("delegatableContractId", .string id.text)]
  | .list keys threshold =>
    Json.ofMembers [("keyList", Json.ofMembers (listMembers (encodeAll keys) threshold))]

def encodeAll : List Key → List Json
  | [] => []
  | key :: rest => encode key :: encodeAll rest

end

def listRecord (decodeKey : Json → Decoded Key) : Record KeyList where
  initial := {}
  slots :=
    [ .defaulted "keys" (Codec.list ⟨encode, decodeKey⟩) (·.keys) fun keys list => { list with keys },
      .optional "threshold" Codec.uint32 (·.threshold) fun threshold list =>
        { list with threshold } ]

def decodeList (decodeKey : Json → Decoded Key) (json : Json) : Decoded KeyList := do
  let list ← (listRecord decodeKey).codec.decode json
  Codec.ofResult ((KeyList.ofKeys list.keys).setThreshold list.threshold)

def decodeTagged (decodeKey : Json → Decoded Key) (tag : String) (json : Json) : Decoded Key :=
  if tag = "single" then
    Key.single <$> PublicKey.codec.decode json
  else if tag = "contractId" then Key.contract <$> EntityId.codec.decode json
  else if tag = "delegatableContractId" then Key.delegatableContract <$> EntityId.codec.decode json
  else if tag = "keyList" then KeyList.toKey <$> decodeList decodeKey json
  else .error .malformed

/-- Reads a key with at most `depth` keys inside each other. More members than one are a fault,
which a finished tree shows before the first of them is read. -/
def decodeUpTo : (depth : Nat) → Json → Decoded Key
  | depth + 1, .object ((tag, json) :: rest) ending =>
    if ending = .counted ∧ !rest.isEmpty then .error .malformed
    else do
      let key ← decodeTagged (decodeUpTo depth) tag json
      if rest.isEmpty ∧ ending ≠ .broken then return key else .error .malformed
  | _, _ => .error .malformed

/-- Every key takes an object of its own, so the nesting limit of JSON bounds that of keys. -/
def codec : Codec Key where
  encode := encode
  decode := decodeUpTo (Json.maxDepth + 1)

end Key

def KeyList.codec : Codec KeyList where
  encode list := Json.ofMembers (Key.listMembers (Key.encodeAll list.keys) list.threshold)
  decode := Key.decodeList Key.codec.decode

end LedgerClient
