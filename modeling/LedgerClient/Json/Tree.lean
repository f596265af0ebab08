import LedgerClient.Json.Float

/-!
Finished trees: JSON that was read completely, before anything is taken out of it. The members of an
object are then sorted by their keys, and the last of several members with one key has replaced the
others.
-/

namespace LedgerClient.Json

/-- Puts a member at its place among sorted ones, in place of one with its key. -/
def insertMember (key : String) (value : Json) : List (String × Json) → List (String × Json)
  | [] => [(key, value)]
  | (k, v) :: rest =>
    if key < k then (key, value) :: (k, v) :: rest
    else if key = k then (key, value) :: rest
    else (k, v) :: insertMember key value rest

/-- Sorts members by key; of several with one key the last stays. -/
def sortMembers (members : List (String × Json)) : List (String × Json) :=
  members.foldl (fun sorted (key, value) => insertMember key value sorted) []

mutual

/-- The finished tree of a value; none if a part of it is faulty. -/
def finish : Json → Option Json
  | .number value => if value.isFinite then some (.number value) else none
  | .array _ .broken => none
  | .array items _ => (Json.array · .counted) <$> finishItems items
  | .object _ .broken => none
  | .object members _ => (fun members => .object (sortMembers members) .counted) <$> finishMembers members
  | .unreadable => none
  | .null => some .null
  | .bool value => some (.bool value)
  | .string value => some (.string value)

def finishItems : List Json → Option (List Json)
  | [] => some []
  | item :: rest => do
    let item ← finish item
    let rest ← finishItems rest
    some (item :: rest)

def finishMembers : List (String × Json) → Option (List (String × Json))
  | [] => some []
  | (key, value) :: rest => do
    let value ← finish value
    let rest ← finishMembers rest
    some ((key, value) :: rest)

end

def member? (key : String) : Json → Option Json
  | .object members _ => (members.find? fun (k, _) => k = key).map Prod.snd
  | _ => none

end LedgerClient.Json
