import LedgerClient.Client.Error
import LedgerClient.Json.Tree

/-!
Envelopes: the text of a request, an object whose only member is named for the kind of operation and
holds its body. An envelope is read as a finished tree before its body is looked at.
-/

namespace LedgerClient.Envelope

def wrap (kind : String) (body : Json) : Json :=
  Json.ofMembers [(kind, body)]

def text (kind : String) (body : Json) : String :=
  (wrap kind body).text

def tree? (text : String) : Option Json :=
  let (json, complete) := Json.read (text.toList.map some)
  if complete then json.finish else none

def body (kind : String) (text : String) : Except ClientError Json :=
  match tree? text with
  | some (.object [(tag, body)] _) =>
    if tag = kind then .ok body
    else .error (.rejected (.parse text (.envelopeTag kind)))
  | some (.object _ _) => .error (.rejected (.parse text (.envelopeShape kind)))
  | _ => .error (.undecodable kind .malformed)

def decode {α : Type} (kind : String) (decodeBody : Json → Decoded α) (text : String) :
    Except ClientError α := do
  let json ← body kind text
  match decodeBody json with
  | .ok value => return value
  | .error fault => throw (.undecodable kind fault)

end LedgerClient.Envelope
