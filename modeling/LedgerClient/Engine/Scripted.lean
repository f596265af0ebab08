import LedgerClient.Engine.Mock

/-!
An engine that plays a script: each request takes the next action, and goes to the mock where none
is left.
-/

namespace LedgerClient

inductive ScriptAction where
  | succeed (payload : Bytes)
  | fail (error : EngineError)
  | drop
  /-- Keeps the completion. -/
  | hold
  /-- Passes the request on with another envelope. -/
  | tamper (envelope : String)

structure ScriptedEngine where
  mock : MockEngine := {}
  script : List ScriptAction := []
  /-- The kinds of the requests that are held. -/
  held : List String := []

namespace ScriptedEngine

def forward (request : Request) (engine : ScriptedEngine) : Option Answer × ScriptedEngine :=
  let (answer, mock) := MockEngine.submit request engine.mock
  (answer, { engine with mock })

def submit (request : Request) (engine : ScriptedEngine) : Option Answer × ScriptedEngine :=
  match engine.script with
  | [] => engine.forward request
  | action :: script =>
    let engine := { engine with script }
    match action with
    | .succeed payload => (some { outcome := .payload payload }, engine)
    | .fail error => (some { outcome := .failure error }, engine)
    | .drop => (some { outcome := .dropped }, engine)
    | .hold => (none, { engine with held := engine.held ++ [request.kind] })
    | .tamper envelope => engine.forward { request with envelope }

def toEngine : Engine ScriptedEngine := ⟨submit⟩

end ScriptedEngine

end LedgerClient
