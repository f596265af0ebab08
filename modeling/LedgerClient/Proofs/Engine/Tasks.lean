import LedgerClient.Engine.Mock

/-!
Requests that reach the mock engine at the same time. A caller counts and records its request and
leaves the rest to a task, which takes one from the drops, else one from the errors, else responds.
It takes one from a counter by reading it and swapping in one less, if nobody has changed it in
between. Every step here is one access to the shared engine, so that others can come between any two
of them; a caller that moves alone is served as if it submitted its request in one step.
-/

namespace LedgerClient

inductive Fate where
  | dropped
  | failed
  | answered
  deriving DecidableEq

/-- How far the request of a caller has come. A task that is about to swap a counter has read
`left + 1` from it. -/
inductive Stage where
  | unsent
  | counted
  | recorded
  | swapDrop (left : Nat)
  | dropping
  | undropped
  | swapError (left : Nat)
  | failing
  | responding
  | resumed (fate : Fate)
  deriving DecidableEq

structure Caller where
  request : Request
  stage : Stage := .unsent
  /-- What the caller was resumed with, each time that it was. -/
  heard : List Outcome := []

structure SharedEngine where
  engine : MockEngine
  received : Nat

def Outcome.ofResult : Except EngineError Bytes → Outcome
  | .ok bytes => .payload bytes
  | .error error => .failure error

namespace MockEngine

variable {engine : MockEngine} {left : Nat}

/-! What becomes of a recorded request, by what is left of the faults. -/

theorem settle_of_drop (drops : engine.dropCount = left + 1) (request : Request) :
    engine.settle request = (.dropped, { engine with dropCount := left }) := by
  simp [settle, takeDrop, drops]

theorem settle_of_error {error : EngineError} (drops : engine.dropCount = 0)
    (errors : engine.injectedErrorCount = left + 1) (injected : engine.injectedError = some error)
    (request : Request) :
    engine.settle request = (.failure error, { engine with injectedErrorCount := left }) := by
  simp [settle, takeDrop, takeError, drops, errors, injected]

theorem settle_of_none (drops : engine.dropCount = 0) (errors : engine.injectedErrorCount = 0)
    (request : Request) :
    engine.settle request = (.ofResult (engine.respond request), engine) := by
  simp only [settle, takeDrop, takeError, drops, errors]
  cases engine.respond request <;> rfl

theorem settle_of_unset (drops : engine.dropCount = 0)
    (errors : engine.injectedErrorCount = left + 1) (injected : engine.injectedError = none)
    (request : Request) :
    engine.settle request =
      (.ofResult ({ engine with injectedErrorCount := left }.respond request),
        { engine with injectedErrorCount := left }) := by
  simp only [settle, takeDrop, takeError, drops, errors, injected]
  cases respond _ request <;> rfl

end MockEngine

namespace Caller

def resume (caller : Caller) (fate : Fate) (outcome : Outcome) : Caller :=
  { caller with stage := .resumed fate, heard := caller.heard ++ [outcome] }

def advance (caller : Caller) (shared : SharedEngine) : Caller × SharedEngine :=
  match caller.stage with
  | .unsent => ({ caller with stage := .counted }, { shared with received := shared.received + 1 })
  | .counted =>
    ({ caller with stage := .recorded },
      { shared with engine := shared.engine.record caller.request })
  | .recorded =>
    match shared.engine.dropCount with
    | 0 => ({ caller with stage := .undropped }, shared)
    | left + 1 => ({ caller with stage := .swapDrop left }, shared)
  | .swapDrop left =>
    if shared.engine.dropCount = left + 1 then
      ({ caller with stage := .dropping },
        { shared with engine := { shared.engine with dropCount := left } })
    else ({ caller with stage := .recorded }, shared)
  | .dropping => (caller.resume .dropped .dropped, shared)
  | .undropped =>
    match shared.engine.injectedErrorCount with
    | 0 => ({ caller with stage := .responding }, shared)
    | left + 1 => ({ caller with stage := .swapError left }, shared)
  | .swapError left =>
    if shared.engine.injectedErrorCount = left + 1 then
      ({ caller with stage := .failing },
        { shared with engine := { shared.engine with injectedErrorCount := left } })
    else ({ caller with stage := .undropped }, shared)
  | .failing =>
    match shared.engine.injectedError with
    | some error => (caller.resume .failed (.failure error), shared)
    | none => ({ caller with stage := .responding }, shared)
  | .responding =>
    (caller.resume .answered (.ofResult (shared.engine.respond caller.request)), shared)
  | .resumed _ => (caller, shared)

def advanceAlone : Nat → Caller → SharedEngine → Caller × SharedEngine
  | 0, caller, shared => (caller, shared)
  | steps + 1, caller, shared =>
    let (caller, shared) := caller.advance shared
    advanceAlone steps caller shared

theorem advanceAlone_settle (request : Request) (engine : MockEngine) (received : Nat) :
    ∃ fate outcome next, engine.settle request = (outcome, next) ∧ next.delay = engine.delay ∧
      advanceAlone 5 { request, stage := .recorded } ⟨engine, received⟩ =
        ({ request, stage := .resumed fate, heard := [outcome] }, ⟨next, received⟩) := by
  -- A task that runs alone resumes its caller once, with the outcome that a recorded request
  -- has.
  cases drops : engine.dropCount with
  | succ left =>
    refine ⟨.dropped, _, _, MockEngine.settle_of_drop drops request, rfl, ?_⟩
    simp [advanceAlone, advance, resume, drops]
  | zero =>
    cases errors : engine.injectedErrorCount with
    | zero =>
      refine ⟨.answered, _, _, MockEngine.settle_of_none drops errors request, rfl, ?_⟩
      simp [advanceAlone, advance, resume, drops, errors]
    | succ left =>
      cases injected : engine.injectedError with
      | some error =>
        refine ⟨.failed, _, _, MockEngine.settle_of_error drops errors injected request, rfl, ?_⟩
        simp [advanceAlone, advance, resume, drops, errors, injected]
      | none =>
        refine ⟨.answered, _, _, MockEngine.settle_of_unset drops errors injected request, rfl, ?_⟩
        simp [advanceAlone, advance, resume, drops, errors, injected]

theorem advanceAlone_submit (request : Request) (engine : MockEngine) (received : Nat) :
    ∃ fate outcome next,
      MockEngine.submit request engine = (some { outcome, elapsed := engine.delay }, next) ∧
      advanceAlone 7 { request } ⟨engine, received⟩ =
        ({ request, stage := .resumed fate, heard := [outcome] }, ⟨next, received + 1⟩) := by
  obtain ⟨fate, outcome, next, settled, kept, alone⟩ :=
    advanceAlone_settle request (engine.record request) (received + 1)
  have whole : MockEngine.submit request engine =
      (some ⟨((engine.record request).settle request).1,
          ((engine.record request).settle request).2.delay⟩,
        ((engine.record request).settle request).2) := rfl
  have delay : (engine.record request).delay = engine.delay := rfl
  refine ⟨fate, outcome, next, ?_, alone⟩
  rw [whole, settled, kept, delay]

end Caller

namespace Stage

/-! What has been done for a caller that has come to a stage. -/

@[simp] def isCounted : Stage → Bool
  | unsent => false
  | _ => true

@[simp] def isRecorded : Stage → Bool
  | unsent | counted => false
  | _ => true

@[simp] def tookDrop : Stage → Bool
  | dropping | resumed .dropped => true
  | _ => false

@[simp] def tookError : Stage → Bool
  | failing | resumed .failed => true
  | _ => false

@[simp] def isResumed : Stage → Bool
  | resumed _ => true
  | _ => false

@[simp] def foundNoDrop : Stage → Bool
  | undropped | swapError _ | failing | responding | resumed .failed | resumed .answered => true
  | _ => false

@[simp] def foundNoError : Stage → Bool
  | responding | resumed .answered => true
  | _ => false

end Stage

/-- What an engine answers by: the fields that no request changes. -/
structure MockEngine.SameSettings (engine other : MockEngine) : Prop where
  responses : engine.responses = other.responses
  operator : engine.operator = other.operator
  injectedError : engine.injectedError = other.injectedError

namespace MockEngine

@[simp] theorem SameSettings.refl (engine : MockEngine) : engine.SameSettings engine :=
  ⟨rfl, rfl, rfl⟩

theorem SameSettings.trans {first second third : MockEngine} (same : first.SameSettings second)
    (next : second.SameSettings third) : first.SameSettings third :=
  ⟨same.responses.trans next.responses, same.operator.trans next.operator,
    same.injectedError.trans next.injectedError⟩

@[simp] theorem record_clock (engine : MockEngine) (request : Request) :
    (engine.record request).clock = engine.clock := rfl

@[simp] theorem record_requests (engine : MockEngine) (request : Request) :
    (engine.record request).requests = engine.requests ++ [.ofRequest request] := rfl

@[simp] theorem record_dropCount (engine : MockEngine) (request : Request) :
    (engine.record request).dropCount = engine.dropCount := rfl

@[simp] theorem record_injectedErrorCount (engine : MockEngine) (request : Request) :
    (engine.record request).injectedErrorCount = engine.injectedErrorCount := rfl

@[simp] theorem sameSettings_record (engine : MockEngine) (request : Request) :
    (engine.record request).SameSettings engine := ⟨rfl, rfl, rfl⟩

@[simp] theorem sameSettings_dropCount (engine : MockEngine) (dropCount : Nat) :
    { engine with dropCount }.SameSettings engine := ⟨rfl, rfl, rfl⟩

@[simp] theorem sameSettings_injectedErrorCount (engine : MockEngine) (injectedErrorCount : Nat) :
    { engine with injectedErrorCount }.SameSettings engine := ⟨rfl, rfl, rfl⟩

theorem SameSettings.respond_eq {engine other : MockEngine} (same : engine.SameSettings other)
    (request : Request) :
    engine.respond request = { other with clock := engine.clock }.respond request := by
  have own : engine.respond request = respond
      { responses := engine.responses, operator := engine.operator, clock := engine.clock }
      request := rfl
  rw [own, same.responses, same.operator]
  rfl

end MockEngine

namespace Caller

/-- All that a step of one caller does. What it takes from a counter it has then taken, and the
counters change in no other way. -/
structure Moves (caller : Caller) (shared : SharedEngine) (next : Caller) (after : SharedEngine) :
    Prop where
  request : next.request = caller.request
  settings : after.engine.SameSettings shared.engine
  clock : after.engine.clock = shared.engine.clock
  received : after.received + caller.stage.isCounted.toNat =
    shared.received + next.stage.isCounted.toNat
  recorded : next.stage.isRecorded = true ↔ caller.stage.isRecorded = true ∨ caller.stage = .counted
  requests : after.engine.requests = shared.engine.requests ++
    if caller.stage = .counted then [.ofRequest caller.request] else []
  drops : after.engine.dropCount + next.stage.tookDrop.toNat =
    shared.engine.dropCount + caller.stage.tookDrop.toNat
  errors : after.engine.injectedErrorCount + next.stage.tookError.toNat =
    shared.engine.injectedErrorCount + caller.stage.tookError.toNat
  dropsLeft : after.engine.dropCount ≤ shared.engine.dropCount
  errorsLeft : after.engine.injectedErrorCount ≤ shared.engine.injectedErrorCount
  foundNoDrop : next.stage.foundNoDrop = true →
    caller.stage.foundNoDrop = true ∨ shared.engine.dropCount = 0
  foundNoError : next.stage.foundNoError = true →
    caller.stage.foundNoError = true ∨ shared.engine.injectedErrorCount = 0

theorem advance_moves (caller : Caller) {shared : SharedEngine} {error : EngineError}
    (injected : shared.engine.injectedError = some error) :
    caller.Moves shared (caller.advance shared).1 (caller.advance shared).2 := by
  obtain ⟨request, stage, heard⟩ := caller
  obtain ⟨engine, received⟩ := shared
  cases stage with
  | unsent => constructor <;> simp [advance]
  | counted => constructor <;> simp [advance]
  | recorded =>
    cases drops : engine.dropCount with
    | zero => constructor <;> simp [advance, drops]
    | succ left => constructor <;> simp [advance, drops]
  | swapDrop left =>
    -- A swap that fails takes nothing, and the counter is read again.
    by_cases unchanged : engine.dropCount = left + 1
    · constructor <;> simp [advance, unchanged]
    · constructor <;> simp [advance, unchanged]
  | dropping => constructor <;> simp [advance, resume]
  | undropped =>
    cases errors : engine.injectedErrorCount with
    | zero => constructor <;> simp [advance, errors]
    | succ left => constructor <;> simp [advance, errors]
  | swapError left =>
    by_cases unchanged : engine.injectedErrorCount = left + 1
    · constructor <;> simp [advance, unchanged]
    · constructor <;> simp [advance, unchanged]
  | failing =>
    have injected : engine.injectedError = some error := injected
    constructor <;> simp [advance, injected, resume]
  | responding => constructor <;> simp [advance, resume]
  | resumed fate => cases fate <;> constructor <;> simp [advance]

/-- What a caller has heard of an engine with these settings: nothing until it is resumed, and then
what belongs to its fate, an answer being that to its own request at one of the times. -/
def Hears (caller : Caller) (settings : MockEngine) (times : List Instant) : Prop :=
  match caller.stage with
  | .resumed .dropped => caller.heard = [.dropped]
  | .resumed .failed =>
    ∃ error, settings.injectedError = some error ∧ caller.heard = [.failure error]
  | .resumed .answered =>
    ∃ clock ∈ times, caller.heard = [.ofResult ({ settings with clock }.respond caller.request)]
  | _ => caller.heard = []

theorem Hears.once {caller : Caller} {settings : MockEngine} {times : List Instant} {fate : Fate}
    (hears : caller.Hears settings times) (resumed : caller.stage = .resumed fate) :
    caller.heard.length = 1 := by
  cases fate <;> simp only [Hears, resumed] at hears
  · rw [hears, List.length_singleton]
  · obtain ⟨_, _, heard⟩ := hears
    rw [heard, List.length_singleton]
  · obtain ⟨_, _, heard⟩ := hears
    rw [heard, List.length_singleton]

theorem hears_advance {caller : Caller} {shared : SharedEngine} {settings : MockEngine}
    {times : List Instant} (hears : caller.Hears settings times)
    (same : shared.engine.SameSettings settings) (timely : shared.engine.clock ∈ times) :
    (caller.advance shared).1.Hears settings times := by
  obtain ⟨request, stage, heard⟩ := caller
  cases stage with
  | unsent => exact hears
  | counted => exact hears
  | recorded =>
    cases drops : shared.engine.dropCount <;> simpa [advance, drops, Hears] using hears
  | swapDrop left =>
    by_cases unchanged : shared.engine.dropCount = left + 1 <;>
      simpa [advance, unchanged, Hears] using hears
  | dropping => simpa [advance, resume, Hears] using hears
  | undropped =>
    cases errors : shared.engine.injectedErrorCount <;>
      simpa [advance, errors, Hears] using hears
  | swapError left =>
    by_cases unchanged : shared.engine.injectedErrorCount = left + 1 <;>
      simpa [advance, unchanged, Hears] using hears
  | failing =>
    cases injected : shared.engine.injectedError with
    | none => simpa [advance, injected, Hears] using hears
    | some error =>
      have own : settings.injectedError = some error := same.injectedError ▸ injected
      simpa [advance, injected, resume, Hears, own] using hears
  | responding =>
    have silent : heard = [] := hears
    refine ⟨shared.engine.clock, timely, ?_⟩
    rw [← same.respond_eq]
    simp [advance, resume, silent]
  | resumed fate => exact hears

end Caller

end LedgerClient
