import LedgerClient.Proofs.Engine.Tasks

/-!
Any number of callers submit a request each to one mock engine, and their steps come in any order;
a delay is no more than a task that does not move for some time. No two callers take the same one
from a counter: in every state what is left of it and what was taken add up to what it was set to.
-/

namespace LedgerClient

structure Submissions where
  shared : SharedEngine
  callers : List Caller
  /-- The callers whose requests are recorded, in that order. -/
  order : List Nat := []

/-- What moves next: one of the callers, or the clock. -/
inductive Turn where
  | caller (index : Nat)
  | clock (now : Instant)

def Turn.time? : Turn → Option Instant
  | .caller _ => none
  | .clock now => some now

namespace Submissions

def start (engine : MockEngine) (requests : List Request) : Submissions where
  shared := ⟨engine, engine.requestCount⟩
  callers := requests.map ({ request := · })

def move (submissions : Submissions) (index : Nat) (caller : Caller) : Submissions where
  shared := (caller.advance submissions.shared).2
  callers := submissions.callers.set index (caller.advance submissions.shared).1
  order := submissions.order ++ if caller.stage = .counted then [index] else []

def step (submissions : Submissions) : Turn → Submissions
  | .caller index =>
    match submissions.callers[index]? with
    | some caller => submissions.move index caller
    | none => submissions
  | .clock now => { submissions with shared.engine.clock := now }

def run (submissions : Submissions) (schedule : List Turn) : Submissions :=
  schedule.foldl step submissions

theorem run_append (submissions : Submissions) (first rest : List Turn) :
    submissions.run (first ++ rest) = (submissions.run first).run rest :=
  List.foldl_append

/-- The state of requests that were submitted to an engine with these faults, at any time. -/
structure Accounted (engine : MockEngine) (requests : List Request) (times : List Instant)
    (submissions : Submissions) : Prop where
  settings : submissions.shared.engine.SameSettings engine
  clock : submissions.shared.engine.clock ∈ times
  callers : submissions.callers.map Caller.request = requests
  received : submissions.shared.received =
    engine.requestCount + submissions.callers.countP (·.stage.isCounted)
  drops : submissions.shared.engine.dropCount + submissions.callers.countP (·.stage.tookDrop) =
    engine.dropCount
  errors : submissions.shared.engine.injectedErrorCount +
    submissions.callers.countP (·.stage.tookError) = engine.injectedErrorCount
  noDrop : ∀ caller ∈ submissions.callers, caller.stage.foundNoDrop = true →
    submissions.shared.engine.dropCount = 0
  noError : ∀ caller ∈ submissions.callers, caller.stage.foundNoError = true →
    submissions.shared.engine.injectedErrorCount = 0
  hears : ∀ caller ∈ submissions.callers, caller.Hears engine times
  records : submissions.shared.engine.requests =
    engine.requests ++ submissions.order.filterMap (requests[·]?.map .ofRequest)
  once : submissions.order.Nodup
  recorded : ∀ index, index ∈ submissions.order ↔
    submissions.callers[index]?.any (·.stage.isRecorded) = true

variable {engine : MockEngine} {requests : List Request} {times : List Instant}
  {submissions : Submissions} {index : Nat} {caller : Caller}

theorem countP_set_add (p : Caller → Bool) {callers : List Caller}
    (found : callers[index]? = some caller) (next : Caller) :
    (callers.set index next).countP p + (p caller).toNat =
      callers.countP p + (p next).toNat := by
  induction callers generalizing index with
  | nil => simp at found
  | cons first rest ih =>
    cases index with
    | zero =>
      obtain rfl : first = caller := by simpa using found
      cases first' : p first <;> cases next' : p next <;> simp [first', next']
    | succ index =>
      have := ih (by simpa using found)
      simp only [List.set_cons_succ, List.countP_cons]
      omega

theorem accounted_start (engine : MockEngine) (requests : List Request)
    (timely : engine.clock ∈ times) : (start engine requests).Accounted engine requests times where
  settings := .refl engine
  clock := timely
  callers := by simp [start, Function.comp_def]
  received := by simp [start, List.countP_map, Function.comp_def]
  drops := by simp [start, List.countP_map, Function.comp_def]
  errors := by simp [start, List.countP_map, Function.comp_def]
  noDrop := by simp [start]
  noError := by simp [start]
  hears := by simp [start, Caller.Hears]
  records := by simp [start]
  once := .nil
  recorded index := by cases found : requests[index]? <;> simp [start, found]

theorem forall_mem_move {p : Caller → Prop} (others : ∀ other ∈ submissions.callers, p other)
    (own : p (caller.advance submissions.shared).1) :
    ∀ other ∈ (submissions.move index caller).callers, p other := by
  intro other belongs
  rcases List.mem_or_eq_of_mem_set belongs with old | rfl
  · exact others other old
  · exact own

theorem Accounted.mem_order_move (accounted : submissions.Accounted engine requests times)
    (moves : caller.Moves submissions.shared (caller.advance submissions.shared).1
      (caller.advance submissions.shared).2)
    (found : submissions.callers[index]? = some caller) (other : Nat) :
    other ∈ (submissions.move index caller).order ↔
      (submissions.move index caller).callers[other]?.any (·.stage.isRecorded) = true := by
  have bound : index < submissions.callers.length := (List.getElem?_eq_some_iff.mp found).1
  by_cases same : index = other
  · subst same
    have listed := accounted.recorded index
    rw [found, Option.any_some] at listed
    simp only [Submissions.move, List.getElem?_set_self bound, Option.any_some, moves.recorded,
      List.mem_append, listed]
    split <;> simp [*]
  · simp only [Submissions.move, List.getElem?_set_ne same, ← accounted.recorded other,
      List.mem_append]
    split <;> simp [Ne.symm same]

theorem Accounted.nodup_order_move (accounted : submissions.Accounted engine requests times)
    (found : submissions.callers[index]? = some caller) :
    (submissions.move index caller).order.Nodup := by
  simp only [Submissions.move]
  split
  case isTrue counted =>
    have fresh : index ∉ submissions.order := by simp [accounted.recorded index, found, counted]
    exact List.nodup_append.mpr ⟨accounted.once, by simp, by grind⟩
  case isFalse => simpa using accounted.once

theorem Accounted.move (accounted : submissions.Accounted engine requests times)
    {error : EngineError} (injected : engine.injectedError = some error)
    (found : submissions.callers[index]? = some caller) :
    (submissions.move index caller).Accounted engine requests times := by
  have moves := caller.advance_moves (accounted.settings.injectedError.trans injected)
  have counted := fun p => countP_set_add p found (caller.advance submissions.shared).1
  have member : caller ∈ submissions.callers := List.mem_of_getElem? found
  have own : requests[index]? = some caller.request := by
    rw [← accounted.callers, List.getElem?_map, found, Option.map_some]
  constructor
  case settings => exact moves.settings.trans accounted.settings
  case clock => exact moves.clock ▸ accounted.clock
  case callers =>
    obtain ⟨bound, rfl⟩ := List.getElem?_eq_some_iff.mp found
    simp only [Submissions.move, List.map_set, moves.request]
    rw [← List.getElem_map Caller.request (h := by simpa using bound), List.set_getElem_self,
      accounted.callers]
  case received =>
    have counted := counted (·.stage.isCounted)
    have before := accounted.received
    have change := moves.received
    simp only [Submissions.move]
    omega
  case drops =>
    have counted := counted (·.stage.tookDrop)
    have before := accounted.drops
    have change := moves.drops
    simp only [Submissions.move]
    omega
  case errors =>
    have counted := counted (·.stage.tookError)
    have before := accounted.errors
    have change := moves.errors
    simp only [Submissions.move]
    omega
  -- Nothing adds to a counter, so one that a task has found empty is still empty.
  case noDrop =>
    have gone : ∀ other ∈ (submissions.move index caller).callers,
        other.stage.foundNoDrop = true → submissions.shared.engine.dropCount = 0 :=
      forall_mem_move accounted.noDrop fun empty =>
        (moves.foundNoDrop empty).elim (accounted.noDrop caller member) id
    exact fun other belongs empty => Nat.le_zero.mp (gone other belongs empty ▸ moves.dropsLeft)
  case noError =>
    have gone : ∀ other ∈ (submissions.move index caller).callers,
        other.stage.foundNoError = true → submissions.shared.engine.injectedErrorCount = 0 :=
      forall_mem_move accounted.noError fun empty =>
        (moves.foundNoError empty).elim (accounted.noError caller member) id
    exact fun other belongs empty => Nat.le_zero.mp (gone other belongs empty ▸ moves.errorsLeft)
  case hears =>
    exact forall_mem_move accounted.hears
      (Caller.hears_advance (accounted.hears caller member) accounted.settings accounted.clock)
  case records =>
    simp only [Submissions.move, moves.requests, accounted.records]
    split <;> simp [own]
  case once => exact accounted.nodup_order_move found
  case recorded => exact accounted.mem_order_move moves found

theorem Accounted.step (accounted : submissions.Accounted engine requests times)
    {error : EngineError} (injected : engine.injectedError = some error) {turn : Turn}
    (timely : ∀ now, turn = .clock now → now ∈ times) :
    (submissions.step turn).Accounted engine requests times := by
  cases turn with
  | clock now =>
    exact ⟨⟨accounted.settings.responses, accounted.settings.operator,
      accounted.settings.injectedError⟩, timely now rfl, accounted.callers, accounted.received,
      accounted.drops, accounted.errors, accounted.noDrop, accounted.noError, accounted.hears,
      accounted.records, accounted.once, accounted.recorded⟩
  | caller index =>
    cases found : submissions.callers[index]? with
    | none => simpa only [Submissions.step, found] using accounted
    | some caller => simpa only [Submissions.step, found] using accounted.move injected found

theorem Accounted.run (accounted : submissions.Accounted engine requests times)
    {error : EngineError} (injected : engine.injectedError = some error) {schedule : List Turn}
    (timely : ∀ now, .clock now ∈ schedule → now ∈ times) :
    (submissions.run schedule).Accounted engine requests times := by
  induction schedule generalizing submissions with
  | nil => exact accounted
  | cons turn rest ih =>
    exact ih (accounted.step injected fun now clock => timely now (by simp [clock]))
      fun now later => timely now (.tail _ later)

theorem order_step (submissions : Submissions) (turn : Turn) :
    submissions.order <+: (submissions.step turn).order := by
  cases turn with
  | clock now => exact List.prefix_refl _
  | caller index =>
    simp only [step]
    split
    · exact List.prefix_append _ _
    · exact List.prefix_refl _

theorem order_run (submissions : Submissions) (schedule : List Turn) :
    submissions.order <+: (submissions.run schedule).order := by
  induction schedule generalizing submissions with
  | nil => exact List.prefix_refl _
  | cons turn rest ih => exact (submissions.order_step turn).trans (ih _)

end Submissions

end LedgerClient
