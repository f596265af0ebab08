import LedgerClient.Client.Basic
import LedgerClient.Proofs.Engine.Interleaving

/-!
What requests that are submitted at the same time deliver once all callers are resumed: the faults
are used up, drops first, as far as there are callers for them. If each caller is resumed before the
next one comes, they are used up in the order of the requests.
-/

namespace LedgerClient

/-- What the call of a caller returned, each time that the caller was resumed. -/
def Caller.results {ρ : Type} (caller : Caller) (response : Codec ρ) :
    List (Except ClientError ρ) :=
  caller.heard.map fun outcome => (Client.settle caller.request.kind response outcome).1

namespace Submissions

variable {engine : MockEngine} {requests : List Request} {times : List Instant}
  {submissions : Submissions} {caller : Caller}

def Finished (submissions : Submissions) : Prop :=
  ∀ caller ∈ submissions.callers, caller.stage.isResumed = true

instance (submissions : Submissions) : Decidable submissions.Finished :=
  inferInstanceAs (Decidable (∀ caller ∈ submissions.callers, caller.stage.isResumed = true))

def resumed (submissions : Submissions) (fate : Fate) : Nat :=
  submissions.callers.countP (·.stage = .resumed fate)

/-! When all callers are resumed, the counters tell how. -/

theorem Finished.fate (finished : submissions.Finished) (member : caller ∈ submissions.callers) :
    ∃ fate, caller.stage = .resumed fate := by
  have resumed := finished caller member
  cases stage : caller.stage <;> simp [stage] at resumed
  exact ⟨_, rfl⟩

theorem Finished.length_eq (finished : submissions.Finished) :
    submissions.resumed .dropped + submissions.resumed .failed + submissions.resumed .answered =
      submissions.callers.length := by
  obtain ⟨shared, callers, order⟩ := submissions
  simp only [resumed]
  induction callers with
  | nil => rfl
  | cons caller rest ih =>
    have fewer := ih fun other later => finished other (.tail _ later)
    obtain ⟨fate, stage⟩ := finished.fate (.head _)
    cases fate <;> simp [stage] <;> omega

theorem Finished.countP_eq (finished : submissions.Finished) (p : Stage → Bool) (fate : Fate)
    (taken : ∀ other, p (.resumed other) = decide (other = fate)) :
    submissions.callers.countP (p ·.stage) = submissions.resumed fate := by
  refine List.countP_congr fun caller member => ?_
  obtain ⟨other, stage⟩ := finished.fate member
  simp [stage, taken]

theorem Accounted.dropCount_eq_zero (accounted : submissions.Accounted engine requests times)
    (fate : Fate) (undropped : fate ≠ .dropped) (some : 0 < submissions.resumed fate) :
    submissions.shared.engine.dropCount = 0 := by
  obtain ⟨caller, member, stage⟩ := List.countP_pos_iff.mp some
  refine accounted.noDrop caller member ?_
  cases fate <;> simp_all

theorem Accounted.injectedErrorCount_eq_zero
    (accounted : submissions.Accounted engine requests times)
    (some : 0 < submissions.resumed .answered) :
    submissions.shared.engine.injectedErrorCount = 0 := by
  obtain ⟨caller, member, stage⟩ := List.countP_pos_iff.mp some
  exact accounted.noError caller member (by simp_all)

theorem Accounted.order_perm (accounted : submissions.Accounted engine requests times)
    (finished : submissions.Finished) : submissions.order.Perm (List.range requests.length) := by
  refine (List.perm_ext_iff_of_nodup accounted.once List.nodup_range).mpr fun index => ?_
  rw [accounted.recorded, List.mem_range, ← accounted.callers, List.length_map]
  cases found : submissions.callers[index]? with
  | none => simpa using found
  | some caller =>
    obtain ⟨fate, stage⟩ := finished.fate (List.mem_of_getElem? found)
    simpa [stage] using (List.getElem?_eq_some_iff.mp found).1

theorem Accounted.requestCount_eq (accounted : submissions.Accounted engine requests times)
    (finished : submissions.Finished) :
    submissions.shared.engine.requestCount = engine.requestCount + requests.length := by
  have order := accounted.order_perm finished
  have all : ∀ index ∈ submissions.order,
      (requests[index]?.map RecordedRequest.ofRequest).isSome = true := by
    intro index member
    simpa using List.mem_range.mp (order.mem_iff.mp member)
  rw [MockEngine.requestCount, accounted.records, List.length_append,
    List.length_filterMap_eq_countP, List.countP_eq_length.mpr all, order.length_eq,
    List.length_range, MockEngine.requestCount]

/-- What becomes of requests that were submitted at the same time to an engine with these faults,
when all callers are resumed. -/
structure Delivers (engine : MockEngine) (error : EngineError) (drops errors : Nat)
    (requests : List Request) (times : List Instant) (final : Submissions) : Prop where
  callers : final.callers.map Caller.request = requests
  resumedOnce : ∀ caller ∈ final.callers, caller.heard.length = 1
  sees : ∀ caller ∈ final.callers,
    (caller.stage = .resumed .dropped ∧ ∀ {ρ : Type} (response : Codec ρ),
      caller.results response = [.error (.completionDropped caller.request.kind)]) ∨
    (caller.stage = .resumed .failed ∧ ∀ {ρ : Type} (response : Codec ρ),
      caller.results response = [.error (.engine error)]) ∨
    caller.stage = .resumed .answered ∧
      ∃ clock ∈ times, caller.heard = [.ofResult ({ engine with clock }.respond caller.request)]
  dropped : final.resumed .dropped = min drops requests.length
  failed : final.resumed .failed = min errors (requests.length - min drops requests.length)
  dropsLeft : final.shared.engine.dropCount = drops - min drops requests.length
  errorsLeft : final.shared.engine.injectedErrorCount =
    errors - min errors (requests.length - min drops requests.length)
  received : final.shared.received = engine.requestCount + requests.length
  requestCount : final.shared.engine.requestCount = engine.requestCount + requests.length
  order : final.order.Perm (List.range requests.length)
  records : final.shared.engine.requests =
    engine.requests ++ final.order.filterMap (requests[·]?.map .ofRequest)

theorem Accounted.delivers (accounted : submissions.Accounted engine requests times)
    {error : EngineError} (injected : engine.injectedError = some error)
    (finished : submissions.Finished) :
    submissions.Delivers engine error engine.dropCount engine.injectedErrorCount requests
      times := by
  have length : submissions.callers.length = requests.length := by
    rw [← accounted.callers, List.length_map]
  have parts := finished.length_eq
  have drops := accounted.drops
  have errors := accounted.errors
  rw [finished.countP_eq Stage.tookDrop .dropped fun other => by cases other <;> rfl] at drops
  rw [finished.countP_eq Stage.tookError .failed fun other => by cases other <;> rfl] at errors
  -- Unless all callers were dropped, one of them has found that no drop was left, and so on.
  have noDropFailed := accounted.dropCount_eq_zero .failed (by decide)
  have noDropAnswered := accounted.dropCount_eq_zero .answered (by decide)
  have noErrorAnswered := accounted.injectedErrorCount_eq_zero
  have dropped : submissions.resumed .dropped = min engine.dropCount requests.length := by omega
  have failed : submissions.resumed .failed = min engine.injectedErrorCount
      (requests.length - min engine.dropCount requests.length) := by omega
  have counted : submissions.callers.countP (·.stage.isCounted) = requests.length := by
    refine (List.countP_eq_length.mpr fun caller member => ?_).trans length
    obtain ⟨fate, stage⟩ := finished.fate member
    simp [stage]
  refine ⟨accounted.callers, ?once, ?sees, dropped, failed, by omega, by omega,
    counted ▸ accounted.received, accounted.requestCount_eq finished,
    accounted.order_perm finished, accounted.records⟩
  case once =>
    intro caller member
    obtain ⟨fate, stage⟩ := finished.fate member
    exact (accounted.hears caller member).once stage
  case sees =>
    intro caller member
    obtain ⟨fate, stage⟩ := finished.fate member
    have hears := accounted.hears caller member
    cases fate <;> simp only [Caller.Hears, stage] at hears
    · exact .inl ⟨stage, fun response => by rw [Caller.results, hears]; rfl⟩
    · obtain ⟨_, own, heard⟩ := hears
      obtain rfl := Option.some.inj (injected.symm.trans own)
      exact .inr (.inl ⟨stage, fun response => by rw [Caller.results, heard]; rfl⟩)
    · exact .inr (.inr ⟨stage, hears⟩)

end Submissions

namespace MockEngine

def submitAll : List Request → MockEngine → List (Option Answer) × MockEngine
  | [], engine => ([], engine)
  | request :: rest, engine =>
    let (answer, engine) := submit request engine
    let (answers, engine) := submitAll rest engine
    (answer :: answers, engine)

def faulty (engine : MockEngine) (error : EngineError) (requests : List RecordedRequest)
    (drops errors : Nat) : MockEngine :=
  { engine with
    requests
    dropCount := drops
    injectedError := some error
    injectedErrorCount := errors }

section Faulty

variable {engine : MockEngine} {error : EngineError} {recorded : List RecordedRequest}

theorem submit_of_drop (request : Request) (left errors : Nat) :
    submit request (engine.faulty error recorded (left + 1) errors) =
      (some { outcome := .dropped, elapsed := engine.delay },
        engine.faulty error (recorded ++ [.ofRequest request]) left errors) := rfl

theorem submit_of_error (request : Request) (left : Nat) :
    submit request (engine.faulty error recorded 0 (left + 1)) =
      (some { outcome := .failure error, elapsed := engine.delay },
        engine.faulty error (recorded ++ [.ofRequest request]) 0 left) := rfl

theorem submit_of_none (request : Request) :
    submit request (engine.faulty error recorded 0 0) =
      (some { outcome := .ofResult (engine.respond request), elapsed := engine.delay },
        engine.faulty error (recorded ++ [.ofRequest request]) 0 0) := by
  have settled : ((engine.faulty error recorded 0 0).record request).settle request = _ :=
    settle_of_none rfl rfl request
  rw [submit, settled]
  rfl

theorem submitAll_faulty (requests : List Request) (drops errors : Nat) :
    submitAll requests (engine.faulty error recorded drops errors) =
      (requests.mapIdx fun index request => some
        { outcome :=
            if index < drops then .dropped
            else if index < drops + errors then .failure error
            else .ofResult (engine.respond request)
          elapsed := engine.delay },
      engine.faulty error (recorded ++ requests.map .ofRequest)
        (drops - min drops requests.length)
        (errors - min errors (requests.length - min drops requests.length))) := by
  induction requests generalizing recorded drops errors with
  | nil => simp [submitAll]
  | cons request rest ih =>
    match drops, errors with
    | left + 1, errors =>
      simp only [submitAll, submit_of_drop, ih]
      simp [List.mapIdx_cons, Nat.add_right_comm left 1 errors]
    | 0, left + 1 =>
      simp only [submitAll, submit_of_error, ih]
      simp [List.mapIdx_cons]
    | 0, 0 =>
      simp only [submitAll, submit_of_none, ih]
      simp [List.mapIdx_cons]

end Faulty

end MockEngine

/-! One caller after the other. -/

namespace Submissions

/-- A schedule in which each caller is resumed before the next one submits its request. -/
def oneByOne (callers : List Nat) : List Turn :=
  callers.flatMap fun index => .replicate 7 (.caller index)

theorem run_replicate (steps : Nat) (submissions : Submissions) {index : Nat} {caller : Caller}
    (found : submissions.callers[index]? = some caller) :
    ∃ order, submissions.run (.replicate steps (.caller index)) =
      { shared := (caller.advanceAlone steps submissions.shared).2
        callers := submissions.callers.set index (caller.advanceAlone steps submissions.shared).1
        order } := by
  obtain ⟨bound, here⟩ := List.getElem?_eq_some_iff.mp found
  induction steps generalizing submissions caller with
  | zero =>
    subst here
    exact ⟨submissions.order, by simp [run, Caller.advanceAlone]⟩
  | succ steps ih =>
    have moved : submissions.step (.caller index) = submissions.move index caller := by
      simp only [step, found]
    have still : (submissions.move index caller).callers[index]? =
        some (caller.advance submissions.shared).1 := by
      simp [move, bound]
    obtain ⟨kept, there⟩ := List.getElem?_eq_some_iff.mp still
    obtain ⟨order, rest⟩ := ih (submissions.move index caller) still kept there
    refine ⟨order, ?_⟩
    rw [List.replicate_succ, run, List.foldl_cons, moved, ← run, rest]
    simp [move, Caller.advanceAlone]

/-- Callers that come one after the other are resumed with what their requests have as outcomes if
they are submitted one at a time. -/
theorem run_oneByOne (served : List Caller) (requests : List Request) (shared : SharedEngine)
    (order : List Nat) :
    ∃ callers order',
      run ⟨shared, served ++ requests.map ({ request := · }), order⟩
          (oneByOne (.range' served.length requests.length)) =
        ⟨⟨(MockEngine.submitAll requests shared.engine).2, shared.received + requests.length⟩,
          served ++ callers, order'⟩ ∧
      (∀ caller ∈ callers, caller.stage.isResumed = true) ∧
      callers.map Caller.heard = (MockEngine.submitAll requests shared.engine).1.map fun answer =>
        answer.toList.map Answer.outcome := by
  induction requests generalizing served shared order with
  | nil => exact ⟨[], order, by simp [oneByOne, run, MockEngine.submitAll]⟩
  | cons request rest ih =>
    obtain ⟨engine, received⟩ := shared
    obtain ⟨fate, outcome, next, submitted, alone⟩ :=
      Caller.advanceAlone_submit request engine received
    have found : (served ++ (request :: rest).map ({ request := · }))[served.length]? =
        some ({ request } : Caller) := by simp
    obtain ⟨order₁, first⟩ := run_replicate 7 ⟨⟨engine, received⟩, _, order⟩ found
    -- The first of the rest is resumed, and is one of those served before the others.
    obtain ⟨callers, order₂, later, resumed, heard⟩ := ih
      (served ++ [{ request, stage := .resumed fate, heard := [outcome] }])
      ⟨next, received + 1⟩ order₁
    refine ⟨{ request, stage := .resumed fate, heard := [outcome] } :: callers, order₂, ?_, ?_, ?_⟩
    · have split : oneByOne (.range' served.length (request :: rest).length) =
          .replicate 7 (.caller served.length) ++
            oneByOne (.range' (served.length + 1) rest.length) := by
        simp [oneByOne, List.range'_succ]
      rw [split, run_append, first, alone]
      simpa [MockEngine.submitAll, submitted, Nat.add_assoc, Nat.add_comm 1] using later
    · simpa using resumed
    · simp [MockEngine.submitAll, submitted, heard]

end Submissions

namespace MockEngine

/-- However requests that are submitted at the same time take turns, what is left of the injected
faults and what was taken from them add up to what was injected, and what is recorded first stays
first. Once all callers are resumed, each has been once: with a drop or an error as far as there
are such, and else with the answer to its own request. If each waits for the one before, the first
meet the drops and the next ones the errors. -/
theorem faults_delivered (engine : MockEngine) (code : EngineErrorCode) (drops errors : Nat)
    (requests : List Request) :
    let error : EngineError := ⟨code, "injected " ++ code.text⟩
    let faulty := (engine.dropCompletions drops).injectError code errors
    (∀ schedule : List Turn,
      let times := engine.clock :: schedule.filterMap Turn.time?
      let final := (Submissions.start faulty requests).run schedule
      final.Accounted faulty requests times ∧
      (∀ earlier later, schedule = earlier ++ later →
        ((Submissions.start faulty requests).run earlier).order <+: final.order) ∧
      (final.Finished → final.Delivers faulty error drops errors requests times)) ∧
    submitAll requests faulty =
      (requests.mapIdx fun index request => some
        { outcome :=
            if index < drops then .dropped
            else if index < drops + errors then .failure error
            else .ofResult (engine.respond request)
          elapsed := engine.delay },
      { faulty with
        requests := engine.requests ++ requests.map .ofRequest
        dropCount := drops - min drops requests.length
        injectedErrorCount :=
          errors - min errors (requests.length - min drops requests.length) }) ∧
    let final := (Submissions.start faulty requests).run
      (Submissions.oneByOne (.range requests.length))
    final.Finished ∧ final.shared.engine = (submitAll requests faulty).2 ∧
      final.callers.map Caller.heard =
        (submitAll requests faulty).1.map fun answer => answer.toList.map Answer.outcome := by
  intro error faulty
  refine ⟨fun schedule => ?_, submitAll_faulty requests drops errors, ?_⟩
  · intro times final
    have accounted : final.Accounted faulty requests times :=
      (Submissions.accounted_start faulty requests (.head _)).run rfl
        fun now shown => .tail _ (List.mem_filterMap.mpr ⟨_, shown, rfl⟩)
    refine ⟨accounted, ?_, accounted.delivers rfl⟩
    rintro earlier later rfl
    have whole : final = ((Submissions.start faulty requests).run earlier).run later :=
      Submissions.run_append _ earlier later
    exact whole ▸ Submissions.order_run _ later
  · obtain ⟨callers, order, ran, resumed, heard⟩ :=
      Submissions.run_oneByOne [] requests ⟨faulty, engine.requestCount⟩ []
    rw [List.length_nil, ← List.range_eq_range'] at ran
    intro final
    have state : final = _ := ran
    rw [state]
    exact ⟨resumed, rfl, heard⟩

theorem faults_delivered_race :
    let error : EngineError := ⟨.basicParse, "injected " ++ EngineErrorCode.basicParse.text⟩
    let faulty := (({} : MockEngine).dropCompletions 1).injectError .basicParse 1
    let requests : List Request := ["first", "second", "third"].map fun envelope =>
      { kind := "contractCall", envelope, signers := [], timeout := none }
    let schedule :=
      [0, 1, 2, 1, 0, 2, 0, 1, 2, 1, 0, 2, 0, 2, 2, 0, 0, 2, 2, 2, 1, 0].map Turn.caller
    let final := (Submissions.start faulty requests).run schedule
    final.callers.map Caller.stage = [.resumed .failed, .resumed .dropped, .resumed .answered] ∧
      final.order = [1, 0, 2] ∧
      final.Delivers faulty error 1 1 requests [({} : MockEngine).clock] := by
  intro error faulty requests schedule final
  have finished : final.Finished := by decide
  exact ⟨by decide, by decide,
    ((faults_delivered {} .basicParse 1 1 requests).1 schedule).2.2 finished⟩

end MockEngine

end LedgerClient
