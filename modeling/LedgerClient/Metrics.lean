import LedgerClient.Error

/-!
What a client reports about its calls: each execution with its duration and outcome, and each
operation that was rejected before it was sent. A registry turns the events into counters and
histograms.
-/

namespace LedgerClient

inductive ExecutionStatus where
  | success
  | engineError
  | decodeError
  | completionDropped
  deriving DecidableEq

def ExecutionStatus.label : ExecutionStatus → String
  | success => "success"
  | engineError => "engine_error"
  | decodeError => "decode_error"
  | completionDropped => "completion_dropped"

inductive MetricsEvent where
  | execution (kind : String) (elapsed : Duration) (status : ExecutionStatus)
  | rejection (kind : String) (code : ErrorCode)
  deriving DecidableEq

structure MetricsSeries where
  name : String
  labels : List (String × String)
  deriving DecidableEq

def Duration.toFloat (d : Duration) : Float :=
  d.seconds.toFloat + d.nanos.toUInt64.toFloat / 1e9

/-- Counters and histograms, in the order in which they were first used. -/
structure MetricsRegistry where
  counters : List (MetricsSeries × Nat) := []
  histograms : List (MetricsSeries × List Float) := []

namespace MetricsRegistry

/-- Changes the value of a series, which starts at `initial`. -/
def update {α : Type} (initial : α) (change : α → α) (series : MetricsSeries) :
    List (MetricsSeries × α) → List (MetricsSeries × α)
  | [] => [(series, change initial)]
  | (s, value) :: rest =>
    if s = series then (s, change value) :: rest else (s, value) :: update initial change series rest

def increment (registry : MetricsRegistry) (series : MetricsSeries) : MetricsRegistry :=
  { registry with counters := update 0 (· + 1) series registry.counters }

def observe (registry : MetricsRegistry) (series : MetricsSeries) (sample : Float) :
    MetricsRegistry :=
  { registry with histograms := update [] (· ++ [sample]) series registry.histograms }

def record (registry : MetricsRegistry) : MetricsEvent → MetricsRegistry
  | .execution kind elapsed status =>
    (registry.increment
      ⟨"hgraph_ledger_sdk_executions_total", [("kind", kind), ("status", status.label)]⟩).observe
      ⟨"hgraph_ledger_sdk_execution_duration_seconds", [("kind", kind)]⟩ elapsed.toFloat
  | .rejection kind code =>
    registry.increment
      ⟨"hgraph_ledger_sdk_local_rejections_total", [("kind", kind), ("code", code.text)]⟩

end MetricsRegistry

end LedgerClient
