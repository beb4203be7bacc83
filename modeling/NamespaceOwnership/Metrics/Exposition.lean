import NamespaceOwnership.Clock
import NamespaceOwnership.Metrics.Basic
import NamespaceOwnership.Number.Shortest

/-!
# Metrics as text

`Metrics.lines` writes the text format that monitoring systems read: for each family a line of help, a line
with its type, and its samples. A family with labels has a sample only for labels that were used. The
histogram has cumulative buckets; seven and more digits before the point are written with an exponent.
-/
namespace NamespaceOwnership

open Number (Binary64)

def metricStem : String := "dynakube_mapper_"

/-- The family of a counter, without the common stem. -/
def Counter.family : Counter → String
  | .reconciles _ => "reconciles_total"
  | .claims _ _ => "claims_total"
  | .releases _ _ => "released_claims_total"
  | .ownershipConflicts _ => "ownership_conflicts_total"
  | .versionConflictRetries => "version_conflict_retries_total"
  | .storeConflicts => "store_conflicts_total"
  | .watchErrors => "watch_errors_total"
  | .watchReconnects => "watch_reconnects_total"
  | .leaderTransitions _ => "leader_transitions_total"

def Counter.labels : Counter → List (String × String)
  | .reconciles r => [("result", r.name)]
  | .claims f o => [("feature", f.name), ("outcome", o.name)]
  | .releases f r => [("feature", f.name), ("reason", r.name)]
  | .ownershipConflicts f => [("feature", f.name)]
  | .leaderTransitions t => [("transition", t.name)]
  | _ => []

private def labelled (labels : List (String × String)) : String :=
  if labels.isEmpty then ""
  else "\x7b" ++ ",".intercalate (labels.map fun l => l.1 ++ "=\"" ++ l.2 ++ "\"") ++ "\x7d"

/-- The name of a counter with its labels, without the common stem. -/
def Counter.series (c : Counter) : String := c.family ++ labelled c.labels

inductive FamilyKind where
  | counter | gauge | histogram

def FamilyKind.name : FamilyKind → String
  | .counter => "counter"
  | .gauge => "gauge"
  | .histogram => "histogram"

structure Family where
  name : String
  help : String
  kind : FamilyKind

def families : List Family :=
  [⟨"reconciles_total", "Total DynaKube reconciliations by result", .counter⟩,
   ⟨"reconcile_duration_seconds", "Seconds spent mapping or unmapping a single DynaKube",
    .histogram⟩,
   ⟨"claims_total", "Total namespace feature claims evaluated, by outcome", .counter⟩,
   ⟨"released_claims_total", "Total namespace feature claims released, by reason", .counter⟩,
   ⟨"ownership_conflicts_total",
    "Total claims rejected because another DynaKube owns the feature", .counter⟩,
   ⟨"version_conflict_retries_total",
    "Total namespace updates retried after an optimistic-concurrency conflict", .counter⟩,
   ⟨"store_conflicts_total",
    "Total namespace updates abandoned after exhausting the retry budget", .counter⟩,
   ⟨"pending_retries", "Current number of failed reconciliations waiting to be retried", .gauge⟩,
   ⟨"watch_errors_total", "Total Kubernetes watch errors", .counter⟩,
   ⟨"watch_reconnects_total", "Total watch stream reconnects after the initial connection",
    .counter⟩,
   ⟨"leader_transitions_total", "Total leadership state transitions", .counter⟩,
   ⟨"leader_state", "Whether this replica is currently leader (1=yes, 0=no)", .gauge⟩,
   ⟨"info", "Build information for the mapper controller", .gauge⟩]

def Family.header (f : Family) : List String :=
  let name := metricStem ++ f.name
  let kind := f.kind.name
  [s!"# HELP {name} {f.help}", s!"# TYPE {name} {kind}"]

/-- From a million on a positive number is written as one digit, the others after a point, and the
power of ten. -/
def sampleText (x : Binary64) : String :=
  let s := x.text.toList
  let whole := s.takeWhile (· != '.')
  let fraction := (s.dropWhile (· != '.')).drop 1
  if 6 < whole.length ∧ whole.length < s.length ∧ whole.head? ≠ some '-' then
    let mantissa := whole.take 1 ++ ['.'] ++ whole.drop 1 ++ fraction
    let shortened := (mantissa.reverse.dropWhile fun c => c == '0' || c == '.').reverse
    String.ofList shortened ++ "e+0" ++ toString (whole.length - 1)
  else String.ofList s

private def natural (n : Nat) : String := sampleText (Binary64.ofInt n)

private def seconds (milliseconds : Int) : Binary64 :=
  Binary64.ofRatio (milliseconds < 0) milliseconds.natAbs 1000

/-- Upper bounds of the buckets in milliseconds. -/
def bucketBounds : List Nat := [50, 100, 250, 500, 1000, 2500, 5000, 10000, 30000]

namespace Metrics

def bucketCount (m : Metrics) (bound : Nat) : Nat := m.durations.countP (· ≤ (bound : Int))

private def counterLines (m : Metrics) : List String :=
  (Counter.all.filter fun c => c.labels.isEmpty || 0 < m.count c).map fun c =>
    metricStem ++ c.series ++ " " ++ natural (m.count c)

private def histogramLines (m : Metrics) : List String :=
  let name := metricStem ++ "reconcile_duration_seconds"
  let bucket (bound : String) (n : Nat) :=
    name ++ "_bucket" ++ labelled [("le", bound)] ++ " " ++ natural n
  bucketBounds.map (fun b : Nat => bucket (sampleText (seconds b)) (m.bucketCount b)) ++
    [bucket "+Inf" m.durationCount, name ++ "_count " ++ natural m.durationCount,
     name ++ "_sum " ++ sampleText (seconds m.durationSum)]

private def gaugeLines (m : Metrics) : List String :=
  [metricStem ++ "pending_retries " ++ natural m.pendingRetries,
   metricStem ++ "leader_state " ++ natural (if m.leading then 1 else 0),
   metricStem ++ "info " ++ natural 1]

/-- All lines in ascending order. -/
def lines (m : Metrics) : List String :=
  (families.flatMap Family.header ++ m.counterLines ++ m.histogramLines ++ m.gaugeLines).mergeSort
    fun a b => decide (a ≤ b)

/-- The metrics that are not zero, named without the common stem; durations in milliseconds. -/
def readings (m : Metrics) : List (String × Int) :=
  let all := Counter.all.map (fun c => (c.series, (m.count c : Int))) ++
    [("pending_retries", (m.pendingRetries : Int)), ("leader_state", if m.leading then 1 else 0),
     ("reconcile_duration_seconds_count", (m.durationCount : Int)),
     ("reconcile_duration_ms_sum", Clock.shown m.durationSum), ("info", 1)]
  all.filter (·.2 != 0)

end Metrics
end NamespaceOwnership
