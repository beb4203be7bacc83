import NamespaceOwnership.Feature

/-!
# Metrics

Counters only grow, gauges show the last value, and the histogram collects the duration of each
reconciliation in milliseconds. A metric that never moved reads zero.
-/
namespace NamespaceOwnership

/-- How one attempt on a DynaKube ended. -/
inductive ReconcileResult where
  | mapped | invalid | conflict | error | unmapped
  deriving DecidableEq, Repr

inductive ClaimOutcome where
  | accepted | reaffirmed
  deriving DecidableEq, Repr

inductive ReleaseReason where
  | stale | unmapped
  deriving DecidableEq, Repr

inductive Transition where
  | acquired | lost
  deriving DecidableEq, Repr

inductive Counter where
  | reconciles (result : ReconcileResult)
  | claims (feature : Feature) (outcome : ClaimOutcome)
  | releases (feature : Feature) (reason : ReleaseReason)
  | ownershipConflicts (feature : Feature)
  | versionConflictRetries
  | storeConflicts
  | watchErrors
  | watchReconnects
  | leaderTransitions (transition : Transition)
  deriving DecidableEq, Repr

namespace ReconcileResult

def all : List ReconcileResult := [.mapped, .invalid, .conflict, .error, .unmapped]

def name : ReconcileResult → String
  | .mapped => "mapped"
  | .invalid => "invalid"
  | .conflict => "conflict"
  | .error => "error"
  | .unmapped => "unmapped"

end ReconcileResult

def ClaimOutcome.name : ClaimOutcome → String
  | .accepted => "accepted"
  | .reaffirmed => "reaffirmed"

def ReleaseReason.name : ReleaseReason → String
  | .stale => "stale"
  | .unmapped => "unmapped"

def Transition.name : Transition → String
  | .acquired => "acquired"
  | .lost => "lost"

/-- Every counter, each once. -/
def Counter.all : List Counter :=
  ReconcileResult.all.map .reconciles ++
  Feature.all.flatMap (fun f => [.claims f .accepted, .claims f .reaffirmed]) ++
  Feature.all.flatMap (fun f => [.releases f .stale, .releases f .unmapped]) ++
  Feature.all.map .ownershipConflicts ++
  [.versionConflictRetries, .storeConflicts, .watchErrors, .watchReconnects,
   .leaderTransitions .acquired, .leaderTransitions .lost]

theorem Counter.mem_all (c : Counter) : c ∈ Counter.all := by
  cases c with
  | reconciles r => cases r <;> decide
  | claims f o => cases f <;> cases o <;> decide
  | releases f r => cases f <;> cases r <;> decide
  | ownershipConflicts f => cases f <;> decide
  | leaderTransitions t => cases t <;> decide
  | _ => decide

structure Metrics where
  counts : List (Counter × Nat)
  pendingRetries : Nat
  leading : Bool
  durations : List Int
  deriving Repr, Inhabited

namespace Metrics

def zero : Metrics := ⟨[], 0, false, []⟩

def count (m : Metrics) (c : Counter) : Nat := (m.counts.lookup c).getD 0

private def bump (c : Counter) : List (Counter × Nat) → List (Counter × Nat)
  | [] => [(c, 1)]
  | (d, n) :: rest => if d = c then (d, n + 1) :: rest else (d, n) :: bump c rest

def increment (m : Metrics) (c : Counter) : Metrics := { m with counts := bump c m.counts }

private theorem lookup_bump (c d : Counter) (counts : List (Counter × Nat)) :
    ((bump c counts).lookup d).getD 0 = (counts.lookup d).getD 0 + if d = c then 1 else 0 := by
  induction counts with
  | nil => by_cases h : d = c <;> simp [bump, TextMap.lookup_cons_ite, h]
  | cons e rest ih =>
    by_cases hc : e.1 = c
    · by_cases h : d = c <;> simp [bump, TextMap.lookup_cons_ite, hc, h]
    · by_cases h : d = e.1
      · simp [bump, TextMap.lookup_cons_ite, hc, h]
      · simp [bump, TextMap.lookup_cons_ite, hc, h, ih]

@[simp] theorem count_increment (m : Metrics) (c d : Counter) :
    (m.increment c).count d = m.count d + if d = c then 1 else 0 :=
  lookup_bump c d m.counts

@[simp] theorem count_zero (c : Counter) : zero.count c = 0 := rfl

def durationCount (m : Metrics) : Nat := m.durations.length

def durationSum (m : Metrics) : Int := m.durations.foldr (· + ·) 0

end Metrics
end NamespaceOwnership
