import NamespaceOwnership.Fault
import NamespaceOwnership.Text.Flag

/-!
# Settings

The settings come from environment variables, each with a default. Bounds are checked for every number,
and the three times of the leader election have to decrease strictly: the lease outlives the deadline
for its renewal, which is longer than the period between two attempts.
-/
namespace NamespaceOwnership

abbrev Environment := TextMap

structure Settings where
  operatorNamespace : String := "dynatrace"
  reconcileTimeout : Int := 30
  updateRetryLimit : Int := 5
  resyncPeriod : Int := 60
  requestTimeout : Int := 10
  healthPort : Int := 8080
  electionEnabled : Bool := true
  leaseName : String := "dynakube-mapper-leader"
  leaseDuration : Int := 15
  renewDeadline : Int := 10
  retryPeriod : Int := 2
  stopTimeout : Int := 45
  deriving DecidableEq, Repr, Inhabited

namespace Settings

/-- Bounds that a number has to keep, both included. -/
structure Bounds where
  least : Option Int := none
  greatest : Option Int := none

def readNumber (env : Environment) (name : String) (default : Int) (bounds : Bounds) :
    Except Fault Int := do
  let n ← match env.get? name with
    | none => pure default
    | some text =>
      match Number.readInteger text with
      | .ok n => pure n
      | .error _ => throw (.settings s!"{name} must be an integer")
  if bounds.least.any (n < ·) then
    let least := bounds.least.getD 0
    throw (.settings s!"{name} must be >= {least}, got: {n}")
  if bounds.greatest.any (· < n) then
    let greatest := bounds.greatest.getD 0
    throw (.settings s!"{name} must be <= {greatest}, got: {n}")
  return n

private def atLeast (n : Int) : Bounds := { least := some n }

private def between (m n : Int) : Bounds := { least := some m, greatest := some n }

def readName (env : Environment) (name default : String) : Except Fault String :=
  let text := Text.trim ((env.get? name).getD default).toList
  if text.isEmpty then .error (.settings s!"{name} must be a non-empty string")
  else .ok (String.ofList text)

def electionVariable (suffix : String) : String := "LEADER_ELECTION_" ++ suffix

private def smaller (a b : String) : Fault :=
  .settings (electionVariable a ++ " must be smaller than " ++ electionVariable b)

def read (env : Environment) : Except Fault Settings := do
  let operatorNamespace ← readName env "OPERATOR_NAMESPACE" "dynatrace"
  let leaseName ← readName env (electionVariable "LEASE_NAME") "dynakube-mapper-leader"
  let leaseDuration ← readNumber env (electionVariable "LEASE_DURATION_SECONDS") 15 (atLeast 1)
  let renewDeadline ← readNumber env (electionVariable "RENEW_DEADLINE_SECONDS") 10 (atLeast 1)
  let retryPeriod ← readNumber env (electionVariable "RETRY_PERIOD_SECONDS") 2 (atLeast 1)
  if leaseDuration ≤ renewDeadline then
    throw (smaller "RENEW_DEADLINE_SECONDS" "LEASE_DURATION_SECONDS")
  if renewDeadline ≤ retryPeriod then
    throw (smaller "RETRY_PERIOD_SECONDS" "RENEW_DEADLINE_SECONDS")
  let reconcileTimeout ← readNumber env "RECONCILE_TIMEOUT_SECONDS" 30 (atLeast 1)
  let updateRetryLimit ← readNumber env "UPDATE_RETRY_LIMIT" 5 (between 1 50)
  let resyncPeriod ← readNumber env "RESYNC_PERIOD_SECONDS" 60 (atLeast 5)
  let requestTimeout ← readNumber env "REQUEST_TIMEOUT_SECONDS" 10 (atLeast 1)
  let healthPort ← readNumber env "HEALTH_PORT" 8080 (between 1 65535)
  let stopTimeout ←
    readNumber env (electionVariable "CONTROLLER_STOP_TIMEOUT_SECONDS") 45 (atLeast 1)
  return { operatorNamespace, reconcileTimeout, updateRetryLimit, resyncPeriod, requestTimeout,
           healthPort, electionEnabled := Text.readFlag (env.get? (electionVariable "ENABLED")) true,
           leaseName, leaseDuration, renewDeadline, retryPeriod, stopTimeout }

/-- The name of this replica in the lease where the election does not set one. -/
def defaultIdentity (env : Environment) : String :=
  (env.get? "HOSTNAME").getD ((env.get? "POD_NAME").getD "unknown")

def electionIdentity (env : Environment) : String :=
  (env.get? (electionVariable "IDENTITY")).getD (defaultIdentity env)

end Settings
end NamespaceOwnership
