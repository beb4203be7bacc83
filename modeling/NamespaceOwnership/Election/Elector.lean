import NamespaceOwnership.Session.Basic
import NamespaceOwnership.Settings

/-!
# Holding a lease

Replicas elect a leader by writing their name into a lease. A replica creates the lease if there is none,
renews its own one, and takes over the lease of another replica once that one has not renewed it for the
duration that the lease states. A replica that lost a race against another one just fails in this cycle.
-/
namespace NamespaceOwnership

/-- Times in seconds. -/
structure Elector where
  lease : LeaseName
  identity : String
  leaseDuration : Int
  renewDeadline : Int
  retryPeriod : Int
  renewDeadline_lt : renewDeadline < leaseDuration
  retryPeriod_lt : retryPeriod < renewDeadline
  retryPeriod_nonneg : 0 ≤ retryPeriod

namespace Elector

def make (lease : LeaseName) (identity : String) (leaseDuration renewDeadline retryPeriod : Int) :
    Except Fault Elector :=
  if h : renewDeadline < leaseDuration ∧ retryPeriod < renewDeadline ∧ 0 ≤ retryPeriod then
    .ok ⟨lease, identity, leaseDuration, renewDeadline, retryPeriod, h.1, h.2.1, h.2.2⟩
  else
    .error (.invalid ("expected lease_duration_seconds > renew_deadline_seconds > " ++
      "retry_period_seconds >= 0"))

/-- The elector of a replica with the given settings and environment. -/
def ofSettings (s : Settings) (env : Environment) : Except Fault Elector :=
  make ⟨s.operatorNamespace, s.leaseName⟩ (Settings.electionIdentity env) s.leaseDuration
    s.renewDeadline s.retryPeriod

/-- The time for which a lease is valid after its renewal; none and zero stand for the own duration. -/
def validity (e : Elector) (spec : LeaseSpec) : Int :=
  match spec.duration with
  | none => e.leaseDuration
  | some d => if d = 0 then e.leaseDuration else d

/-- Another replica holds the lease and its time has not run out. -/
def heldByOther (e : Elector) (spec : Option LeaseSpec) (now : Int) : Bool :=
  match spec with
  | none => false
  | some s =>
    match s.holder, s.renewed with
    | some holder, some renewed =>
      holder != "" && holder != e.identity && decide (now - renewed < 1000 * e.validity s)
    | _, _ => false

private def reasonOf (reason : Option String) : String := reason.getD "None"

def create (e : Elector) (now : Int) : Attempt Bool := do
  let spec : LeaseSpec := ⟨some e.identity, some e.leaseDuration, some now, some now⟩
  match ← Session.call (.createLease e.lease spec) with
  | .ok _ =>
    Session.info s!"Created leader lease {e.lease.name}"
    return true
  | .error (.refused status reason) =>
    if status != some 409 then
      Session.warning (s!"Failed to create lease {e.lease.name}: " ++ reasonOf reason)
    return false
  | .error failure => throw (.call failure)

/-- What the lease states after this replica renewed it or took it over. -/
def renewal (e : Elector) (spec : Option LeaseSpec) (now : Int) : LeaseSpec :=
  let old := spec.getD ⟨none, none, none, none⟩
  let acquired := if old.holder = some e.identity then old.acquired.getD now else now
  ⟨some e.identity, some e.leaseDuration, some acquired, some now⟩

def claim (e : Elector) (lease : Lease) (now : Int) : Attempt Bool := do
  match ← Session.call (.replaceLease e.lease (e.renewal lease.spec now) lease.version) with
  | .ok _ => return true
  | .error (.refused status reason) =>
    if status != some 409 then
      Session.warning (s!"Failed to update lease {e.lease.name}: " ++ reasonOf reason)
    return false
  | .error failure => throw (.call failure)

/-- One cycle of the election: whether this replica holds the lease now. -/
def cycle (e : Elector) : Attempt Bool := do
  let now ← Attempt.wallTime
  match ← Session.call (.readLease e.lease) with
  | .ok lease => if e.heldByOther lease.spec now then return false else e.claim lease now
  | .error (.refused status reason) =>
    if status = some 404 then e.create now
    else
      Session.warning (s!"Failed to read lease {e.lease.name}: " ++ reasonOf reason)
      return false
  | .error failure => throw (.call failure)

/-- Clears the holder, so that another replica need not wait until the lease runs out. A failure is only
logged. -/
def release (e : Elector) : Session Unit := do
  match ← Session.call (.readLease e.lease) with
  | .error _ => failed
  | .ok lease =>
    match lease.spec with
    | none => return
    | some spec =>
      if spec.holder = some e.identity then
        match ← Session.call (.replaceLease e.lease { spec with holder := none } lease.version) with
        | .ok _ => Session.info s!"Released leader lease {e.lease.name}"
        | .error _ => failed
where
  failed : Session Unit := Session.warning s!"Failed to release leader lease {e.lease.name}"

end Elector
end NamespaceOwnership
