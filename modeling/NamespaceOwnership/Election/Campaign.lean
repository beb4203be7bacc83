import NamespaceOwnership.Election.Elector
import NamespaceOwnership.Number.Rounding

/-!
# Campaigning for leadership

A replica tries for the lease again and again, with a fixed period between the attempts, until it is asked
to stop. It becomes leader with the first success and stays leader through failures until the deadline for
a renewal has passed since the last success. In the end a leader gives up the lease.
-/
namespace NamespaceOwnership.Elector

/-- Where a replica stands: whether it leads, and when it last held the lease. -/
structure Standing where
  leading : Bool
  renewed : Int
  deriving DecidableEq, Repr

def transition (leading : Bool) : Session Unit := do
  Session.note (.leading leading)
  Session.count (.leaderTransitions (if leading then .acquired else .lost))

/-- A cycle that fails counts as one without the lease. -/
def holdsLease (e : Elector) : Session Bool := do
  match ← e.cycle.run with
  | .ok held => return held
  | .error _ =>
    Session.error "Unexpected error in leader election cycle"
    return false

/-- What follows a cycle that held the lease. -/
def afterSuccess (e : Elector) (s : Standing) : Session Standing := do
  let now ← Session.clock
  if !s.leading then
    Session.info s!"Became leader (identity={e.identity})"
    transition true
    Session.request .startedLeading
  return ⟨true, now⟩

/-- What follows a cycle without the lease. -/
def afterFailure (e : Elector) (s : Standing) : Session Standing := do
  if !s.leading then return s
  let elapsed := (← Session.clock) - s.renewed
  let text := Number.hundredths elapsed
  if 1000 * e.renewDeadline ≤ elapsed then
    Session.warning s!"Lost leader lease after {text}s without successful renewal"
    transition false
    Session.request .stoppedLeading
    return { s with leading := false }
  else
    Session.warning (s!"Lease renewal failed; keeping leadership for up to {e.renewDeadline}s " ++
      s!"(elapsed {text}s)")
    return s

def campaignStep (e : Elector) (s : Standing) : Session Standing := do
  let next ← if ← e.holdsLease then e.afterSuccess s else e.afterFailure s
  Session.request (.pause (1000 * e.retryPeriod))
  return next

def resign (e : Elector) (s : Standing) : Session Unit := do
  if s.leading then
    e.release
    transition false
    Session.request .stoppedLeading

/-- The campaign from a standing on, cut off after so many cycles: the standing at the end if a stop was
requested by then. -/
def campaignFrom (e : Elector) : Nat → Standing → Session (Option Standing)
  | 0, _ => return none
  | n + 1, s => do
    if ← Session.request .stopRequested then
      e.resign s
      return some { s with leading := false }
    e.campaignFrom n (← e.campaignStep s)

/-- A campaign, which may begin while the replica leads. -/
def campaignFor (e : Elector) (n : Nat) (leading : Bool) : Session (Option Standing) := do
  Session.info s!"Starting leader election for lease {e.lease.name} (identity={e.identity})"
  Session.note (.leading false)
  e.campaignFrom n ⟨leading, ← Session.clock⟩

end NamespaceOwnership.Elector
