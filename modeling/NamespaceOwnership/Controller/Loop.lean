import NamespaceOwnership.Controller.Reconciliation

/-!
# The control loop

The loop begins with a resync, which is repeated with growing delays until it succeeds, and then follows
the changes of DynaKubes from the version of that listing on. A stream that expired is opened again after
another resync. Due work is done before a stream is opened and after each event. Status 401 and 403 mean
that access is denied for good and end the loop; other failures are logged, and the loop goes on after a
delay.

The loop itself has no last step, so it is given as a `Phase` and the step to the next one.
-/
namespace NamespaceOwnership.Controller

/-- A place in the loop. Delays are in seconds. -/
inductive Phase where
  /-- Before the first resync. -/
  | starting (delay : Nat)
  /-- Between two streams. -/
  | opening (version : Value) (delay streams : Nat)
  /-- Inside a stream. -/
  | following (version : Value) (delay streams : Nat)
  | ended
  deriving Repr

def firstDelay : Nat := 1

def nextDelay (delay : Nat) : Nat := min (2 * delay) 30

/-- Waits for half the delay and up to as long again. -/
def pause (delay : Nat) : Control Unit := do
  let jitter ← Session.request .jitter
  Session.request (.pause (delay * (500 + jitter)))

def setReady (ready : Bool) : Control Unit := modify fun b => { b with ready }

/-- The status of a refusal after which access is denied for good. -/
def denied? (fault : Fault) : Option Int := fault.status?.filter fun s => s == 401 || s == 403

def accessHint : String := "Check controller RBAC and service account permissions."

/-- Access is denied for good. -/
def deny (action : String) (status : Int) : Control Unit := do
  Session.error (s!"Kubernetes API {action} (status={status}). " ++ accessHint)

def stepStarting (c : Controller) (delay : Nat) : Control Phase := do
  if ← Session.request .stopRequested then return .opening .null firstDelay 0
  match ← c.resync.outcome with
  | .ok version =>
    setReady true
    Session.info ("Starting DynaKube watch from resourceVersion " ++ version.shown)
    return .opening version firstDelay 0
  | .error fault =>
    if let some status := denied? fault then
      deny "access denied during initial resync" status
      setReady false
      return .ended
    Session.error (if fault.isRefusal then "Initial DynaKube resync failed"
      else "Unexpected error during initial DynaKube resync")
    Session.count .watchErrors
    pause delay
    return .starting (nextDelay delay)

/-- A stream expired: the loop goes on from a fresh listing, or from none if that fails too. -/
def recoverExpired (c : Controller) (delay streams : Nat) : Control Phase := do
  Session.warning "DynaKube watch resource version expired, resyncing"
  match ← c.resync.outcome with
  | .ok version => return .opening version delay streams
  | .error fault =>
    if !fault.isRefusal then throw fault
    if let some status := denied? fault then
      deny "access denied during resync" status
      setReady false
      return .ended
    Session.error "Failed to resync after 410"
    Session.count .watchErrors
    return .opening .null delay streams

/-- What follows a failure of a stream, or of the work between its events. -/
def recover (c : Controller) (fault : Fault) (version : Value) (delay streams : Nat) :
    Control Phase := do
  if fault.status? = some 410 then return ← c.recoverExpired delay streams
  if let some status := denied? fault then
    deny "watch denied" status
    Session.count .watchErrors
    setReady false
    return .ended
  Session.error (if fault.isRefusal then "Kubernetes API watch error" else "Unexpected watch error")
  Session.count .watchErrors
  pause delay
  return .opening version (nextDelay delay) streams

/-- Closes the stream behind something, whether it fails or not. -/
def closing {α : Type} (body : Control α) : Control α := do
  let result ← body.outcome
  Session.request .closeWatch
  match result with
  | .ok a => return a
  | .error fault => throw fault

/-- Opens a stream that lasts until something is due. -/
def openStream (c : Controller) (version : Value) (delay streams : Nat) : Control Phase := do
  match (← get).watchTimeout (Clock.seconds (← Session.clock)) with
  | .error fault => closing (c.recover fault version delay streams)
  | .ok timeout =>
    match ← Session.call (.openWatch version timeout) with
    | .ok _ => return .following version delay streams
    | .error failure => closing (c.recover (.call failure) version delay streams)

def stepOpening (c : Controller) (version : Value) (delay streams : Nat) : Control Phase := do
  if ← Session.request .stopRequested then
    setReady false
    return .ended
  c.drain (Clock.seconds (← Session.clock))
  if 0 < streams then Session.count .watchReconnects
  c.openStream version delay (streams + 1)

/-- The version to go on from after an event: that of its object, where it has one. -/
def versionAfter (version event : Value) : Except Fault (Value × String × Value) := do
  let entries ← fieldsOf event
  let object := Value.entry entries "object"
  let type := ((entries.lookup "type").getD (.text "")).shown
  match object with
  | .fields inner =>
    let metadata ← fieldsOf (Value.entry inner "metadata").orEmpty
    let next := Value.entry metadata "resourceVersion"
    return (if next.truthy then next else version, type, object)
  | _ => return (version, type, object)
where
  fieldsOf (v : Value) : Except Fault (List (String × Value)) :=
    (DynaKube.fieldsOf v).mapError .object

def stepFollowing (c : Controller) (version : Value) (delay streams : Nat) : Control Phase := do
  match ← Session.request .nextEvent with
  | .failed failure => closing (c.recover (.call failure) version delay streams)
  | .ended => closing (return .opening version firstDelay streams)
  | .event event =>
    if ← Session.request .stopRequested then
      return ← closing (return .opening version firstDelay streams)
    match versionAfter version event with
    | .error fault => closing (c.recover fault version delay streams)
    | .ok (next, type, object) =>
      let work : Control Unit := do
        let _ ← c.handleEvent type object
        c.drain (Clock.seconds (← Session.clock))
      match ← work.outcome with
      | .ok _ => return .following next delay streams
      | .error fault => closing (c.recover fault next delay streams)

def step (c : Controller) : Phase → Control Phase
  | .starting delay => c.stepStarting delay
  | .opening version delay streams => c.stepOpening version delay streams
  | .following version delay streams => c.stepFollowing version delay streams
  | .ended => return .ended

/-- So many steps of the loop from a phase on. -/
def steps (c : Controller) : Nat → Phase → Control Phase
  | 0, phase => return phase
  | _ + 1, .ended => return .ended
  | n + 1, phase => do c.steps n (← c.step phase)

/-- The loop from its beginning, cut off after so many steps. -/
def runFor (c : Controller) (n : Nat) : Control Phase := do
  Session.request .withdrawStop
  c.steps n (.starting firstDelay)

end NamespaceOwnership.Controller
