import NamespaceOwnership.Clock
import NamespaceOwnership.Controller.Books
import NamespaceOwnership.Mapping
import NamespaceOwnership.Settings

/-!
# Reconciliation

`reconcile` maps one DynaKube and reports how that went on its status; `unmap` drops all claims of a name.
What fails is repeated later, except for a malformed selector, which only a new version of the DynaKube can
mend. `handleEvent` does this for one change of a DynaKube, `resync` for all DynaKubes there are and for
the owners that are no longer there, and `drain` for the work that is due.
-/
namespace NamespaceOwnership

open Number (Binary64)

structure Controller where
  mapper : Mapper
  /-- In seconds, as the other one. -/
  reconcileTimeout : Int
  resyncPeriod : Int

inductive MappingState where
  | mapped | conflict | invalidSelector | error
  deriving DecidableEq, Repr

def MappingState.name : MappingState → String
  | .mapped => "Mapped"
  | .conflict => "Conflict"
  | .invalidSelector => "InvalidSelector"
  | .error => "Error"

namespace Controller

def ofSettings (s : Settings) : Except Fault Controller := do
  let ledger ← Ledger.ofLimit s.updateRetryLimit
  return ⟨⟨ledger, s.operatorNamespace⟩, s.reconcileTimeout, s.resyncPeriod⟩

def later (now seconds : Int) : Attempt Int :=
  match Clock.later now seconds with
  | .ok time => pure time
  | .error fault => throw fault

def plus (now : Binary64) (seconds : Int) : Attempt Binary64 :=
  match Clock.plus now seconds with
  | .ok time => pure time
  | .error fault => throw fault

/-- Carries something out under the deadline for a single reconciliation. -/
def withDeadline {α : Type} (c : Controller) (body : Int → Attempt α) : Attempt α := do
  body (← later (← Session.clock) c.reconcileTimeout)

/-- A status that was already written is not written again. -/
def reportStatus (name : String) (state : MappingState) (message : String) : Control Unit := do
  if (← get).lastStatus.get? (.text name) = some (state.name, message) then return
  Control.attempt (DynaKubes.reportStatus (.text name) state.name message)
  modify fun b => { b with lastStatus := b.lastStatus.set (.text name) (state.name, message) }

/-- Measures how long something takes, whether it fails or not. -/
def timed {α : Type} (body : Control α) : Control α := do
  let started ← Session.clock
  let result ← body.outcome
  Session.note (.elapsed ((← Session.clock) - started))
  match result with
  | .ok a => return a
  | .error fault => throw fault

def repeatLater (name : Value) : Control Unit := do scheduleRetry name (Clock.seconds (← Session.clock))

/-- What follows a mapping that failed. -/
def failed (d : DynaKube) (fault : Fault) : Control Unit := do
  let name := d.name
  match fault with
  | .selector error =>
    Session.error (s!"DynaKube {name} has an invalid namespace selector: " ++ error.message)
    Session.count (.reconciles .invalid)
    reportStatus name .invalidSelector error.message
    clearRetry (.text name)
    observe (.text name) d.generation
  | .ownership _ =>
    Session.warning (s!"Ownership conflict while mapping dynakube {name}: " ++ fault.message)
    Session.count (.reconciles .conflict)
    reportStatus name .conflict fault.message
    repeatLater (.text name)
  | _ =>
    Session.error s!"Failed to map dynakube {name}"
    Session.count (.reconciles .error)
    reportStatus name .error fault.summary
    repeatLater (.text name)

/-- The result of the mapping, none if it failed. -/
def reconcile (c : Controller) (d : DynaKube) : Control (Option MappingResult) := do
  let mapped ← timed do
    match ← (Control.attempt (c.withDeadline fun t => c.mapper.map d (some t))).outcome with
    | .ok result => return some result
    | .error fault =>
      failed d fault
      return none
  let some result := mapped | return none
  Session.count (.reconciles .mapped)
  reportStatus d.name .mapped result.summary
  clearRetry (.text d.name)
  observe (.text d.name) d.generation
  return some result

/-- Drops every claim of a name; none if that failed. -/
def unmap (c : Controller) (name : Value) : Control (Option MappingResult) := do
  let unmapped ← timed do
    match ← (Control.attempt (c.withDeadline fun t => c.mapper.unmap name (some t))).outcome with
    | .ok result => return some result
    | .error _ =>
      Session.error ("Failed to unmap dynakube " ++ name.shown)
      Session.count (.reconciles .error)
      repeatLater name
      return none
  let some result := unmapped | return none
  Session.count (.reconciles .unmapped)
  clearRetry name
  forget name
  return some result

inductive Change where
  | added | modified | deleted
  deriving DecidableEq, Repr

def Change.name : Change → String
  | .added => "ADDED"
  | .modified => "MODIFIED"
  | .deleted => "DELETED"

def Change.ofName? (s : String) : Option Change :=
  [Change.added, .modified, .deleted].find? (·.name == s)

def fieldsOf (v : Value) : Control (List (String × Value)) := Control.attempt (DynaKubes.fieldsOf v)

/-- The generation was already mapped and nothing is to be repeated. -/
def upToDate (name : Value) (generation : Option Int) : Control Bool := do
  if generation = none then return false
  match ← Control.lookUp (·.observed) name with
  | none => return false
  | some seen => return seen = generation && !(← get).pending.contains name

/-- A DynaKube was added or modified. -/
def handleObject (c : Controller) (change : Change) (name object : Value) :
    Control (Option MappingResult) := do
  match DynaKube.ofObject object with
  | .error e =>
    if e.isInvalidValue then
      Session.warning (s!"Skipping {change.name} event for invalid DynaKube " ++ name.shown ++ ": " ++
        e.message)
      return none
    else throw (.object e)
  | .ok d =>
    if ← upToDate name d.generation then
      Session.debug (s!"Ignoring {change.name} event for dynakube " ++ name.shown ++
        " at already reconciled generation " ++ toString (d.generation.getD 0))
      return none
    c.reconcile d

/-- Events of another type and events without an object are ignored. -/
def handleEvent (c : Controller) (type : String) (object : Value) :
    Control (Option MappingResult) := do
  let some change := Change.ofName? type | return none
  let some entries := object.entries? | return none
  let metadata ← fieldsOf (Value.entry entries "metadata").orEmpty
  let name := Value.entry metadata "name"
  if !name.truthy then
    Session.warning s!"Skipping {change.name} event for DynaKube without a name"
    return none
  if change = .deleted then
    Session.info ("DynaKube " ++ name.shown ++ " deleted; releasing its namespaces")
    clearRetry name
    c.unmap name
  else c.handleObject change name object

/-- The owners on namespaces that are not among the known names, in ascending order. -/
def orphans (known : List String) (namespaces : List NamespaceRecord) : List String :=
  let owners := namespaces.flatMap fun r => (Labels.owners r.labels).map Prod.snd
  (owners.eraseDups.filter (!known.contains ·)).mergeSort fun a b => decide (a ≤ b)

def reconcileAll (c : Controller) : List DynaKube → Control Unit
  | [] => return
  | d :: rest => do
    let _ ← c.reconcile d
    c.reconcileAll rest

def unmapOrphans (c : Controller) : List String → Control Unit
  | [] => return
  | orphan :: rest => do
    Session.info s!"Releasing namespaces claimed by missing dynakube {orphan}"
    let _ ← c.unmap (.text orphan)
    c.unmapOrphans rest

def planResync (c : Controller) : Control Unit := do
  let next ← Control.attempt (plus (Clock.seconds (← Session.clock)) c.resyncPeriod)
  modify fun b => { b with nextResync := some next }

/-- Maps every DynaKube, drops the claims of those that are missing, and returns the version of the
listing. -/
def resync (c : Controller) : Control Value := do
  let (dynakubes, version) ← Control.attempt DynaKubes.list
  c.reconcileAll dynakubes
  let namespaces ← Control.attempt c.mapper.ledger.list
  c.unmapOrphans (orphans (dynakubes.map (·.name)) namespaces)
  c.planResync
  return version

/-- Repeats an attempt with the DynaKube as it is now. -/
def retry (c : Controller) (name : Value) : Control Unit := do
  match ← Control.attempt (DynaKubes.get? name) with
  | none => discard (c.unmap name)
  | some d => discard (c.reconcile d)

def retryAll (c : Controller) : List Value → Control Unit
  | [] => return
  | name :: rest => do
    Session.info ("Retrying reconciliation of dynakube " ++ name.shown)
    match ← (c.retry name).outcome with
    | .ok _ => pure ()
    | .error (.call (.refused _ _)) =>
      Session.error ("Failed to read dynakube " ++ name.shown ++ " for retry")
      repeatLater name
    | .error fault => throw fault
    c.retryAll rest

/-- Does the work that is due: repetitions, and now and then a full resync. -/
def drain (c : Controller) (now : Binary64) : Control Unit := do
  c.retryAll ((← get).due now)
  if (← get).nextResync.any (·.le now) then
    Session.info "Starting periodic resync of all dynakubes"
    match ← c.resync.outcome with
    | .ok _ => return
    | .error (.call (.refused _ _)) =>
      Session.error "Periodic resync failed"
      c.planResync
    | .error fault => throw fault

end Controller
end NamespaceOwnership
