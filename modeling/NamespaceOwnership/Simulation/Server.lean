import NamespaceOwnership.Clock
import NamespaceOwnership.Simulation.World

/-!
# The simulated cluster at work

Every call is recorded, takes its time, and passes the hooks before it takes effect. The simulated API keeps
the promises of a real one: each change of a namespace or lease gives it a fresh version, and a write that
pins another version than the present one is refused and changes nothing.
-/
namespace NamespaceOwnership.Simulation

namespace Hook

/-- What the first hook does that is ready for a call, and the hooks as they are from then on. A hook that
still has calls to skip counts this one; a hook that is used up stays without effect. -/
def trigger (kind : String) (subject : Value) :
    List Hook → Option (List Mutation × Option CallFailure) × List Hook
  | [] => (none, [])
  | .mk k s skip times mutations failure :: rest =>
    let passed (skip : Int) :=
      let (effect, others) := trigger kind subject rest
      (effect, .mk k s skip times mutations failure :: others)
    if k != kind || s.any (fun name => name != subject && !name.sameName subject) then passed skip
    else if 0 < skip then passed (skip - 1)
    else if times ≤ 0 then passed skip
    else (some (mutations, failure), .mk k s skip (times - 1) mutations failure :: rest)

end Hook

namespace World

def notFound : CallFailure := .refused (some 404) (some "Not Found")

def conflict : CallFailure := .refused (some 409) (some "Conflict")

/-- Why a lease has a time without a date. -/
def undated? (spec : Option LeaseSpec) : Option CalendarError := do
  let spec ← spec
  (spec.acquired.toList ++ spec.renewed.toList).findSome? fun t =>
    Calendar.error? 1000 epoch (t - epoch)

def record (w : World) (r : Recorded) : World := { w with calls := r :: w.calls }

def patchNamespace (w : World) (name : String) (patch : NamespacePatch) :
    Except CallFailure (Option NamespaceObject) × World :=
  match w.namespace? (some name) with
  | none => (.error notFound, w)
  | some n =>
    if patch.pinned.any fun v => n.version != some v then (.error conflict, w)
    else
      let (version, w) := w.bump
      let changed := { n with labels := some patch.labels, annotations := some patch.annotations,
                              version := some version }
      (.ok changed.object, w.putNamespace changed)

def putLease (w : World) (spec : LeaseSpec) : World :=
  let (version, w) := w.bump
  { w with lease := some ⟨some spec, none, version⟩ }

def createLease (w : World) (spec : LeaseSpec) : Except CallFailure Unit × World :=
  if w.lease.isSome then (.error conflict, w) else (.ok (), w.putLease spec)

def replaceLease (w : World) (spec : LeaseSpec) (version : String) :
    Except CallFailure Unit × World :=
  match w.lease with
  | none => (.error notFound, w)
  | some l => if l.version = version then (.ok (), w.putLease spec) else (.error conflict, w)

/-- The next stream; without another one the loop is told to stop. -/
def nextRound (w : World) : World :=
  match w.play.rounds with
  | [] => { w with stopSignal := true, stream := [] }
  | round :: rest => { w with play := { w.play with rounds := rest }, stream := round }

def listingObject (w : World) : Value :=
  .fields [("metadata", .fields [("resourceVersion", w.listVersion)]),
    ("items", .list (w.dynakubes.entries.map Prod.snd))]

/-- The effect of a call that passed the hooks. -/
def perform (w : World) : (c : ApiCall) → Except CallFailure c.Reply × World
  | .readNamespace name =>
    (match w.namespace? (some name) with
     | some n => .ok n.object
     | none => .error notFound, w)
  | .listNamespaces _ => (.ok (w.namespaces.map StoredNamespace.object), w)
  | .patchNamespace name patch => w.patchNamespace name patch
  | .getDynaKube name =>
    (if name.isScalar then
       match w.dynakubes.get? name with
       | some object => .ok object
       | none => .error notFound
     else .error (.noName name.kindName), w)
  | .listDynaKubes => (.ok (w.listing.getD w.listingObject), w)
  | .patchStatus name _ =>
    (if !name.isScalar then .error (.noName name.kindName)
     else if w.dynakubes.contains name then .ok ()
     else .error notFound, w)
  | .openWatch _ _ => (.ok (), w.nextRound)
  | .readLease _ =>
    (match w.lease with
     | some l =>
       match undated? l.spec with
       | none => .ok ⟨l.spec, l.version⟩
       | some error => .error (.undated error)
     | none => .error notFound, w)
  | .createLease _ spec => w.createLease spec
  | .replaceLease _ spec version => w.replaceLease spec version

def opensWatch : ApiCall → Bool
  | .openWatch _ _ => true
  | _ => false

def call (w : World) (c : ApiCall) : Except CallFailure c.Reply × World :=
  let w := (w.record (.call c))
  let w := { w with now := w.now + w.tick, watching := w.watching || opensWatch c }
  match Hook.trigger c.kind (c.subject w.connection) w.hooks with
  | (none, hooks) => ({ w with hooks }).perform c
  | (some (mutations, failure), hooks) =>
    let w := ({ w with hooks }).applyAll mutations
    match failure with
    | some failure => (.error failure, w)
    | none => w.perform c

/-- Goes on in the present stream to its next event, its end or its failure. -/
def nextEvent (w : World) : List RoundItem → WatchStep × World
  | [] => (.ended, { w with stream := [] })
  | .event event :: rest => (.event event, { w with stream := rest })
  | .fail failure :: _ => (.failed failure, { w with stream := [] })
  | .mutate mutations :: rest => (w.applyAll mutations).nextEvent rest

def pause (w : World) (milliseconds : Int) : World :=
  let made := w.waits.length
  let w := { w with waits := milliseconds :: w.waits, now := w.now + milliseconds }
  let w := w.applyAll (w.play.onWait[made]?.getD [])
  if w.play.maxWaits ≤ made + 1 then { w with stopSignal := true } else w

def closeWatch (w : World) : World := { w.record .watchStopped with watching := false, stream := [] }

def lead (w : World) (l : Leading) : World :=
  { w with leadership := (l, w.now) :: w.leadership,
           stopSignal := w.stopSignal || (l == .started && w.play.stopOnStart) }

def answer : (r : Request) → World → r.Answer × World
  | .api c, w => w.call c
  | .nextEvent, w => w.nextEvent w.stream
  | .closeWatch, w => ((), w.closeWatch)
  | .clock, w => (Clock.reading w.now, w)
  | .wallTime, w =>
    (match Calendar.error? 1000 epoch w.now with
     | none => .ok (epoch + w.now)
     | some error => .error error, w)
  | .pause milliseconds, w => ((), w.pause milliseconds)
  | .jitter, w => (w.play.jitter, w)
  | .stopRequested, w => (w.stopSignal || w.stopRequested, w)
  | .withdrawStop, w => ((), { w with stopRequested := false })
  | .startedLeading, w => ((), w.lead .started)
  | .stoppedLeading, w => ((), w.lead .stopped)

def hear (note : Note) (w : World) : World :=
  let w := { w with metrics := w.metrics.hear note }
  match note with
  | .log level text => { w with logs := (level, text) :: w.logs }
  | .examined f owner labels => { w with examined := (f, owner, labels) :: w.examined }
  | _ => w

def surroundings : Session.Surroundings World := ⟨answer, hear⟩

/-- Begins a loop with fresh streams and waits. -/
def beginPlay (w : World) (play : Play) : World :=
  { w with play, stopSignal := play.stopped, stream := [], waits := [], leadership := [] }

end World
end NamespaceOwnership.Simulation
