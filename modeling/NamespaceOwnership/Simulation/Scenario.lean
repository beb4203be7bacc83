import NamespaceOwnership.Controller.Loop
import NamespaceOwnership.Probe
import NamespaceOwnership.Simulation.Server

/-!
# Scenarios

A scenario takes one controller through a list of steps in a simulated cluster. Each step ends with a result
or a fault, and leaves a state that the next one starts from.
-/
namespace NamespaceOwnership.Simulation

/-- What is mapped or unmapped: a raw object, a bare name, or once more what was taken before. -/
inductive Subject where
  | object (object : Value)
  | name (name : Value)
  | again

/-- A DynaKube, or a name without features that need not be a text. -/
inductive Target where
  | dynakube (d : DynaKube)
  | name (name : Value)

inductive Step where
  | world (mutations : List Mutation)
  | getNamespace (name : String)
  | listNamespaces (labelSelector : Option String)
  | updateNamespace (name : String) (patch : NamespacePatch)
  | getDynaKube (name : Value)
  | listDynaKubes
  | reportStatus (name : Value) (state message : String)
  | readOwners (space : String)
  | write (space : String) (features : List Feature) (owner : String) (guarded rejecting : Bool)
      (deadline : Option Int)
  | remove (space : String) (feature : Feature) (owner : Option String) (deadline : Option Int)
  | map (subject : Subject) (deadline : Option Int)
  | unmap (subject : Subject) (deadline : Option Int)
  | reconcile (object : Value)
  | event (type object : Value)
  | release (name : Value)
  | resync
  | drain
  | scheduleRetry (name : Value)
  | watchTimeout
  | requestStop
  | probe (path : String) (leader : Option Bool)
  | run (play : Play)

inductive Outcome where
  | nothing
  | record (r : NamespaceRecord)
  | records (rs : List NamespaceRecord)
  | dynakube (d : Option DynaKube)
  | listing (ds : List DynaKube) (version : Value)
  | owners (os : List (Feature × String))
  | written (changed : Except Fault Bool) (seen : List (Feature × Option String × Labels))
  | removed (changed : Bool)
  | mapping (r : Option MappingResult)
  | version (v : Value)
  | seconds (n : Nat)
  | probe (r : ProbeReply)
  | ran (failure : Option Fault) (waits : List Int) (stopped : Bool) (unplayed : Nat)

/-- The books with their times as points of time. -/
structure ShownBooks where
  observed : NameTable (Option Int)
  pending : NameTable Int
  attempts : NameTable Nat
  lastStatus : NameTable (String × String)
  nextResync : Option Int
  ready : Bool

/-- A controller in its cluster. -/
structure Scene where
  controller : Controller
  world : World
  held : Books := {}
  last : Option Target := none

structure StepReport where
  result : Except Fault Outcome
  calls : List Recorded
  logs : List (LogLevel × String)

namespace Scene

def ofSettings (s : Settings) : Except Fault Scene := do
  let connection ← Connection.ofSettings s
  let controller ← Controller.ofSettings s
  return { controller, world := { connection } }

/-- A point of time that cannot be shown. -/
def farTime : Int := Nat.pow 2 2000

/-- The point of time with a number of seconds. -/
def pointOf (seconds : Number.Binary64) : Int := (Clock.ofSeconds? seconds).getD farTime

def books (s : Scene) : ShownBooks :=
  { observed := s.held.observed
    pending := ⟨s.held.pending.entries.map fun e => (e.1, pointOf e.2)⟩
    attempts := s.held.attempts
    lastStatus := s.held.lastStatus
    nextResync := s.held.nextResync.map pointOf
    ready := s.held.ready }

/-- Plays a part of the controller in the present state. -/
def play {α : Type} (s : Scene) (body : Control α) : Except Fault α × Scene :=
  let ((result, held), world) := (body.run s.held).run World.surroundings s.world
  (result, { s with held, world })

def attempt {α : Type} (s : Scene) (body : Attempt α) : Except Fault α × Scene :=
  s.play (Control.attempt body)

def reading (s : Scene) : Number.Binary64 := Clock.seconds (Clock.reading s.world.now)

def done (s : Scene) : Except Fault Outcome × Scene := (.ok .nothing, s)

/-- Objects to a claim that somebody else holds already. -/
def refuseTaken (space owner : String) : Ledger.Guard Unit := fun f present _ => do
  if let some other := present then
    if other ≠ owner then throw (.ownership ⟨space, f, other, owner⟩)

def acceptAll : Ledger.Guard Unit := fun _ _ _ => return

def write (s : Scene) (space : String) (features : List Feature) (owner : String)
    (guarded rejecting : Bool) (deadline : Option Int) : Except Fault Outcome × Scene :=
  let guard := if rejecting then some (refuseTaken space owner)
    else if guarded then some acceptAll else none
  let s := { s with world := { s.world with examined := [] } }
  let (result, s) :=
    s.attempt ((s.controller.mapper.ledger.write space features owner guard deadline).run' ())
  (.ok (.written result s.world.examined.reverse), s)

def targetOf (s : Scene) : Subject → Except Fault (Option Target)
  | .object object =>
    (DynaKube.ofObject object).mapError .object |>.map fun d => some (.dynakube d)
  | .name (.text name) => .ok (some (.dynakube ⟨name, .null, [], none⟩))
  | .name name => .ok (some (.name name))
  | .again => .ok s.last

/-- A name that is no text has no features and holds no claims, so there is nothing to be done. -/
def mapTarget (m : Mapper) (deadline : Option Int) : Target → Attempt MappingResult
  | .dynakube d => m.map d deadline
  | .name name => do
    let _ ← m.ledger.list
    let result : MappingResult := ⟨name, [], [], []⟩
    Session.info ("Mapped dynakube " ++ name.shown ++ ": " ++ result.summary)
    return result

def unmapTarget (m : Mapper) (deadline : Option Int) : Target → Attempt MappingResult
  | .dynakube d => m.unmap (.text d.name) deadline
  | .name name => m.unmap name deadline

def mapping (s : Scene) (subject : Subject) (body : Target → Attempt MappingResult) :
    Except Fault Outcome × Scene :=
  match s.targetOf subject with
  | .error fault => (.error fault, s)
  | .ok none => s.done
  | .ok (some target) =>
    let (result, s) := { s with last := some target }.attempt (body target)
    (result.map fun r => .mapping (some r), s)

/-- An event whose type is no text is ignored, as far as its type can be looked up at all. -/
def event (s : Scene) (type object : Value) : Except Fault (Option MappingResult) × Scene :=
  match type with
  | .text name => s.play (s.controller.handleEvent name object)
  | _ => (if type.isScalar then .ok none else .error (.object (.noName type.kindName)), s)

/-- Enough steps for a loop to come to its end, since every step uses up an item of a stream or a hook, or
waits. -/
def patience : Nat := 1000000

def run (s : Scene) (play : Play) : Except Fault Outcome × Scene :=
  let (result, s) := { s with world := s.world.beginPlay play }.play (s.controller.runFor patience)
  let w := s.world
  let failure := match result with
    | .ok _ => none
    | .error fault => some fault
  (.ok (.ran failure w.waits.reverse w.stopSignal w.play.rounds.length), s)

def step (s : Scene) : Step → Except Fault Outcome × Scene
  | .world mutations => { s with world := s.world.applyAll mutations }.done
  | .getNamespace name => lift .record (s.attempt (Namespaces.get name))
  | .listNamespaces selector => lift .records (s.attempt (Namespaces.list selector))
  | .updateNamespace name patch => lift .record (s.attempt (Namespaces.update name patch))
  | .getDynaKube name => lift .dynakube (s.attempt (DynaKubes.get? name))
  | .listDynaKubes => lift (fun l => .listing l.1 l.2) (s.attempt DynaKubes.list)
  | .reportStatus name state message =>
    lift (fun _ => .nothing) (s.attempt (DynaKubes.reportStatus name state message))
  | .readOwners space => lift .owners (s.attempt (s.controller.mapper.ledger.read space))
  | .write space features owner guarded rejecting deadline =>
    s.write space features owner guarded rejecting deadline
  | .remove space feature owner deadline =>
    lift .removed (s.attempt (s.controller.mapper.ledger.remove space feature owner deadline))
  | .map subject deadline => s.mapping subject (mapTarget s.controller.mapper deadline)
  | .unmap subject deadline => s.mapping subject (unmapTarget s.controller.mapper deadline)
  | .reconcile object =>
    match DynaKube.ofObject object with
    | .error e => (.error (.object e), s)
    | .ok d => lift .mapping (s.play (s.controller.reconcile d))
  | .event type object => lift .mapping (s.event type object)
  | .release name => lift .mapping (s.play (s.controller.unmap name))
  | .resync => lift .version (s.play s.controller.resync)
  | .drain => lift (fun _ => .nothing) (s.play (s.controller.drain s.reading))
  | .scheduleRetry name =>
    lift (fun _ => .nothing) (s.play (Controller.scheduleRetry name s.reading))
  | .watchTimeout => ((s.held.watchTimeout s.reading).map .seconds, s)
  | .requestStop => { s with world := s.world.requestStop }.done
  | .probe path leader =>
    let (reply, lines) := Probe.serve s.held.ready leader s.world.metrics path
    lift (fun _ => .probe reply) (s.play (lines.forM fun line => (Session.debug line : Control Unit)))
  | .run play => s.run play
where
  lift {α : Type} (f : α → Outcome) (r : Except Fault α × Scene) : Except Fault Outcome × Scene :=
    (r.1.map f, r.2)

/-- A step with the calls and log lines that it makes. -/
def report (s : Scene) (step : Step) : StepReport × Scene :=
  let fresh := { s with world := { s.world with calls := [], logs := [] } }
  let (result, s) := fresh.step step
  (⟨result, s.world.calls.reverse, s.world.logs.reverse⟩, s)

end Scene
end NamespaceOwnership.Simulation
