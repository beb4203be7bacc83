import NamespaceOwnership.Cluster.Wire
import NamespaceOwnership.NameTable
import NamespaceOwnership.Session.Basic

/-!
# A simulated cluster

A `World` holds what the API server of a small cluster would hold, together with a clock and with what
observers have seen. A `Mutation` is a change from outside; a `Hook` lies in wait for a call, may change
the world right before the call takes effect, and may make it fail.
-/
namespace NamespaceOwnership.Simulation

/-- The beginning of the year 2026, when the clock of the world reads zero. -/
def epoch : Int := 1767225600000

structure StoredNamespace where
  name : Option String
  labels : Option Labels
  annotations : Option Annotations
  version : Option String
  /-- The API shows the namespace without any metadata. -/
  bare : Bool
  deriving Repr

def StoredNamespace.object (n : StoredNamespace) : Option NamespaceObject :=
  if n.bare then none else some ⟨n.name, n.labels, n.annotations, n.version⟩

/-- A lease that came from outside is kept together with the fields that it was given with. -/
structure StoredLease where
  spec : Option LeaseSpec
  given : Option (List (String × Value))
  version : String
  deriving Repr

mutual
inductive Mutation where
  | setNamespace (name : Option String) (labels : Option Labels) (annotations : Option Annotations)
      (version : Option (Option String)) (bare : Bool)
  | dropNamespace (name : Option String)
  | setLabel (name : Option String) (key : String) (value : Option String)
  | setDynaKube (key object : Value)
  | dropDynaKube (name : Value)
  | overrideListing (response : Option Value)
  | setListVersion (version : Value)
  | advance (milliseconds : Int)
  | addHook (hook : Hook)
  | clearHooks
  | setLease (lease : Option (Option LeaseSpec × List (String × Value)))
  | stop
  | requestStop
inductive Hook where
  | mk (kind : String) (subject : Option Value) (skip times : Int) (mutations : List Mutation)
      (failure : Option CallFailure)
end

inductive RoundItem where
  | event (event : Value)
  | mutate (mutations : List Mutation)
  | fail (failure : CallFailure)

inductive Recorded where
  | call (call : ApiCall)
  | watchStopped
  deriving Repr

inductive Leading where
  | started | stopped
  deriving DecidableEq, Repr

def Leading.name : Leading → String
  | .started => "started"
  | .stopped => "stopped"

/-- What happens while a loop runs: the streams that it gets, and how long it may go on. -/
structure Play where
  rounds : List (List RoundItem) := []
  maxWaits : Nat := 10
  onWait : List (List Mutation) := []
  stopped : Bool := false
  jitter : Int := 500
  stopOnStart : Bool := false

/-- Lists of what was seen begin with the latest. -/
structure World where
  connection : Connection
  now : Int := 0
  tick : Int := 0
  versions : Nat := 0
  namespaces : List StoredNamespace := []
  dynakubes : NameTable Value := .empty
  listVersion : Value := .text "100"
  listing : Option Value := none
  lease : Option StoredLease := none
  hooks : List Hook := []
  calls : List Recorded := []
  logs : List (LogLevel × String) := []
  examined : List (Feature × Option String × Labels) := []
  metrics : Metrics := .zero
  /-- The stop signal of the present loop. -/
  stopSignal : Bool := false
  /-- A stop that was requested from the controller itself. -/
  stopRequested : Bool := false
  play : Play := {}
  stream : List RoundItem := []
  watching : Bool := false
  waits : List Int := []
  leadership : List (Leading × Int) := []

namespace World

/-- The next version and the world in which it is taken. -/
def bump (w : World) : String × World :=
  (toString (w.versions + 1), { w with versions := w.versions + 1 })

def namespace? (w : World) (name : Option String) : Option StoredNamespace :=
  w.namespaces.find? (·.name == name)

private def replaceOrAppend (n : StoredNamespace) : List StoredNamespace → List StoredNamespace
  | [] => [n]
  | m :: rest => if m.name == n.name then n :: rest else m :: replaceOrAppend n rest

/-- A stored namespace keeps its place, a new one goes to the end. -/
def putNamespace (w : World) (n : StoredNamespace) : World :=
  { w with namespaces := replaceOrAppend n w.namespaces }

def setLabel (w : World) (name : Option String) (key : String) (value : Option String) : World :=
  match w.namespace? name with
  | none => w
  | some n =>
    let labels := n.labels.getD .empty
    let changed := match value with
      | some v => TextMap.set labels key v
      | none => TextMap.erase labels key
    let (version, w) := w.bump
    w.putNamespace { n with labels := some changed, version := some version }

def requestStop (w : World) : World :=
  { w with stopRequested := true,
           calls := if w.watching then .watchStopped :: w.calls else w.calls }

def apply (w : World) : Mutation → World
  | .setNamespace name labels annotations version bare =>
    let (next, w) := w.bump
    w.putNamespace ⟨name, labels, annotations, version.getD (some next), bare⟩
  | .dropNamespace name => { w with namespaces := w.namespaces.filter (·.name != name) }
  | .setLabel name key value => w.setLabel name key value
  | .setDynaKube key object => { w with dynakubes := w.dynakubes.set key object }
  | .dropDynaKube name => { w with dynakubes := w.dynakubes.erase name }
  | .overrideListing response => { w with listing := response }
  | .setListVersion version => { w with listVersion := version }
  | .advance milliseconds => { w with now := w.now + milliseconds }
  | .addHook hook => { w with hooks := w.hooks ++ [hook] }
  | .clearHooks => { w with hooks := [] }
  | .setLease none => { w with lease := none }
  | .setLease (some (spec, given)) =>
    let (version, w) := w.bump
    { w with lease := some ⟨spec, some given, version⟩ }
  | .stop => { w with stopSignal := true }
  | .requestStop => w.requestStop

def applyAll (w : World) (mutations : List Mutation) : World := mutations.foldl apply w

end World
end NamespaceOwnership.Simulation
