import NamespaceOwnership.Election.Campaign
import NamespaceOwnership.Simulation.Server

/-!
# Scenarios of an election

One replica works on the lease of a simulated cluster, step by step.
-/
namespace NamespaceOwnership.Simulation

inductive LeaseStep where
  | world (mutations : List Mutation)
  | cycle
  | release
  | transition (leading : Bool)
  | campaign (play : Play)

inductive LeaseOutcome where
  | nothing
  | held (yes : Bool)
  | campaigned (leadership : List (Leading × Int)) (waits : List Int)

structure LeaseScene where
  elector : Elector
  world : World
  leading : Bool := false

structure LeaseReport where
  result : Except Fault LeaseOutcome
  calls : List Recorded
  logs : List (LogLevel × String)

namespace LeaseScene

def play {α : Type} (s : LeaseScene) (body : Session α) : α × LeaseScene :=
  let (result, world) := body.run World.surroundings s.world
  (result, { s with world })

/-- Enough cycles for a campaign to come to its end, since the number of waits is limited. -/
def campaign (s : LeaseScene) (play : Play) : Except Fault LeaseOutcome × LeaseScene :=
  let begun := { s with world := s.world.beginPlay play }
  let (standing, s) := begun.play (s.elector.campaignFor (play.maxWaits + 2) s.leading)
  let leading := match standing with
    | some standing => standing.leading
    | none => s.leading
  (.ok (.campaigned s.world.leadership.reverse s.world.waits.reverse), { s with leading })

def step (s : LeaseScene) : LeaseStep → Except Fault LeaseOutcome × LeaseScene
  | .world mutations => (.ok .nothing, { s with world := s.world.applyAll mutations })
  | .cycle =>
    let (result, s) := s.play s.elector.cycle.run
    (result.map .held, s)
  | .release =>
    let (_, s) := s.play s.elector.release
    (.ok .nothing, s)
  | .transition leading =>
    let (_, s) := s.play (Elector.transition leading)
    (.ok .nothing, { s with leading })
  | .campaign play => s.campaign play

def report (s : LeaseScene) (step : LeaseStep) : LeaseReport × LeaseScene :=
  let fresh := { s with world := { s.world with calls := [], logs := [] } }
  let (result, s) := fresh.step step
  (⟨result, s.world.calls.reverse, s.world.logs.reverse⟩, s)

end LeaseScene
end NamespaceOwnership.Simulation
