import NamespaceOwnership.Election.Handoff
import NamespaceOwnership.Fault

/-!
# Terms of leadership played through

The control loops are replaced by loops that behave in a given way, and every thread takes its steps as soon as
it can.
-/
namespace NamespaceOwnership.Simulation

inductive LoopBehaviour where
  /-- Returns when it is asked to stop. -/
  | wait
  | exit
  | crash
  /-- Never returns. -/
  | stuck
  deriving DecidableEq, Repr

def LoopBehaviour.name : LoopBehaviour → String
  | .wait => "wait"
  | .exit => "exit"
  | .crash => "crash"
  | .stuck => "stuck"

def LoopBehaviour.all : List LoopBehaviour := [.wait, .exit, .crash, .stuck]

inductive TermEvent where
  | start | stop | shutdown | finish
  deriving DecidableEq, Repr

def TermEvent.name : TermEvent → String
  | .start => "start"
  | .stop => "stop"
  | .shutdown => "shutdown"
  | .finish => "end"

/-- The part of the events that a script may contain. -/
def TermEvent.ofName? (s : String) : Option TermEvent :=
  [TermEvent.start, .stop, .shutdown].find? (·.name == s)

structure TermPlay where
  limit : Int
  handoff : Handoff := {}
  /-- What the loops to come will do; after that they wait. -/
  behaviours : List LoopBehaviour
  /-- What the loops do that were started so far, from the oldest on. -/
  running : List LoopBehaviour := []
  logs : List LogText := []

structure TermReport where
  event : TermEvent
  ready : Bool
  shutdown : Bool
  runs : List LoopBehaviour
  requests : Nat
  logs : List LogText

namespace TermPlay

def perform (p : TermPlay) (actions : List HandoffAction) : TermPlay :=
  let (handoff, logs) := p.handoff.perform p.limit actions
  { p with handoff, logs := p.logs ++ logs }

/-- The steps that the thread of a loop can take by itself. -/
def ownSteps (p : TermPlay) (thread : Nat) (b : LoopBehaviour) : List HandoffAction :=
  let asked := (p.handoff.thread? thread).any LoopThread.asked
  let leaves : List HandoffAction := match b with
    | .wait => if asked then [.loopReturns thread] else []
    | .exit => [.loopReturns thread]
    | .crash => [.loopCrashes thread]
    | .stuck => []
  leaves ++ [.threadLooks thread, .threadAlarms thread]

/-- Lets every thread go on as far as it can. -/
def settle (p : TermPlay) : TermPlay :=
  (List.range p.running.length).foldl (fun p i =>
    match p.running[i]? with
    | some b => p.perform (p.ownSteps i b)
    | none => p) p

def begin (p : TermPlay) : TermPlay :=
  let started := p.perform [.beginTerm]
  if started.handoff.threads.length = p.handoff.threads.length then started
  else
    let next := p.behaviours.head?.getD .wait
    { started with behaviours := p.behaviours.tail, running := p.running ++ [next] }.settle

def finish (p : TermPlay) : TermPlay :=
  (p.perform [.clearReady, .requestStop, .signalStop]).settle.perform [.awaitThread, .giveUpWaiting]

/-- The end of a term fails where a loop has to be awaited for too long. -/
def finish? (p : TermPlay) : Except Fault TermPlay :=
  if p.handoff.remembered && p.handoff.newestAlive && decide (Handoff.longestWait < p.limit) then
    .error .waitTooLong
  else .ok p.finish

def handle (p : TermPlay) : TermEvent → Except Fault TermPlay
  | .start => .ok p.begin
  | .stop | .finish => p.finish?
  | .shutdown => .ok (p.perform [.requestShutdown])

def report (p : TermPlay) (event : TermEvent) : Except Fault (TermReport × TermPlay) := do
  let q ← { p with logs := [] }.handle event
  return (⟨event, q.handoff.ready, q.handoff.shutdown, q.running, q.handoff.requests, q.logs⟩, q)

/-- The reports on a script and on the end that follows it. -/
def reports (p : TermPlay) : List TermEvent → Except Fault (List TermReport)
  | [] => do return [(← p.report .finish).1]
  | event :: rest => do
    let (first, q) ← p.report event
    return first :: (← q.reports rest)

end TermPlay
end NamespaceOwnership.Simulation
