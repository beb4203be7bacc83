import NamespaceOwnership.Log.Level

/-!
# Handing leadership over

The process runs the control loop in a thread of its own while it leads. With each new term a new loop is
started; at the end of a term the loop is asked to stop and its thread is awaited for a limited time. A
loop that ends unasked, one that does not end in time, and a term that begins while the last loop is still
there shut the process down.

Threads may take their steps at any time, also between the steps at the end of a term, so every step is an
`Action` of its own.
-/
namespace NamespaceOwnership

inductive LoopStage where
  | running
  /-- The loop has returned and its thread has not yet looked whether it was asked to. -/
  | returned
  /-- The thread is about to shut the process down. -/
  | alarmed
  | ended
  deriving DecidableEq, Repr

structure LoopThread where
  asked : Bool
  stage : LoopStage
  deriving DecidableEq, Repr

def LoopThread.alive (t : LoopThread) : Bool := t.stage != .ended

/-- How far the end of a term has been carried out. -/
inductive EndOfTerm where
  | idle | notReady | requested | signalled
  deriving DecidableEq, Repr

/-- Threads are listed from the newest on. Only the newest one can be remembered. -/
structure Handoff where
  ready : Bool := false
  shutdown : Bool := false
  requests : Nat := 0
  threads : List LoopThread := []
  remembered : Bool := false
  ending : EndOfTerm := .idle
  deriving DecidableEq, Repr

/-- Threads are counted from the oldest on. -/
inductive HandoffAction where
  | beginTerm
  | clearReady
  | requestStop
  | signalStop
  | awaitThread
  | giveUpWaiting
  | loopReturns (thread : Nat)
  | loopCrashes (thread : Nat)
  | threadLooks (thread : Nat)
  | threadAlarms (thread : Nat)
  | requestShutdown
  deriving DecidableEq, Repr

abbrev LogText := LogLevel × String

namespace Handoff

def newest? (h : Handoff) : Option LoopThread := h.threads.head?

def newestAlive (h : Handoff) : Bool := h.newest?.any LoopThread.alive

/-- The place of a thread in the list. -/
def place (h : Handoff) (thread : Nat) : Nat := h.threads.length - 1 - thread

def thread? (h : Handoff) (thread : Nat) : Option LoopThread :=
  if thread < h.threads.length then h.threads[h.place thread]? else none

def setStage (h : Handoff) (thread : Nat) (stage : LoopStage) : Handoff :=
  { h with threads := h.threads.modify (h.place thread) fun t => { t with stage } }

def refusal : LogText :=
  (.error, "Refusing to start a new watch loop while the previous controller thread is still running")

def unaskedText : LogText :=
  (.error, "Controller thread exited without a stop signal; terminating process")

def crashText : LogText := (.error, "Controller thread crashed")

/-- No thread can be awaited for more seconds than this. -/
def longestWait : Int := 9223372036

def stuckText (limit : Int) : LogText :=
  (.error, s!"Controller thread did not stop within {limit}s during leadership handoff; " ++
    "forcing process shutdown")

/-- A new term starts a new loop, unless the process is shut down or the last loop is still there. -/
def beginTerm (h : Handoff) : Handoff × List LogText :=
  if h.shutdown then (h, [])
  else if h.remembered && h.newestAlive then ({ h with shutdown := true }, [refusal])
  else
    ({ h with ready := true, threads := ⟨false, .running⟩ :: h.threads, remembered := true }, [])

/-- The thread of a loop that has returned ends quietly if it was asked to. -/
def look (h : Handoff) (thread : Nat) (t : LoopThread) : Handoff × List LogText :=
  if t.asked || h.shutdown then (h.setStage thread .ended, [])
  else (h.setStage thread .alarmed, [unaskedText])

/-- The effect of an action and the lines that it logs; none where the action cannot happen. The limit for
waiting is in seconds. -/
def step (limit : Int) (h : Handoff) : HandoffAction → Option (Handoff × List LogText)
  | .beginTerm => if h.ending = .idle then some h.beginTerm else none
  | .clearReady =>
    if h.ending = .idle then some ({ h with ready := false, ending := .notReady }, []) else none
  | .requestStop =>
    if h.ending = .notReady then
      some ({ h with requests := h.requests + 1, ending := .requested }, [])
    else none
  | .signalStop =>
    if h.ending = .requested then
      let threads := h.threads.modifyHead fun t => { t with asked := true }
      some ({ h with threads, ending := .signalled }, [])
    else none
  | .awaitThread =>
    if h.ending = .signalled && !(h.remembered && h.newestAlive) then
      some ({ h with remembered := false, ending := .idle }, [])
    else none
  | .giveUpWaiting =>
    if h.ending = .signalled && h.remembered && h.newestAlive then
      some ({ h with shutdown := true, ending := .idle }, [stuckText limit])
    else none
  | .loopReturns i =>
    if (h.thread? i).any (·.stage = .running) then some (h.setStage i .returned, []) else none
  | .loopCrashes i =>
    if (h.thread? i).any (·.stage = .running) then some (h.setStage i .alarmed, [crashText])
    else none
  | .threadLooks i =>
    match h.thread? i with
    | some t => if t.stage = .returned then some (h.look i t) else none
    | none => none
  | .threadAlarms i =>
    if (h.thread? i).any (·.stage = .alarmed) then
      some ({ h.setStage i .ended with shutdown := true }, [])
    else none
  | .requestShutdown => some ({ h with shutdown := true }, [])

/-- Several actions in a row; an action that cannot happen is left out. -/
def perform (limit : Int) (h : Handoff) : List HandoffAction → Handoff × List LogText
  | [] => (h, [])
  | a :: rest =>
    match h.step limit a with
    | none => h.perform limit rest
    | some (next, lines) =>
      let (last, more) := next.perform limit rest
      (last, lines ++ more)

end Handoff
end NamespaceOwnership
