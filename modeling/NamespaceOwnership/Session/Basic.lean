import NamespaceOwnership.Log.Level
import NamespaceOwnership.Metrics.Basic
import NamespaceOwnership.Session.Call

/-!
# Sessions

A session is a program seen from outside: it ends with a result, leaves a note and goes on, or asks for
something and goes on with the answer. Nothing is said about who answers, so that other parties may do
anything between two requests. `Session.run` plays a session against given surroundings.
-/
namespace NamespaceOwnership

/-- What is left behind for observers: log lines, metric updates, and what a guard was shown. -/
inductive Note where
  | log (level : LogLevel) (text : String)
  | count (counter : Counter)
  | pending (retries : Nat)
  | leading (yes : Bool)
  | elapsed (milliseconds : Int)
  | examined (feature : Feature) (owner : Option String) (labels : Labels)
  deriving DecidableEq, Repr

inductive WatchStep where
  | event (event : Value)
  | ended
  | failed (failure : CallFailure)
  deriving Repr

inductive Request where
  | api (call : ApiCall)
  | nextEvent
  | closeWatch
  | clock
  | wallTime
  | pause (milliseconds : Int)
  | jitter
  | stopRequested
  | withdrawStop
  | startedLeading
  | stoppedLeading
  deriving Repr

/-- The clock counts milliseconds from some beginning, wall time those since 1970 as long as that time has a
date. A jitter is a number of thousandths below a thousand. -/
abbrev Request.Answer : Request → Type
  | .api call => Except CallFailure call.Reply
  | .nextEvent => WatchStep
  | .clock | .jitter => Int
  | .wallTime => Except CalendarError Int
  | .stopRequested => Bool
  | .closeWatch | .pause _ | .withdrawStop | .startedLeading | .stoppedLeading => Unit

inductive Session (α : Type) where
  | done (result : α)
  | tell (note : Note) (next : Session α)
  | ask (request : Request) (next : request.Answer → Session α)

namespace Session

protected def bind {α β : Type} : Session α → (α → Session β) → Session β
  | .done a, f => f a
  | .tell note next, f => .tell note (next.bind f)
  | .ask request next, f => .ask request fun answer => (next answer).bind f

instance : Monad Session where
  pure := .done
  bind := Session.bind

@[simp] theorem pure_eq {α : Type} (a : α) : (pure a : Session α) = .done a := rfl

@[simp] theorem done_bind {α β : Type} (a : α) (f : α → Session β) : .done a >>= f = f a := rfl

@[simp] theorem tell_bind {α β : Type} (note : Note) (next : Session α) (f : α → Session β) :
    .tell note next >>= f = .tell note (next >>= f) := rfl

@[simp] theorem ask_bind {α β : Type} (request : Request) (next : request.Answer → Session α)
    (f : α → Session β) : .ask request next >>= f = .ask request fun answer => next answer >>= f := rfl

private theorem bind_done {α : Type} (s : Session α) : s >>= .done = s := by
  induction s with
  | done a => rfl
  | tell note next ih => rw [tell_bind, ih]
  | ask request next ih => rw [ask_bind]; congr 1; funext answer; exact ih answer

private theorem bind_bind {α β γ : Type} (s : Session α) (f : α → Session β) (g : β → Session γ) :
    s >>= f >>= g = s >>= fun a => f a >>= g := by
  induction s with
  | done a => rfl
  | tell note next ih => rw [tell_bind, tell_bind, tell_bind, ih]
  | ask request next ih =>
    rw [ask_bind, ask_bind, ask_bind]; congr 1; funext answer; exact ih answer

instance : LawfulMonad Session := LawfulMonad.mk' Session bind_done (fun _ _ => rfl) bind_bind

def note (n : Note) : Session Unit := .tell n (.done ())

def request (r : Request) : Session r.Answer := .ask r .done

def log (level : LogLevel) (text : String) : Session Unit := note (.log level text)

def debug (text : String) : Session Unit := log .debug text

def info (text : String) : Session Unit := log .info text

def warning (text : String) : Session Unit := log .warning text

def error (text : String) : Session Unit := log .error text

def count (counter : Counter) : Session Unit := note (.count counter)

def call (c : ApiCall) : Session (Except CallFailure c.Reply) := request (.api c)

def clock : Session Int := request .clock

/-- Whoever answers the requests of a session and reads its notes. -/
structure Surroundings (σ : Type) where
  answer : (r : Request) → σ → r.Answer × σ
  hear : Note → σ → σ

def run {α σ : Type} (around : Surroundings σ) : Session α → σ → α × σ
  | .done a, s => (a, s)
  | .tell note next, s => next.run around (around.hear note s)
  | .ask request next, s =>
    (next (around.answer request s).1).run around (around.answer request s).2

@[simp] theorem run_bind {α β σ : Type} (around : Surroundings σ) (s : Session α) (f : α → Session β)
    (w : σ) : (s >>= f).run around w = (f (s.run around w).1).run around (s.run around w).2 := by
  induction s generalizing w with
  | done a => rfl
  | tell note next ih => exact ih _
  | ask request next ih => exact ih _ _

end Session

/-- A session that may fail. -/
abbrev Attempt := ExceptT Fault Session

namespace Attempt

/-- The result of an attempt as a value. -/
def outcome {α : Type} (a : Attempt α) : Attempt (Except Fault α) := ExceptT.lift a.run

/-- Makes a call; its failure is the failure of the attempt. -/
def call (c : ApiCall) : Attempt c.Reply := do
  match ← (Session.call c : Session _) with
  | .ok reply => pure reply
  | .error failure => throw (.call failure)

/-- The wall time, which fails outside the calendar. -/
def wallTime : Attempt Int := do
  match ← (Session.request .wallTime : Session _) with
  | .ok time => pure time
  | .error error => throw (.calendar error)

end Attempt

/-- A note moves the metrics. -/
def Metrics.hear (m : Metrics) : Note → Metrics
  | .count counter => m.increment counter
  | .pending retries => { m with pendingRetries := retries }
  | .leading yes => { m with leading := yes }
  | .elapsed milliseconds => { m with durations := milliseconds :: m.durations }
  | .log _ _ | .examined _ _ _ => m

end NamespaceOwnership
