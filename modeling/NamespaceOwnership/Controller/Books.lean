import NamespaceOwnership.Clock
import NamespaceOwnership.NameTable
import NamespaceOwnership.Session.Basic

/-!
# The books of the controller

For each DynaKube the controller remembers the generation that it last mapped, when a failed attempt is to
be repeated and how often it failed in a row, and the status that it last reported. A repetition comes
after one second, then after twice as long each time, and never after more than a minute. The times are
numbers of seconds.
-/
namespace NamespaceOwnership

open Number (Binary64)

structure Books where
  observed : NameTable (Option Int) := .empty
  pending : NameTable Binary64 := .empty
  attempts : NameTable Nat := .empty
  lastStatus : NameTable (String × String) := .empty
  nextResync : Option Binary64 := none
  ready : Bool := false
  deriving Repr

/-- A failure leaves the books as they stand at that moment. -/
abbrev Control := ExceptT Fault (StateT Books Session)

namespace Control

def attempt {α : Type} (a : Attempt α) : Control α := ExceptT.mk (StateT.lift a.run)

def outcome {α : Type} (c : Control α) : Control (Except Fault α) := ExceptT.lift c.run

/-- Lists and mappings cannot be looked up. -/
def lookUp {α : Type} (read : Books → NameTable α) (name : Value) : Control (Option α) := do
  if name.isScalar then return (read (← get)).get? name
  else throw (.object (.noName name.kindName))

/-- In an empty table anything may be crossed out. -/
def requireErasable {α : Type} (t : NameTable α) (name : Value) : Control Unit := do
  if !name.isScalar && !t.isEmpty then throw (.object (.noName name.kindName))

def notePending : Control Unit := do Session.note (.pending (← get).pending.size)

end Control

/-- In seconds. -/
def longestDelay : Nat := 60

/-- From this number of failures on, the delay has no finite floating-point value before it is cut off. -/
def unboundedDelays : Nat := 1025

/-- Delay in seconds after so many failures in a row. -/
def retryDelay (failures : Nat) : Nat := min longestDelay (Nat.pow 2 (failures - 1))

namespace Books

/-- The names whose repetition is due. -/
def due (b : Books) (now : Binary64) : List Value :=
  (b.pending.entries.filter (·.2.le now)).map Prod.fst

def longestWatch : Nat := 30

/-- Whole seconds that the next watch may last, so that it ends when something is due: at least one and at
most thirty. An infinite time cannot be rounded up to whole seconds. -/
def watchTimeout (b : Books) (now : Binary64) : Except Fault Nat :=
  match b.pending.entries.map Prod.snd ++ b.nextResync.toList with
  | [] => .ok longestWatch
  | time :: rest =>
    let remaining := (Binary64.ofInt 1).max ((Binary64.least time rest).sub now)
    match remaining.ceil? with
    | some seconds => .ok (min longestWatch (max 1 seconds.toNat))
    | none => .error (.object .infinite)

end Books

namespace Controller

def scheduleRetry (name : Value) (now : Binary64) : Control Unit := do
  let failures := (← Control.lookUp (·.attempts) name).getD 0 + 1
  modify fun b => { b with attempts := b.attempts.set name failures }
  if unboundedDelays ≤ failures then throw .numberTooLarge
  let delay := retryDelay failures
  modify fun b => { b with pending := b.pending.set name (now.add (.ofInt delay)) }
  Control.notePending
  Session.warning ("Reconciliation of dynakube " ++ name.shown ++
    s!" failed; scheduling retry attempt {failures} in {delay}.0s")

def clearRetry (name : Value) : Control Unit := do
  Control.requireErasable (← get).pending name
  modify fun b => { b with pending := b.pending.erase name }
  Control.requireErasable (← get).attempts name
  modify fun b => { b with attempts := b.attempts.erase name }
  Control.notePending

/-- Crosses out what is known about a name apart from its failures. -/
def forget (name : Value) : Control Unit := do
  Control.requireErasable (← get).observed name
  modify fun b => { b with observed := b.observed.erase name }
  Control.requireErasable (← get).lastStatus name
  modify fun b => { b with lastStatus := b.lastStatus.erase name }

def observe (name : Value) (generation : Option Int) : Control Unit :=
  modify fun b => { b with observed := b.observed.set name generation }

end Controller
end NamespaceOwnership
