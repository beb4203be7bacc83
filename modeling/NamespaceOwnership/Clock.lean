import NamespaceOwnership.Fault
import NamespaceOwnership.Number.Binary64

/-!
# The clock

Points of time are counted in milliseconds. A clock reads seconds as a floating-point number. Near its
beginning different points of time have different numbers, and a deadline is again a point of time. Far away
only some times have a number: there the clock reads the nearest of them, a deadline is again the nearest one,
and beyond the greatest number there is none. A time that has a number of seconds is shown as a number of
milliseconds, which may be a neighbouring one.
-/
namespace NamespaceOwnership.Clock

open Number

/-- Up to so many seconds from its beginning the clock is exact. -/
def exactSeconds : Nat := Nat.pow 2 40

def isNear (time : Int) : Bool := time.natAbs ≤ 1000 * exactSeconds

/-- The number of seconds at a point of time. -/
def seconds (time : Int) : Binary64 := .ofQuotient time 1000

/-- The point of time nearest to a number of seconds. -/
def ofSeconds? (seconds : Binary64) : Option Int := seconds.quotient?.map fun q => roundQuotient (1000 * q.1) q.2

/-- What the clock reads at a point of time. -/
def reading (time : Int) : Int := if isNear time then time else (ofSeconds? (seconds time)).getD time

/-- The point of time so many seconds after another one. -/
def sum? (now duration : Int) : Option Int :=
  if isNear now && isNear (1000 * duration) then some (now + 1000 * duration)
  else ofSeconds? ((seconds now).add (.ofInt duration))

/-- A number of seconds and so many more. An integer is added as the number nearest to it, if there is one. -/
def plus (now : Binary64) (duration : Int) : Except Fault Binary64 :=
  if (Binary64.ofInt duration).isFinite then .ok (now.add (.ofInt duration)) else .error .numberTooLarge

def later (now duration : Int) : Except Fault Int :=
  match sum? now duration with
  | some time => .ok time
  | none => .error .numberTooLarge

/-- The number of milliseconds as which a number of seconds is shown. -/
def shown? (time : Int) : Option Int := ((seconds time).scale 1000).round?

def shown (time : Int) : Int := (shown? time).getD time

/-- The milliseconds have no floating-point number. -/
def isTooFar (time : Int) : Bool := (shown? time).isNone

theorem sum?_of_near {now duration : Int} (hn : isNear now = true)
    (hs : isNear (1000 * duration) = true) : sum? now duration = some (now + 1000 * duration) := by
  simp only [sum?, hn, hs, Bool.and_self, if_true]

theorem later_of_near {now duration : Int} (hn : isNear now = true)
    (hs : isNear (1000 * duration) = true) : later now duration = .ok (now + 1000 * duration) := by
  rw [later, sum?_of_near hn hs]

end NamespaceOwnership.Clock
