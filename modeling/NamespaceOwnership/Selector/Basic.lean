import NamespaceOwnership.TextMap

/-!
# Label selectors

A selector is a conjunction of requirements on labels; the empty one holds of all labels. The values of a
requirement form a set and are kept sorted without repetition.
-/
namespace NamespaceOwnership

inductive Requirement where
  | oneOf (key : String) (values : List String)
  | noneOf (key : String) (values : List String)
  | present (key : String)
  | absent (key : String)
  deriving DecidableEq, Repr

namespace Requirement

def key : Requirement → String
  | .oneOf k _ | .noneOf k _ | .present k | .absent k => k

def values : Requirement → List String
  | .oneOf _ vs | .noneOf _ vs => vs
  | .present _ | .absent _ => []

def operatorName : Requirement → String
  | .oneOf .. => "In"
  | .noneOf .. => "NotIn"
  | .present _ => "Exists"
  | .absent _ => "DoesNotExist"

def holds (labels : Labels) : Requirement → Bool
  | .oneOf k vs => (labels.get? k).any (vs.contains ·)
  | .noneOf k vs => !(labels.get? k).any (vs.contains ·)
  | .present k => labels.contains k
  | .absent k => !labels.contains k

end Requirement

structure LabelSelector where
  requirements : List Requirement
  deriving DecidableEq, Repr, Inhabited

def LabelSelector.everything : LabelSelector := ⟨[]⟩

def LabelSelector.selects (s : LabelSelector) (labels : Labels) : Bool :=
  s.requirements.all (·.holds labels)

/-- The distinct values in ascending order. -/
def valueSet (values : List String) : List String :=
  (values.mergeSort fun a b => decide (a ≤ b)).eraseDups

theorem mem_valueSet {values : List String} {v : String} : v ∈ valueSet values ↔ v ∈ values := by
  simp [valueSet]

theorem LabelSelector.selects_iff (s : LabelSelector) (labels : Labels) :
    s.selects labels = true ↔ ∀ r ∈ s.requirements, r.holds labels = true := by
  simp [LabelSelector.selects]

end NamespaceOwnership
