/-!
# Resolving a claim

A free place is taken, an own one is kept, and nobody takes over the place of another owner.
-/
namespace NamespaceOwnership

inductive Resolution where
  | accept | alreadyOwned | conflict
  deriving DecidableEq, Repr

def Resolution.name : Resolution → String
  | .accept => "accept"
  | .alreadyOwned => "noop"
  | .conflict => "conflict"

/-- An empty owner is no owner. -/
def resolve (owner : Option String) (candidate : String) : Resolution :=
  match owner with
  | none => .accept
  | some o => if o = "" then .accept else if o = candidate then .alreadyOwned else .conflict

theorem resolve_eq_conflict_iff {owner : Option String} {candidate : String} :
    resolve owner candidate = .conflict ↔ ∃ o, owner = some o ∧ o ≠ "" ∧ o ≠ candidate := by
  cases owner with
  | none => simp [resolve]
  | some o =>
    by_cases h : o = ""
    · simp [resolve, h]
    · by_cases h' : o = candidate
      · subst h'
        simp [resolve, h]
      · simp [resolve, h, h']

theorem resolve_eq_alreadyOwned_iff {owner : Option String} {candidate : String} :
    resolve owner candidate = .alreadyOwned ↔ owner = some candidate ∧ candidate ≠ "" := by
  cases owner with
  | none => simp [resolve]
  | some o =>
    by_cases h : o = ""
    · subst h
      simp [resolve, eq_comm]
    · by_cases h' : o = candidate
      · subst h'
        simp [resolve, h]
      · simp [resolve, h, h']

end NamespaceOwnership
