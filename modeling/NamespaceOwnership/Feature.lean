import NamespaceOwnership.TextMap

/-!
# Features and their owners

Each monitoring feature of a namespace has at most one owner, the DynaKube that the label of the feature
names. An empty label names nobody. A marker annotation records that a namespace was ever written.
-/
namespace NamespaceOwnership

inductive Feature where
  | codeModules | dataIngest
  deriving DecidableEq, Repr

namespace Feature

/-- Claims are applied in this order. -/
def all : List Feature := [.codeModules, .dataIngest]

def name : Feature → String
  | .codeModules => "codeModules"
  | .dataIngest => "dataIngest"

def labelKey : Feature → String
  | .codeModules => "dynakube.internal.dynatrace.com/instance"
  | .dataIngest => "data-ingest.dynakube.internal.dynatrace.com/instance"

@[simp] theorem mem_all (f : Feature) : f ∈ all := by cases f <;> simp [all]

@[simp] theorem labelKey_inj {f g : Feature} : f.labelKey = g.labelKey ↔ f = g := by
  cases f <;> cases g <;> simp [labelKey]

theorem name_inj {f g : Feature} : f.name = g.name ↔ f = g := by
  cases f <;> cases g <;> simp [name]

def ofName? (s : String) : Option Feature := all.find? (·.name == s)

end Feature

def markerKey : String := "dynatrace.com/updated-via-operator"

/-- The DynaKube named by the label of a feature. -/
def Labels.owner? (labels : Labels) (f : Feature) : Option String :=
  match TextMap.get? labels f.labelKey with
  | some owner => if owner = "" then none else some owner
  | none => none

/-- The owned features with their owners, in feature order. -/
def Labels.owners (labels : Labels) : List (Feature × String) :=
  Feature.all.filterMap fun f => (Labels.owner? labels f).map fun owner => (f, owner)

theorem Labels.mem_owners_iff {labels : Labels} {f : Feature} {owner : String} :
    (f, owner) ∈ Labels.owners labels ↔ Labels.owner? labels f = some owner := by
  simp only [Labels.owners, List.mem_filterMap, Option.map_eq_some_iff, Prod.mk.injEq]
  constructor
  · rintro ⟨g, -, o, h, rfl, rfl⟩
    exact h
  · exact fun h => ⟨f, Feature.mem_all f, owner, h, rfl, rfl⟩

end NamespaceOwnership
