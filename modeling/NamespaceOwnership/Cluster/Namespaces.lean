import NamespaceOwnership.Session.Basic

/-!
# Access to namespaces

A namespace that the API does not know and an update that lost against another writer are faults of their
own; all other failures of a call stay as they are.
-/
namespace NamespaceOwnership.Namespaces

/-- A refusal with status 404 means that the namespace is gone. -/
def missing (name : String) (failure : CallFailure) : Fault :=
  if failure.status? = some 404 then .namespaceMissing name else .call failure

/-- A refusal with status 409 means that the namespace has another version than the pinned one. -/
def outdated (name : String) (pinned : Option String) (failure : CallFailure) : Fault :=
  if failure.status? = some 409 then .versionConflict name pinned else missing name failure

def get (name : String) : Attempt NamespaceRecord := do
  match ← (Session.call (.readNamespace name) : Session _) with
  | .ok object => return .ofObject object
  | .error failure => throw (missing name failure)

/-- The named namespaces in ascending order of their names. -/
def records (objects : List (Option NamespaceObject)) : List NamespaceRecord :=
  ((objects.map NamespaceRecord.ofObject).filter (·.name != "")).mergeSort
    fun a b => decide (a.name ≤ b.name)

/-- An empty label selector is not sent. -/
def list (labelSelector : Option String) : Attempt (List NamespaceRecord) := do
  return records (← Attempt.call (.listNamespaces (labelSelector.filter (· != ""))))

def update (name : String) (patch : NamespacePatch) : Attempt NamespaceRecord := do
  match ← (Session.call (.patchNamespace name patch) : Session _) with
  | .ok object => return .ofObject object
  | .error failure => throw (outdated name patch.pinned failure)

end NamespaceOwnership.Namespaces
