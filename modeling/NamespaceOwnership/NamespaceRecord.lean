import NamespaceOwnership.TextMap

/-!
# Namespaces

The API returns a namespace with whatever metadata it has; a record holds the part that matters here. An
update replaces labels and annotations together, and where the version of the record is known it is
pinned: the API refuses the update once the namespace has another version.
-/
namespace NamespaceOwnership

/-- The metadata of a namespace, any part of which may be missing. -/
structure NamespaceObject where
  name : Option String
  labels : Option Labels
  annotations : Option Annotations
  version : Option String
  deriving DecidableEq, Repr, Inhabited

structure NamespaceRecord where
  name : String
  labels : Labels
  annotations : Annotations
  version : Option String
  deriving DecidableEq, Repr, Inhabited

/-- The record of an object, which may have no metadata at all. -/
def NamespaceRecord.ofObject : Option NamespaceObject → NamespaceRecord
  | none => ⟨"", .empty, .empty, none⟩
  | some o => ⟨o.name.getD "", o.labels.getD .empty, o.annotations.getD .empty, o.version⟩

structure NamespacePatch where
  pinned : Option String
  labels : Labels
  annotations : Annotations
  deriving DecidableEq, Repr, Inhabited

end NamespaceOwnership
