import NamespaceOwnership.Fault
import NamespaceOwnership.NamespaceRecord

/-!
# Calls to the cluster

Each constructor of `ApiCall` is one request that may be answered, refused or broken off, and
`ApiCall.Reply` is the type of its answer.
-/
namespace NamespaceOwnership

/-- Points of time are in milliseconds since the beginning of 1970. -/
structure LeaseSpec where
  holder : Option String
  duration : Option Int
  acquired : Option Int
  renewed : Option Int
  deriving DecidableEq, Repr, Inhabited

structure Lease where
  spec : Option LeaseSpec
  version : String
  deriving DecidableEq, Repr, Inhabited

structure LeaseName where
  space : String
  name : String
  deriving DecidableEq, Repr, Inhabited

/-- What is shown on the status of a DynaKube about its last mapping. -/
structure StatusReport where
  state : String
  message : String
  time : String
  deriving DecidableEq, Repr, Inhabited

inductive ApiCall where
  | readNamespace (name : String)
  | listNamespaces (labelSelector : Option String)
  | patchNamespace (name : String) (patch : NamespacePatch)
  | getDynaKube (name : Value)
  | listDynaKubes
  | patchStatus (name : Value) (report : StatusReport)
  | openWatch (version : Value) (timeout : Nat)
  | readLease (lease : LeaseName)
  | createLease (lease : LeaseName) (spec : LeaseSpec)
  | replaceLease (lease : LeaseName) (spec : LeaseSpec) (version : String)
  deriving Repr

abbrev ApiCall.Reply : ApiCall → Type
  | .readNamespace _ | .patchNamespace _ _ => Option NamespaceObject
  | .listNamespaces _ => List (Option NamespaceObject)
  | .getDynaKube _ | .listDynaKubes => Value
  | .readLease _ => Lease
  | .patchStatus _ _ | .openWatch _ _ | .createLease _ _ | .replaceLease _ _ _ => Unit

end NamespaceOwnership
