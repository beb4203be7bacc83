import NamespaceOwnership.Session.Call
import NamespaceOwnership.Settings

/-!
# Calls as they are sent

Each call has a kind, the name of what it is about, and details; an update of a namespace is sent as a JSON
patch. A `Connection` knows the parameters that go with every call.
-/
namespace NamespaceOwnership

open Number (Binary64)

def TextMap.toValue (m : TextMap) : Value := .fields (m.entries.map fun e => (e.1, .text e.2))

def Value.ofText? (s : Option String) : Value := (s.map Value.text).getD .null

namespace NamespacePatch

private def operation (op path : String) (value : Value) : Value :=
  .fields [("op", .text op), ("path", .text path), ("value", value)]

/-- The version comes first, so that an outdated patch is refused before it changes anything. -/
def body (p : NamespacePatch) : Value :=
  let pin := p.pinned.toList.map fun v =>
    operation "replace" "/metadata/resourceVersion" (.text v)
  .list (pin ++ [operation "add" "/metadata/labels" p.labels.toValue,
    operation "add" "/metadata/annotations" p.annotations.toValue])

end NamespacePatch

def StatusReport.body (r : StatusReport) : Value :=
  .fields [("status", .fields [("namespaceMapping", .fields [("state", .text r.state),
    ("message", .text r.message), ("lastUpdateTime", .text r.time)])])]

/-- The namespace of the operator and the limit for a single call, in seconds. -/
structure Connection where
  operatorNamespace : String
  requestTimeout : Binary64

namespace Connection

def ofSettings (s : Settings) : Except Fault Connection :=
  match Binary64.ofInt s.requestTimeout with
  | .infinite _ => .error .numberTooLarge
  | timeout => .ok ⟨s.operatorNamespace, timeout⟩

end Connection

namespace ApiCall

def kind : ApiCall → String
  | .readNamespace _ => "read_namespace"
  | .listNamespaces _ => "list_namespace"
  | .patchNamespace _ _ => "patch_namespace"
  | .getDynaKube _ => "get_dynakube"
  | .listDynaKubes => "list_dynakubes"
  | .patchStatus _ _ => "patch_status"
  | .openWatch _ _ => "watch"
  | .readLease _ => "read_lease"
  | .createLease _ _ => "create_lease"
  | .replaceLease _ _ _ => "replace_lease"

/-- What the call is about; null for a listing. -/
def subject (c : Connection) : ApiCall → Value
  | .readNamespace name | .patchNamespace name _ => .text name
  | .getDynaKube name | .patchStatus name _ => name
  | .listNamespaces _ | .listDynaKubes => .null
  | .openWatch _ _ => .text c.operatorNamespace
  | .readLease l | .createLease l _ | .replaceLease l _ _ => .text l.name

def details : ApiCall → List Value
  | .listNamespaces selector => [.ofText? selector]
  | .patchNamespace _ patch => [patch.body]
  | .patchStatus _ report => [report.body]
  | .openWatch version timeout => [version, .int timeout]
  | .readLease l | .replaceLease l _ _ => [.text l.space]
  | .createLease l _ => [.text l.space, .text l.space]
  | .readNamespace _ | .getDynaKube _ | .listDynaKubes => []

/-- The parameters of a call besides its details. No limit of zero seconds is sent. -/
def parameters (c : Connection) (call : ApiCall) : List (String × String) :=
  let limit := if c.requestTimeout.isZero then [] else [("_request_timeout", c.requestTimeout.text)]
  let resource := [("group", "dynatrace.com"), ("version", "v1beta1"),
    ("namespace", c.operatorNamespace), ("plural", "dynakubes")]
  match call with
  | .readNamespace _ | .listNamespaces _ | .patchNamespace _ _ => limit
  | .getDynaKube _ | .listDynaKubes | .patchStatus _ _ => resource ++ limit
  | .openWatch _ _ | .readLease _ | .createLease _ _ | .replaceLease _ _ _ => []

end ApiCall
end NamespaceOwnership
