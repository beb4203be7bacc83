import NamespaceOwnership.Controller.Reconciliation

/-!
# One task after another

A `Task` is something that the controller may be asked to do. `performAll` does any number of them; one that fails
leaves its books to the next.
-/
namespace NamespaceOwnership.Controller

open Number (Binary64)

inductive Task where
  | event (type : String) (object : Value)
  | reconcile (d : DynaKube)
  | unmap (name : Value)
  | resync
  | drain (now : Binary64)

def perform (k : Controller) : Task → Control Unit
  | .event type object => discard (k.handleEvent type object)
  | .reconcile d => discard (k.reconcile d)
  | .unmap name => discard (k.unmap name)
  | .resync => discard k.resync
  | .drain now => k.drain now

def performAll (k : Controller) : List Task → Control Unit
  | [] => return
  | task :: rest => do
    let _ ← (k.perform task).outcome
    k.performAll rest

end NamespaceOwnership.Controller
