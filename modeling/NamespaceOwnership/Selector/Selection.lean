import NamespaceOwnership.Selector.Parser

/-!
# Namespaces that a selector selects

The namespace of the operator is never selected. The names of the others are given in ascending order,
so that claims are applied in a reproducible order.
-/
namespace NamespaceOwnership

/-- A raw selector applies to a namespace. The operator's own one is excluded before the selector is
read. -/
def selectsNamespace (operatorNamespace : String) (selector : Value) (name : String)
    (labels : Labels) : Except Fault Bool :=
  if name = operatorNamespace then .ok false
  else do return (← LabelSelector.read selector).selects labels

def selectedNames (operatorNamespace : String) (selector : Value)
    (namespaces : List (String × Labels)) : Except Fault (List String) := do
  let parsed ← LabelSelector.read selector
  let selected := namespaces.filter fun n => n.1 != operatorNamespace && parsed.selects n.2
  return (selected.map Prod.fst).mergeSort fun a b => decide (a ≤ b)

end NamespaceOwnership
