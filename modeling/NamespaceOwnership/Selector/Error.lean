import NamespaceOwnership.Value.Printed

/-!
# Why a selector is refused

Each constructor is one rule of the selector language that was broken.
-/
namespace NamespaceOwnership

inductive SelectorError where
  | keyNotText (key : Value)
  | badKeyDomain (key : String)
  | badKey (key : String)
  | badValue (value : Value)
  | unknownOperator (operator : Value) (key : String)
  | valuesMissing (operator key : String)
  | valuesForbidden (operator key : String)
  | unknownFields (names : List String)
  | labelsNotMapping
  | expressionsNotList
  | expressionNotMapping (expression : Value)
  | unknownExpressionFields (names : List String)
  | valuesNotList
  | unbalanced (selector : String)
  | emptyTerm (selector : String)
  | notSelector (kindName : String)
  | inWords (text : String)
  deriving BEq, Repr

def SelectorError.message : SelectorError → String
  | .keyNotText key => "label key must be a non-empty string, got: " ++ key.printed
  | .badKeyDomain key => "invalid label key prefix in " ++ Value.quotedText key
  | .badKey key => "invalid label key " ++ Value.quotedText key
  | .badValue value => "invalid label value " ++ value.printed
  | .unknownOperator operator key =>
    "unsupported selector operator " ++ operator.printed ++ " for key " ++ key
  | .valuesMissing operator key => s!"operator {operator} on key {key} requires at least one value"
  | .valuesForbidden operator key => s!"operator {operator} on key {key} must not have values"
  | .unknownFields names => "unknown selector field(s): " ++ ", ".intercalate names
  | .labelsNotMapping => "matchLabels must be a mapping"
  | .expressionsNotList => "matchExpressions must be a list"
  | .expressionNotMapping expression =>
    "selector expression must be a mapping, got: " ++ expression.printed
  | .unknownExpressionFields names =>
    "unknown selector expression field(s): " ++ ", ".intercalate names
  | .valuesNotList => "selector expression values must be a list"
  | .unbalanced selector => "unbalanced parentheses in selector " ++ Value.quotedText selector
  | .emptyTerm selector => "empty term in selector " ++ Value.quotedText selector
  | .notSelector kindName => s!"selector must be a mapping or string, got: {kindName}"
  | .inWords text => text

end NamespaceOwnership
