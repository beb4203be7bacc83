import NamespaceOwnership.Fault
import NamespaceOwnership.Selector.Basic
import NamespaceOwnership.Selector.LabelSyntax
import NamespaceOwnership.Text.Blank

/-!
# Reading selectors

A selector is written as a mapping with `matchLabels` and `matchExpressions`, or as a text of terms
separated by commas. Both forms are read into requirements in the order in which they are written;
null and blank texts select everything. What cannot be understood completely is refused.
-/
namespace NamespaceOwnership.LabelSelector

open Text LabelSyntax

private def refuse {α : Type} (error : SelectorError) : Except Fault α := .error (.selector error)

def readKey (key : Value) : Except Fault String :=
  match key with
  | .text k =>
    if k = "" then refuse (.keyNotText key)
    else
      match cutLast '/' k.toList with
      | some (domain, name) =>
        if !isSubdomain domain then refuse (.badKeyDomain k)
        else if !isName name then refuse (.badKey k)
        else .ok k
      | none => if !isName k.toList then refuse (.badKey k) else .ok k
  | _ => refuse (.keyNotText key)

def readValue (value : Value) : Except Fault String :=
  match value with
  | .text v => if LabelSyntax.isValue v.toList then .ok v else refuse (.badValue value)
  | _ => refuse (.badValue value)

/-- One requirement from its parts. An operator that is a list or a mapping cannot be looked up. -/
def readRequirement (key operator : Value) (values : List Value) : Except Fault Requirement := do
  let key ← readKey key
  let withValues (make : String → List String → Requirement) (name : String) := do
    if values.isEmpty then refuse (.valuesMissing name key)
    return make key (valueSet (← values.mapM readValue))
  let withoutValues (make : String → Requirement) (name : String) :=
    if values.isEmpty then pure (make key) else refuse (.valuesForbidden name key)
  match operator with
  | .text "In" => withValues .oneOf "In"
  | .text "NotIn" => withValues .noneOf "NotIn"
  | .text "Exists" => withoutValues .present "Exists"
  | .text "DoesNotExist" => withoutValues .absent "DoesNotExist"
  | .list _ | .fields _ => throw (.object (.noName operator.kindName))
  | _ => refuse (.unknownOperator operator key)

/-- The keys that are not among the allowed ones, in ascending order. -/
def unknownKeys (allowed : List String) (entries : List (String × Value)) : List String :=
  ((entries.map Prod.fst).filter (!allowed.contains ·)).mergeSort fun a b => decide (a ≤ b)

def readExpression (expression : Value) : Except Fault Requirement := do
  let some entries := expression.entries? | refuse (.expressionNotMapping expression)
  let unknown := unknownKeys ["key", "operator", "values"] entries
  if !unknown.isEmpty then refuse (.unknownExpressionFields unknown)
  let values ← match Value.entry entries "values" with
    | .null => pure []
    | .list items => pure items
    | _ => refuse .valuesNotList
  readRequirement (Value.entry entries "key") (Value.entry entries "operator") values

def readMapping (entries : List (String × Value)) : Except Fault LabelSelector := do
  let unknown := unknownKeys ["matchLabels", "matchExpressions"] entries
  if !unknown.isEmpty then refuse (.unknownFields unknown)
  let matchLabels := Value.entry entries "matchLabels"
  let pairs ← match matchLabels.truthy, matchLabels with
    | false, _ => pure []
    | true, .fields pairs => pure pairs
    | true, _ => refuse .labelsNotMapping
  let equalities ← pairs.mapM fun (key, value) => readRequirement (.text key) (.text "In") [value]
  let matchExpressions := Value.entry entries "matchExpressions"
  let items ← match matchExpressions.truthy, matchExpressions with
    | false, _ => pure []
    | true, .list items => pure items
    | true, _ => refuse .expressionsNotList
  return ⟨equalities ++ (← items.mapM readExpression)⟩

/-- The terms between the commas that stand outside parentheses; none where a parenthesis has no
partner. `depth` parentheses are open. -/
def splitTerms? : (depth : Nat) → List Char → Option (List (List Char))
  | depth, [] => if depth = 0 then some [[]] else none
  | depth, c :: s =>
    if c = ',' ∧ depth = 0 then (splitTerms? 0 s).map ([] :: ·)
    else if c = ')' ∧ depth = 0 then none
    else
      let inside := if c = '(' then depth + 1 else if c = ')' then depth - 1 else depth
      match splitTerms? inside s with
      | some (t :: ts) => some ((c :: t) :: ts)
      | _ => none

/-- A term `key in (a, b)` or `key notin (a, b)`: the key, whether the values are excluded, and the
text between the parentheses. -/
def setTerm? (term : List Char) : Option (List Char × Bool × List Char) := do
  let (key, rest) := term.span fun c => !(isBlank c || c == '!' || c == '=' || c == '(' || c == ')')
  guard (!key.isEmpty)
  guard (rest.head?.any isBlank)
  let (excluded, rest) ← match trimLeft rest with
    | 'i' :: 'n' :: rest => some (false, rest)
    | 'n' :: 'o' :: 't' :: 'i' :: 'n' :: rest => some (true, rest)
    | _ => none
  let '(' :: rest := trimLeft rest | none
  guard (rest.getLast? == some ')')
  let values := rest.dropLast
  guard (values.all fun c => c != '(' && c != ')')
  return (key, excluded, values)

private def textOf (s : List Char) : Value := .text (String.ofList s)

/-- Reads one trimmed term of the text `selector`. -/
def readTerm (selector : String) (term : List Char) : Except Fault Requirement :=
  match term with
  | [] => refuse (.emptyTerm selector)
  | '!' :: key => readRequirement (textOf (trim key)) (.text "DoesNotExist") []
  | _ =>
    match setTerm? term with
    | some (key, excluded, values) =>
      let values := ((pieces ',' values).map trim).filter (!·.isEmpty)
      readRequirement (textOf key) (.text (if excluded then "NotIn" else "In")) (values.map textOf)
    | none =>
      let compared (operator : String) (parts : List Char × List Char) :=
        readRequirement (textOf (trim parts.1)) (.text operator) [textOf (trim parts.2)]
      match cutFirst ['!', '='] term, cutFirst ['=', '='] term, cutFirst ['='] term with
      | some parts, _, _ => compared "NotIn" parts
      | none, some parts, _ | none, none, some parts => compared "In" parts
      | none, none, none => readRequirement (textOf term) (.text "Exists") []

def readText (selector : String) : Except Fault LabelSelector :=
  if (trim selector.toList).isEmpty then .ok everything
  else
    match splitTerms? 0 selector.toList with
    | none => refuse (.unbalanced selector)
    | some terms => do return ⟨← terms.mapM fun term => readTerm selector (trim term)⟩

def read (raw : Value) : Except Fault LabelSelector :=
  match raw with
  | .null => .ok everything
  | .text s => readText s
  | .fields entries => readMapping entries
  | _ => refuse (.notSelector raw.kindName)

end NamespaceOwnership.LabelSelector
