import NamespaceOwnership.Number.Shortest
import NamespaceOwnership.Text.Quoted
import NamespaceOwnership.Value.Basic

/-!
# Values in messages

`printed` shows a value with texts in quotes; `shown` is the same except that a text on its own stands
for itself.
-/
namespace NamespaceOwnership.Value

def quotedText (s : String) : String := String.ofList (Text.quoted s.toList)

mutual
def printed : Value → String
  | .null => "None"
  | .bool b => if b then "True" else "False"
  | .int n => toString n
  | .float x => x.text
  | .text s => quotedText s
  | .list items => "[" ++ printedItems items ++ "]"
  | .fields entries => "\x7b" ++ printedEntries entries ++ "\x7d"
def printedItems : List Value → String
  | [] => ""
  | [v] => v.printed
  | v :: w :: rest => v.printed ++ ", " ++ printedItems (w :: rest)
def printedEntries : List (String × Value) → String
  | [] => ""
  | [(k, v)] => quotedText k ++ ": " ++ v.printed
  | (k, v) :: e :: rest => quotedText k ++ ": " ++ v.printed ++ ", " ++ printedEntries (e :: rest)
end

def shown : Value → String
  | .text s => s
  | v => v.printed

@[simp] theorem shown_text (s : String) : shown (.text s) = s := rfl

/-- Only the empty text, which is not truthy, shows nothing. -/
theorem shown_ne_empty {v : Value} (h : v.truthy = true) : v.shown ≠ "" := by
  cases v with
  | null => cases h
  | bool b => cases b <;> simp [shown, printed]
  | int n =>
    simp only [shown, printed, Int.toString_eq_repr, Int.repr_eq_if]
    by_cases hn : 0 ≤ n
    · simp [hn]
    · simp [hn]
  | float x => exact x.text_ne_empty
  | text s => simpa [truthy] using h
  | list items => simp [shown, printed]
  | fields entries => simp [shown, printed]

end NamespaceOwnership.Value
