import NamespaceOwnership.Number.Binary64

/-!
# Raw values

Custom objects and selectors arrive as trees of unknown shape. A mapping keeps its entries in the
order of arrival. A value is truthy unless it is null, false, zero or empty.
-/
namespace NamespaceOwnership

open Number (Binary64)

inductive Value where
  | null
  | bool (b : Bool)
  | int (n : Int)
  | float (x : Binary64)
  | text (s : String)
  | list (items : List Value)
  | fields (entries : List (String × Value))
  deriving BEq, Repr, Inhabited

namespace Value

def isNull : Value → Bool
  | .null => true
  | _ => false

def truthy : Value → Bool
  | .null => false
  | .bool b => b
  | .int n => n != 0
  | .float x => !x.isZero
  | .text s => s != ""
  | .list items => !items.isEmpty
  | .fields entries => !entries.isEmpty

/-- The name of the kind of a value in messages. -/
def kindName : Value → String
  | .null => "NoneType"
  | .bool _ => "bool"
  | .int _ => "int"
  | .float _ => "float"
  | .text _ => "str"
  | .list _ => "list"
  | .fields _ => "dict"

/-- The value of a field of a mapping, null where the field is missing. -/
def entry (entries : List (String × Value)) (key : String) : Value := (entries.lookup key).getD .null

/-- The entries of a mapping; none of another value. -/
def entries? : Value → Option (List (String × Value))
  | .fields entries => some entries
  | _ => none

/-- The value itself if it is truthy, otherwise the empty mapping. -/
def orEmpty (v : Value) : Value := if v.truthy then v else .fields []

/-- Lists and mappings name nothing: they cannot be looked up in a table. -/
def isScalar : Value → Bool
  | .list _ | .fields _ => false
  | _ => true

private def numeric? : Value → Option (Int ⊕ Binary64)
  | .bool b => some (.inl (if b then 1 else 0))
  | .int n => some (.inl n)
  | .float x => some (.inr x)
  | _ => none

/-- Two scalars name the same thing: texts and null by equality, numbers and truth values by the number
that they stand for. -/
def sameName : Value → Value → Bool
  | .text a, .text b => a == b
  | .null, .null => true
  | a, b =>
    match a.numeric?, b.numeric? with
    | some (.inl m), some (.inl n) => m == n
    | some (.inl m), some (.inr x) | some (.inr x), some (.inl m) => x.isInt m
    | some (.inr x), some (.inr y) => x == y || x.isZero && y.isZero
    | _, _ => false

@[simp] theorem sameName_text_iff {a b : String} :
    sameName (.text a) (.text b) = true ↔ a = b := by
  simp [sameName]

/-- Nothing but a text names the same thing as a text. -/
theorem text_sameName_iff {text : String} {v : Value} : (Value.text text).sameName v = true ↔ v = .text text := by
  cases v with
  | text s => simpa using eq_comm
  | _ => simp [sameName, numeric?]

theorem sameName_eq_text_iff {text : String} {v : Value} : v.sameName (.text text) = true ↔ v = .text text := by
  cases v <;> simp [sameName, numeric?]

/-- Lists and mappings do not even name the same thing as themselves. -/
theorem sameName_of_not_scalar {v w : Value} (h : w.isScalar = false) : v.sameName w = false := by
  cases w with
  | list items => cases v <;> rfl
  | fields entries => cases v <;> rfl
  | _ => cases h

end Value
end NamespaceOwnership
