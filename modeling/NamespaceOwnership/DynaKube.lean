import NamespaceOwnership.Fault
import NamespaceOwnership.Text.Flag

/-!
# DynaKubes

A DynaKube enables features, each with a namespace selector of its own or with the selector of the whole
resource. Selectors stay in raw form: a malformed one is reported when it is used and does not make the
resource unreadable. `DynaKube.ofObject` reads a custom object.
-/
namespace NamespaceOwnership

structure DynaKube where
  name : String
  selector : Value
  features : List (Feature × Value)
  generation : Option Int
  deriving BEq, Repr

namespace DynaKube

def enables (d : DynaKube) (f : Feature) : Bool := (d.features.lookup f).isSome

def enabled (d : DynaKube) : List Feature := Feature.all.filter d.enables

/-- The selector of the feature itself where there is one, otherwise that of the resource. -/
def selectorFor (d : DynaKube) (f : Feature) : Value :=
  match d.features.lookup f with
  | some own => if own.isNull then d.selector else own
  | none => d.selector

/-- The entries of a mapping; a value of another kind has no fields. -/
def fieldsOf (v : Value) : Except ObjectError (List (String × Value)) :=
  match v with
  | .fields entries => .ok entries
  | _ => .error (.noFields v.kindName)

/-- A text is read like a flag of the settings. -/
def readEnabled (f : Feature) (flag : Value) : Except ObjectError Bool :=
  match flag with
  | .bool b => .ok b
  | .text s => .ok (Text.readFlag (some s) false)
  | _ => .error (.flagNotBoolean f flag)

/-- What a section of the specification says about its feature: none if it is not enabled, otherwise the
selector of the feature, which may be null. -/
def readSection (f : Feature) (part : Value) : Except ObjectError (Option Value) :=
  match part with
  | .fields entries => do
    let on ← readEnabled f ((entries.lookup "enabled").getD (.bool true))
    return if on then some (Value.entry entries "namespaceSelector") else none
  | .bool true => .ok (some .null)
  | _ => .ok none

def readFeatures (specification : List (String × Value)) :
    List Feature → Except ObjectError (List (Feature × Value))
  | [] => .ok []
  | f :: rest => do
    let part ← readSection f (Value.entry specification f.name)
    let others ← readFeatures specification rest
    return match part with
      | some own => (f, own) :: others
      | none => others

def readGeneration (generation : Value) : Except ObjectError (Option Int) :=
  match generation with
  | .null => .ok none
  | .bool b => .ok (some (if b then 1 else 0))
  | .int n => .ok (some n)
  | .float x =>
    match x.truncate? with
    | some n => .ok (some n)
    | none => .error (if x = .undefined then .undefined else .infinite)
  | .text s =>
    match Number.readInteger s with
    | .ok n => .ok (some n)
    | .error e => .error (.badInteger e)
  | _ => .error (.notANumber generation.kindName)

def ofObject (object : Value) : Except ObjectError DynaKube := do
  let entries ← fieldsOf object
  let metadata ← fieldsOf (Value.entry entries "metadata").orEmpty
  let name := Value.entry metadata "name"
  if !name.truthy then throw .nameless
  let specification ← fieldsOf (Value.entry entries "spec").orEmpty
  let features ← readFeatures specification Feature.all
  let generation ← readGeneration (Value.entry metadata "generation")
  return ⟨name.shown, Value.entry specification "namespaceSelector", features, generation⟩

private theorem ok_of_bind {ε α β : Type} {x : Except ε α} {f : α → Except ε β} {b : β}
    (h : x >>= f = .ok b) : ∃ a, x = .ok a ∧ f a = .ok b := by
  cases x with
  | error e => cases h
  | ok a => exact ⟨a, rfl, h⟩

/-- A DynaKube that was read has the name in the metadata of its object, which is not empty. -/
theorem exists_named {object : Value} {d : DynaKube} (h : ofObject object = .ok d) :
    ∃ entries metadata, fieldsOf object = .ok entries ∧
      fieldsOf (Value.entry entries "metadata").orEmpty = .ok metadata ∧
      (Value.entry metadata "name").truthy = true ∧ d.name = (Value.entry metadata "name").shown := by
  obtain ⟨entries, hentries, hrest⟩ := ok_of_bind h
  obtain ⟨metadata, hmetadata, hrest⟩ := ok_of_bind hrest
  refine ⟨entries, metadata, hentries, hmetadata, ?_⟩
  cases hname : (Value.entry metadata "name").truthy with
  | false =>
    simp only [hname] at hrest
    cases hrest
  | true =>
    simp only [hname] at hrest
    obtain ⟨specification, -, hrest⟩ := ok_of_bind hrest
    obtain ⟨features, -, hrest⟩ := ok_of_bind hrest
    obtain ⟨generation, -, hrest⟩ := ok_of_bind hrest
    cases hrest
    exact ⟨rfl, rfl⟩

theorem name_ne_empty {object : Value} {d : DynaKube} (h : ofObject object = .ok d) : d.name ≠ "" := by
  obtain ⟨entries, metadata, -, -, htruthy, hname⟩ := exists_named h
  rw [hname]
  exact Value.shown_ne_empty htruthy

end DynaKube
end NamespaceOwnership
