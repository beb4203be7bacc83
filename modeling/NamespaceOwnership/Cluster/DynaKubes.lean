import NamespaceOwnership.Calendar
import NamespaceOwnership.DynaKube
import NamespaceOwnership.Session.Basic

/-!
# Access to DynaKubes

A DynaKube that the API does not know is none. An object of a listing that has an invalid value is skipped
with a warning. Reporting a status fails only outside the calendar, where the report would have no date; what
else goes wrong is logged.
-/
namespace NamespaceOwnership.DynaKubes

def read (object : Value) : Attempt DynaKube :=
  match DynaKube.ofObject object with
  | .ok d => pure d
  | .error e => throw (.object e)

def get? (name : Value) : Attempt (Option DynaKube) := do
  match ← (Session.call (.getDynaKube name) : Session _) with
  | .ok object => return some (← read object)
  | .error failure =>
    if failure.status? = some 404 then return none else throw (.call failure)

def fieldsOf (v : Value) : Attempt (List (String × Value)) :=
  match DynaKube.fieldsOf v with
  | .ok entries => pure entries
  | .error e => throw (.object e)

/-- The items of a listing: those of a list, the keys of a mapping, the characters of a text. -/
def itemsOf (v : Value) : Attempt (List Value) :=
  match v with
  | .list items => pure items
  | .fields entries => pure (entries.map fun e => .text e.1)
  | .text s => pure (s.toList.map fun c => .text (String.singleton c))
  | _ => if v.truthy then throw (.object (.notIterable v.kindName)) else pure []

/-- Reads the items one after another and skips those with an invalid value. -/
def readAll : List Value → Attempt (List DynaKube)
  | [] => return []
  | object :: rest =>
    match DynaKube.ofObject object with
    | .ok d => return d :: (← readAll rest)
    | .error e => do
      if e.isInvalidValue then
        Session.warning ("Skipping invalid DynaKube object: " ++ e.message)
        readAll rest
      else throw (.object e)

/-- The DynaKubes in ascending order of their names, and the version of the listing. -/
def list : Attempt (List DynaKube × Value) := do
  let response ← fieldsOf (← Attempt.call .listDynaKubes)
  let found ← readAll (← itemsOf (Value.entry response "items"))
  let metadata ← fieldsOf (Value.entry response "metadata").orEmpty
  return (found.mergeSort (fun a b => decide (a.name ≤ b.name)),
    Value.entry metadata "resourceVersion")

def reportStatus (name : Value) (state message : String) : Attempt Unit := do
  let time := Calendar.ofMilliseconds (← Attempt.wallTime)
  let who := name.shown
  match ← Session.call (.patchStatus name ⟨state, message, time⟩) with
  | .ok _ => return
  | .error (.refused status reason) =>
    if status = some 404 then Session.debug s!"DynaKube {who} vanished before status update"
    else Session.warning (s!"Failed to update status of DynaKube {who}: " ++ reason.getD "None")
  | .error _ => Session.warning s!"Failed to update status of DynaKube {who}"

end NamespaceOwnership.DynaKubes
