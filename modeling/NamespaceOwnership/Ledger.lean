import NamespaceOwnership.Cluster.Namespaces

/-!
# The ledger of owners

Who owns a feature of a namespace is written in the labels of the namespace. Every change reads the
namespace, works out the new labels and annotations, and updates the namespace at the version that was
read. If another writer was faster, all of that is done again on a fresh reading, up to a limit; a
namespace that is gone is left alone.
-/
namespace NamespaceOwnership

/-- How often an update is attempted. -/
structure Ledger where
  attempts : Nat
  attempts_pos : 0 < attempts

namespace Ledger

def ofLimit (limit : Int) : Except Fault Ledger :=
  if h : 0 < limit.toNat then .ok ⟨limit.toNat, h⟩
  else .error (.invalid "retry_limit must be >= 1")

/-- Fails once the deadline has passed. -/
def checkDeadline (deadline : Option Int) (operation : String) : Attempt Unit := do
  match deadline with
  | none => return
  | some limit => if limit ≤ (← Session.clock) then throw (.deadline operation)

def list (_ : Ledger) : Attempt (List NamespaceRecord) := Namespaces.list none

def read (_ : Ledger) (space : String) : Attempt (List (Feature × String)) := do
  match ← (Namespaces.get space).outcome with
  | .ok record => return Labels.owners record.labels
  | .error (.namespaceMissing _) => return []
  | .error fault => throw fault

/-- Labels and annotations to write in place of those that were read. It may make calls of its own and
keeps a state from one attempt to the next. -/
abbrev Change (σ : Type) :=
  Labels → Annotations → StateT σ Attempt (Labels × Annotations)

/-- Whether the change leaves the record as it is. -/
def unchanged (record : NamespaceRecord) (new : Labels × Annotations) : Bool :=
  new.1.same record.labels && new.2.same record.annotations

/-- The attempts that are left, the next of which has the given number. The answer is whether an update
was accepted. -/
def modify {σ : Type} (l : Ledger) (space operation : String) (deadline : Option Int)
    (change : Change σ) : (left : Nat) → StateT σ Attempt Bool
  | 0 => do
    Session.count .storeConflicts
    throw (.storeConflict space l.attempts)
  | left + 1 => do
    checkDeadline deadline operation
    match ← (Namespaces.get space).outcome with
    | .error (.namespaceMissing _) =>
      Session.info s!"Namespace {space} no longer exists; skipping {operation}"
      return false
    | .error fault => throw fault
    | .ok record =>
      let new ← change record.labels record.annotations
      if unchanged record new then return false
      match ← (Namespaces.update space ⟨record.version, new.1, new.2⟩).outcome with
      | .ok _ => return true
      | .error (.versionConflict _ _) =>
        Session.count .versionConflictRetries
        let number := l.attempts - left
        Session.info (s!"Namespace {space} changed during {operation} (attempt {number}/" ++
          s!"{l.attempts}); retrying")
        modify l space operation deadline change left
      | .error (.namespaceMissing _) =>
        Session.info s!"Namespace {space} disappeared during {operation}"
        return false
      | .error fault => throw fault

/-- Is shown a feature, its present owner and all labels before anything is written, and may object. -/
abbrev Guard (σ : Type) := Feature → Option String → Labels → StateT σ Attempt Unit

def claimed (owner : String) (features : List Feature) (labels : Labels) : Labels :=
  features.foldl (fun ls f => TextMap.set ls f.labelKey owner) labels

def marked (annotations : Annotations) : Annotations := TextMap.set annotations markerKey "true"

/-- Shows every feature to the guard. -/
def consult {σ : Type} (guard : Guard σ) (labels : Labels) (features : List Feature) :
    StateT σ Attempt Unit :=
  features.forM fun f => do
    let present := Labels.owner? labels f
    Session.note (.examined f present labels)
    guard f present labels

def claim {σ : Type} (features : List Feature) (owner : String) (guard : Option (Guard σ)) :
    Change σ := fun labels annotations => do
  match guard with
  | none => pure ()
  | some guard => consult guard labels features
  return (claimed owner features labels, marked annotations)

/-- Makes one owner the owner of several features with a single update. The guard sees every feature of
each fresh reading before any label is set. -/
def write {σ : Type} (l : Ledger) (space : String) (features : List Feature) (owner : String)
    (guard : Option (Guard σ)) (deadline : Option Int) : StateT σ Attempt Bool :=
  let names := ", ".intercalate (features.map Feature.name)
  l.modify space s!"claim {names} on {space}" deadline (claim features owner guard) l.attempts

def release (space : String) (feature : Feature) (owner : Option String) : Change Unit :=
  fun labels annotations => do
    match TextMap.get? labels feature.labelKey with
    | none => return (labels, annotations)
    | some present =>
      match owner with
      | some expected =>
        if present = expected then
          return (TextMap.erase labels feature.labelKey, marked annotations)
        else
          Session.info (s!"Not releasing {feature.name} on namespace {space}: now owned by " ++
            s!"{present} instead of {expected}")
          return (labels, annotations)
      | none => return (TextMap.erase labels feature.labelKey, marked annotations)

/-- Drops the label of a feature; if an owner is given, only while the label names that owner. -/
def remove (l : Ledger) (space : String) (feature : Feature) (owner : Option String)
    (deadline : Option Int) : Attempt Bool :=
  (l.modify space s!"release {feature.name} on {space}" deadline (release space feature owner)
    l.attempts).run' ()

end Ledger
end NamespaceOwnership
