import NamespaceOwnership.Cluster.DynaKubes
import NamespaceOwnership.Ledger
import NamespaceOwnership.Resolution
import NamespaceOwnership.Selector.Selection

/-!
# Mapping a DynaKube onto namespaces

`Mapper.map` first drops the claims of the DynaKube that are stale, those on a namespace that the selector
of the feature does not select or for a feature that is not enabled, and then claims the selected
namespaces in ascending order of their names. All features of one namespace are claimed with a single
update. A claim of another DynaKube that is live stops the call and leaves that namespace alone; what was
done before stays. `Mapper.unmap` drops all claims of a name.

An owner is live as long as it exists, enables the feature and selects the namespace. A selector that is
malformed counts as selecting everything, so that nobody loses a claim by it.
-/
namespace NamespaceOwnership

abbrev Claim := String × Feature

structure MappingResult where
  dynakube : Value
  accepted : List Claim
  reaffirmed : List Claim
  released : List Claim
  deriving BEq, Repr

def MappingResult.summary (r : MappingResult) : String :=
  s!"{r.accepted.length} claimed, {r.reaffirmed.length} unchanged, {r.released.length} released"

structure Mapper where
  ledger : Ledger
  operatorNamespace : String

/-- What a call keeps in mind: the other DynaKubes it has read, and the decisions on the namespace at
hand. -/
structure Memory where
  peers : List (String × Option DynaKube)
  decisions : List (Feature × Resolution)
  deriving Inhabited

abbrev Judging := StateT Memory Attempt

def Memory.decide (m : Memory) (f : Feature) (r : Resolution) : Memory :=
  { m with decisions := m.decisions.filter (·.1 != f) ++ [(f, r)] }

namespace Mapper

/-- The namespaces that each enabled feature is to be claimed on. All selectors are read before anything
is written. -/
def candidates (m : Mapper) (d : DynaKube) (namespaces : List NamespaceRecord) :
    Except Fault (List (Feature × List String)) :=
  d.enabled.mapM fun f => do
    let names ← selectedNames m.operatorNamespace (d.selectorFor f)
      (namespaces.map fun r => (r.name, r.labels))
    return (f, names)

/-- The claims that labels give to a name. -/
def heldBy (name : String) (namespaces : List NamespaceRecord) : List Claim :=
  namespaces.flatMap fun r =>
    ((Labels.owners r.labels).filter (·.2 == name)).map fun o => (r.name, o.1)

def staleClaims (name : String) (wanted : List (Feature × List String))
    (namespaces : List NamespaceRecord) : List Claim :=
  (heldBy name namespaces).filter fun c => !((wanted.lookup c.2).getD []).contains c.1

/-- The features to claim on each namespace, in ascending order of the namespaces. -/
def claimsByNamespace (wanted : List (Feature × List String)) : List (String × List Feature) :=
  let names := (wanted.flatMap (·.2)).eraseDups.mergeSort fun a b => decide (a ≤ b)
  names.map fun n => (n, wanted.flatMap fun w => List.replicate (w.2.count n) w.1)

/-- Reads another DynaKube at most once in a call. -/
def peer (name : String) : Judging (Option DynaKube) := do
  match (← get).peers.lookup name with
  | some known => return known
  | none =>
    let found ← (DynaKubes.get? (.text name) : Attempt _)
    modify fun s => { s with peers := (name, found) :: s.peers }
    return found

/-- Whether a selector that may be malformed holds on to a namespace. -/
def holdsOn (m : Mapper) (selector : Value) (space : String) (labels : Labels) :
    Except Fault Bool :=
  match selectsNamespace m.operatorNamespace selector space labels with
  | .error (.selector _) => .ok true
  | verdict => verdict

/-- The present owner, if it is the DynaKube itself or still has a right to its claim. -/
def liveOwner (m : Mapper) (self : String) (owner : Option String) (f : Feature) (space : String)
    (labels : Labels) : Judging (Option String) := do
  match owner with
  | none => return none
  | some other =>
    if other = self then return some other
    match ← peer other with
    | none => return none
    | some d =>
      if !d.enables f then return none
      match m.holdsOn (d.selectorFor f) space labels with
      | .ok live => return if live then some other else none
      | .error fault => throw fault

/-- Decides on each feature of a namespace; a live claim of another DynaKube is a conflict. -/
def judge (m : Mapper) (self space : String) : Ledger.Guard Memory := fun f owner labels => do
  let live ← m.liveOwner self owner f space labels
  let decision := resolve live self
  if decision = .conflict then
    Session.count (.ownershipConflicts f)
    throw (.ownership ⟨space, f, live.getD "", self⟩)
  if let some stale := owner then
    if live = none then
      Session.info (s!"Overwriting stale {f.name} owner {stale} on namespace {space} with " ++
        s!"dynakube {self}")
  modify (·.decide f decision)

/-- Records the decisions on a namespace after its update and returns the accepted and the reaffirmed
features. A claim is accepted only if the update was. -/
def settle (self space : String) (written : Bool) :
    List (Feature × Resolution) → Session (List Feature × List Feature)
  | [] => return ([], [])
  | (f, .alreadyOwned) :: rest => do
    Session.debug s!"Namespace {space} already owned by {self} for {f.name}"
    Session.count (.claims f .reaffirmed)
    let (accepted, reaffirmed) ← settle self space written rest
    return (accepted, f :: reaffirmed)
  | (f, _) :: rest => do
    if written then
      Session.info s!"Namespace {space} claimed by {self} for {f.name}"
      Session.count (.claims f .accepted)
      let (accepted, reaffirmed) ← settle self space written rest
      return (f :: accepted, reaffirmed)
    else settle self space written rest

def claimOne (m : Mapper) (self : String) (deadline : Option Int) (space : String)
    (features : List Feature) : Judging (List Feature × List Feature) := do
  modify fun s => { s with decisions := [] }
  let written ← m.ledger.write space features self (some (m.judge self space)) deadline
  settle self space written (← get).decisions

def claimAll (m : Mapper) (self : String) (deadline : Option Int) :
    List (String × List Feature) → Judging (List Claim × List Claim)
  | [] => return ([], [])
  | (space, features) :: rest => do
    Ledger.checkDeadline deadline s!"mapping dynakube {self}"
    let (accepted, reaffirmed) ← m.claimOne self deadline space features
    let (laterAccepted, laterReaffirmed) ← m.claimAll self deadline rest
    return (accepted.map (space, ·) ++ laterAccepted, reaffirmed.map (space, ·) ++ laterReaffirmed)

/-- Drops claims one after another and returns those that were dropped by this call. -/
def releaseAll (m : Mapper) (owner operation : String) (deadline : Option Int)
    (released : Claim → Session Unit) : List Claim → Attempt (List Claim)
  | [] => return []
  | c :: rest => do
    Ledger.checkDeadline deadline operation
    if ← m.ledger.remove c.1 c.2 (some owner) deadline then
      released c
      return c :: (← m.releaseAll owner operation deadline released rest)
    else m.releaseAll owner operation deadline released rest

def noteStale (self : String) (c : Claim) : Session Unit := do
  Session.info (s!"Released stale {c.2.name} claim of dynakube {self} on namespace {c.1}")
  Session.count (.releases c.2 .stale)

def map (m : Mapper) (d : DynaKube) (deadline : Option Int) : Attempt MappingResult := do
  let namespaces ← m.ledger.list
  let wanted ← m.candidates d namespaces
  let operation := s!"mapping dynakube {d.name}"
  let released ← m.releaseAll d.name operation deadline (noteStale d.name)
    (staleClaims d.name wanted namespaces)
  let (accepted, reaffirmed) ←
    (m.claimAll d.name deadline (claimsByNamespace wanted)).run' ⟨[], []⟩
  let result : MappingResult := ⟨.text d.name, accepted, reaffirmed, released⟩
  Session.info (s!"Mapped dynakube {d.name}: " ++ result.summary)
  return result

def claimsOf (name : Value) (namespaces : List NamespaceRecord) : List Claim :=
  match name with
  | .text s => heldBy s namespaces
  | _ => []

def unmap (m : Mapper) (name : Value) (deadline : Option Int) : Attempt MappingResult := do
  let namespaces ← m.ledger.list
  let operation := "unmapping dynakube " ++ name.shown
  let released ← m.releaseAll name.shown operation deadline
    (fun c => Session.count (.releases c.2 .unmapped)) (claimsOf name namespaces)
  let result : MappingResult := ⟨name, [], [], released⟩
  Session.info ("Unmapped dynakube " ++ name.shown ++ ": " ++ result.summary)
  return result

end Mapper
end NamespaceOwnership
