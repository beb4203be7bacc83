import NamespaceOwnership.Proofs.Composed
import NamespaceOwnership.Proofs.Controller.Bookkeeping
import NamespaceOwnership.Proofs.Controller.Housekeeping
import NamespaceOwnership.Proofs.Mapping.Warrants

/-!
# What the controller is composed of

All that the controller does is composed of calls of its mapper and of work that writes to no namespace. So the
patches of a task are those of its calls, and which calls these are is told here for each operation.
-/
namespace NamespaceOwnership.Controller

open Control (Composed)
open Mapper (Call)
open Number (Binary64)

variable {α ρ : Type} {part : Attempt ρ → Prop} {k : Controller} {calls : Call → Prop}

theorem composed_closed : Control.Closed fun x => Composed part x where
  pure _ := .pure
  throw _ := .throw
  get := .get
  note _ := .note _
  bind := .bind
  outcome_bind hx hf := .bind hx.outcome hf

theorem composed_housekeeping : Control.Housekeeping fun x => Composed part x where
  toClosed := composed_closed
  modify g _ := .sparing (.modify g)
  pending _ := .note _
  clock := .sparing Control.clock_sparing
  report _ _ _ := .sparing (.attempt (DynaKubes.reportStatus_within Request.allowsDealing_sparing _ _ _))

/-- A call of such a kind under a deadline. -/
def Makes (k : Controller) (calls : Call → Prop) (x : Attempt MappingResult) : Prop :=
  ∃ call limit, calls call ∧ x = call.attempt k.mapper (some limit)

theorem Makes.mono {calls' : Call → Prop} {x : Attempt MappingResult} (hx : k.Makes calls x)
    (h : ∀ call, calls call → calls' call) : k.Makes calls' x := by
  obtain ⟨call, limit, hcall, rfl⟩ := hx
  exact ⟨call, limit, h call hcall, rfl⟩

theorem withDeadline_composed {body : Int → Attempt α} (h : ∀ limit, (body limit).run.Composed part) :
    (k.withDeadline body).run.Composed part := by
  have hclock : (liftM Session.clock : Attempt Int).run.Within Request.Sparing := ⟨rfl, fun _ => trivial⟩
  refine Attempt.composed_bind (.sparing hclock) fun now => ?_
  exact Attempt.composed_bind (.sparing (later_sparing _ _)) h

theorem reconcile_composed (d : DynaKube) : Composed (k.Makes (· = .mapping d)) (k.reconcile d) := by
  have hmap : (k.withDeadline fun t => k.mapper.map d (some t)).run.Composed (k.Makes (· = .mapping d)) :=
    withDeadline_composed fun limit => .part ⟨.mapping d, limit, rfl, rfl⟩
  exact composed_housekeeping.reconcile (fun _ => .note _) (fun _ => .note _) (.attempt hmap)

theorem unmap_composed (name : Value) : Composed (k.Makes (· = .unmapping name)) (k.unmap name) := by
  have hunmap : (k.withDeadline fun t => k.mapper.unmap name (some t)).run.Composed (k.Makes (· = .unmapping name)) :=
    withDeadline_composed fun limit => .part ⟨.unmapping name, limit, rfl, rfl⟩
  exact composed_housekeeping.unmap (fun _ => .note _) (fun _ => .note _) (.attempt hunmap)

theorem reconcileAll_composed (ds : List DynaKube) :
    Composed (k.Makes fun call => ∃ d ∈ ds, call = .mapping d) (k.reconcileAll ds) :=
  composed_closed.reconcileAll fun d hd =>
    (reconcile_composed d).mono fun _ hx => hx.mono fun _ hcall => ⟨d, hd, hcall⟩

theorem unmapOrphans_composed (todo : List String) :
    Composed (k.Makes fun call => ∃ orphan ∈ todo, call = .unmapping (.text orphan)) (k.unmapOrphans todo) :=
  composed_closed.unmapOrphans fun orphan horphan =>
    (unmap_composed (.text orphan)).mono fun _ hx => hx.mono fun _ hcall => ⟨orphan, horphan, hcall⟩

/-- What follows the listing of the DynaKubes in a resync. -/
def resyncListed (k : Controller) (ds : List DynaKube) (version : Value) : Control Value := do
  k.reconcileAll ds
  let namespaces ← Control.attempt k.mapper.ledger.list
  k.unmapOrphans (orphans (ds.map (·.name)) namespaces)
  k.planResync
  return version

/-- It maps them and unmaps others. -/
theorem resyncListed_composed (ds : List DynaKube) (version : Value) :
    Composed (k.Makes fun call => (∃ d ∈ ds, call = .mapping d) ∨
      ∃ orphan, orphan ∉ ds.map (·.name) ∧ call = .unmapping (.text orphan)) (k.resyncListed ds version) := by
  refine .bind ((reconcileAll_composed ds).mono fun x hx => hx.mono fun call => .inl) fun _ => ?_
  refine .bind (.sparing (.attempt k.mapper.list_sparing)) fun namespaces => ?_
  refine .bind ((unmapOrphans_composed _).mono fun x hx => hx.mono fun call ⟨orphan, horphan, hcall⟩ => .inr ?_)
    fun _ => ?_
  · exact ⟨orphan, (mem_orphans.mp horphan).1, hcall⟩
  · exact .bind (.sparing (planResync_sparing k)) fun _ => .pure

/-- The resync that comes round now and then. One that is refused is put off. -/
def periodicResync (k : Controller) : Control Unit := do
  Session.info "Starting periodic resync of all dynakubes"
  match ← k.resync.outcome with
  | .ok _ => return
  | .error (.call (.refused _ _)) =>
    Session.error "Periodic resync failed"
    k.planResync
  | .error fault => throw fault

theorem drain_eq (k : Controller) (now : Binary64) : k.drain now = (do
    k.retryAll ((← get).due now)
    if (← get).nextResync.any (·.le now) then k.periodicResync) := rfl

/-- A call, whatever it is for. -/
def Calls (k : Controller) : Attempt MappingResult → Prop := k.Makes fun _ => True

theorem reconcile_calls (d : DynaKube) : Composed k.Calls (k.reconcile d) :=
  (reconcile_composed d).mono fun _ hx => hx.mono fun _ _ => trivial

theorem unmap_calls (name : Value) : Composed k.Calls (k.unmap name) :=
  (unmap_composed name).mono fun _ hx => hx.mono fun _ _ => trivial

theorem resync_calls (k : Controller) : Composed k.Calls k.resync := by
  refine .bind (.sparing (.attempt DynaKubes.list_sparing)) fun listed => ?_
  exact (resyncListed_composed listed.1 listed.2).mono fun _ hx => hx.mono fun _ _ => trivial

theorem retry_calls (name : Value) : Composed k.Calls (k.retry name) := by
  have hget : (DynaKubes.get? name).run.Within Request.Sparing :=
    (DynaKubes.get?_within name).mono fun request ⟨_, h⟩ => by rw [h]; rfl
  exact composed_closed.retry (.sparing (.attempt hget)) (unmap_calls name) reconcile_calls

theorem drain_calls (now : Binary64) : Composed k.Calls (k.drain now) :=
  composed_closed.drain (composed_closed.retryAll retry_calls composed_housekeeping.repeatLater) k.resync_calls
    (.sparing (planResync_sparing k)) now

theorem handleObject_calls (change : Change) (name object : Value) :
    Composed k.Calls (k.handleObject change name object) :=
  composed_closed.handleObject change name fun d _ => reconcile_calls d

theorem handleEvent_calls (type : String) (object : Value) : Composed k.Calls (k.handleEvent type object) := by
  refine composed_closed.handleEvent (fun v => ?_) (fun name text => ?_) handleObject_calls type object
  · exact .sparing (.attempt (DynaKubes.fieldsOf_within v))
  · exact .bind (.note _) fun _ => .bind (composed_housekeeping.clearRetry name) fun _ => unmap_calls name

theorem perform_calls (task : Task) : Composed k.Calls (k.perform task) := by
  cases task with
  | event type object => exact .bind (handleEvent_calls type object) fun _ => .pure
  | reconcile d => exact .bind (reconcile_calls d) fun _ => .pure
  | unmap name => exact .bind (unmap_calls name) fun _ => .pure
  | resync => exact .bind k.resync_calls fun _ => .pure
  | drain now => exact drain_calls now

theorem performAll_calls (tasks : List Task) : Composed k.Calls (k.performAll tasks) :=
  composed_closed.performAll fun task _ => perform_calls task

end NamespaceOwnership.Controller
