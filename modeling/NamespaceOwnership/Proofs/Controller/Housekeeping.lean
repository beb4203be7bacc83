import NamespaceOwnership.Proofs.Controller.Closure

/-!
# What an operation consists of besides its attempt

To reconcile a DynaKube or to unmap a name is to make one attempt and to see to what follows from its outcome: the clock
is read, the books are changed, and a status is reported. A property that holds of these parts (`Control.Housekeeping`)
holds of the operation as soon as it holds of the attempt. None of the parts moves the next resync.
-/
namespace NamespaceOwnership

open Controller (repeatLater)

/-- It holds of the steps after an attempt, apart from the notes on how the attempt went. -/
structure Control.Housekeeping (P : ∀ {α : Type}, Control α → Prop) : Prop extends Control.Closed P where
  modify : ∀ g : Books → Books, (∀ b, (g b).nextResync = b.nextResync) → P (modify g : Control PUnit)
  pending : ∀ size, P (liftM (Session.note (.pending size)) : Control Unit)
  clock : P (liftM Session.clock : Control Int)
  report : ∀ (name : String) (state message : String),
    P (Control.attempt (DynaKubes.reportStatus (.text name) state message))

namespace Control.Housekeeping

variable {P : ∀ {α : Type}, Control α → Prop} {k : Controller}

theorem clearRetry (hP : Housekeeping P) (name : Value) : P (Controller.clearRetry name) := by
  refine hP.bind hP.get fun b => hP.bind (hP.requireErasable _ name) fun _ => ?_
  refine hP.bind (hP.modify _ fun _ => rfl) fun _ => ?_
  refine hP.bind hP.get fun b => hP.bind (hP.requireErasable _ name) fun _ => ?_
  refine hP.bind (hP.modify _ fun _ => rfl) fun _ => ?_
  exact hP.bind hP.get fun b => hP.pending _

theorem forget (hP : Housekeeping P) (name : Value) : P (Controller.forget name) := by
  refine hP.bind hP.get fun b => hP.bind (hP.requireErasable _ name) fun _ => ?_
  refine hP.bind (hP.modify _ fun _ => rfl) fun _ => ?_
  exact hP.bind hP.get fun b => hP.bind (hP.requireErasable _ name) fun _ => hP.modify _ fun _ => rfl

theorem repeatLater (hP : Housekeeping P) (name : Value) : P (repeatLater name) := by
  refine hP.bind hP.clock fun now => hP.bind (hP.lookUp _ name) fun failures => ?_
  refine hP.bind (hP.modify _ fun _ => rfl) fun _ => ?_
  split
  · exact hP.throw _
  · refine hP.bind (hP.modify _ fun _ => rfl) fun _ => hP.bind ?_ fun _ => hP.note trivial
    exact hP.bind hP.get fun b => hP.pending _

theorem reportStatus (hP : Housekeeping P) (name : String) (state : MappingState) (message : String) :
    P (Controller.reportStatus name state message) := by
  refine hP.bind hP.get fun b => ?_
  split
  · exact hP.pure _
  · exact hP.bind (hP.report _ _ _) fun _ => hP.modify _ fun _ => rfl

section Operations

variable (hP : Housekeeping P) (hresult : ∀ result, P (liftM (Session.count (.reconciles result)) : Control Unit))
  (helapsed : ∀ milliseconds, P (liftM (Session.note (.elapsed milliseconds)) : Control Unit))

include hP hresult

theorem failed (d : DynaKube) (fault : Fault) : P (Controller.failed d fault) := by
  have hrepeat (level : LogLevel) (text : String) (result : ReconcileResult) (state : MappingState)
      (message : String) : P (do
        Session.log level text
        Session.count (.reconciles result)
        Controller.reportStatus d.name state message
        Controller.repeatLater (.text d.name) : Control Unit) :=
    hP.bind (hP.note trivial) fun _ => hP.bind (hresult _) fun _ => hP.bind (hP.reportStatus _ _ _) fun _ =>
      hP.repeatLater _
  cases fault with
  | selector error =>
    refine hP.bind (hP.note trivial) fun _ => hP.bind (hresult _) fun _ => hP.bind (hP.reportStatus _ _ _) fun _ => ?_
    exact hP.bind (hP.clearRetry _) fun _ => hP.modify _ fun _ => rfl
  | _ => exact hrepeat _ _ _ _ _

include helapsed

omit hresult in
theorem timed {α : Type} {body : Control α} (h : P body) : P (Controller.timed body) := by
  refine hP.bind hP.clock fun started => hP.outcome_bind h fun result => ?_
  refine hP.bind hP.clock fun ended => hP.bind (helapsed _) fun _ => ?_
  cases result with
  | ok a => exact hP.pure a
  | error fault => exact hP.throw fault

theorem reconcile {d : DynaKube} (h : P (Control.attempt (k.withDeadline fun t => k.mapper.map d (some t)))) :
    P (k.reconcile d) := by
  refine hP.bind (hP.timed helapsed (hP.outcome_bind h fun r => ?_)) fun mapped => ?_
  · cases r with
    | ok result => exact hP.pure _
    | error fault => exact hP.bind (hP.failed hresult d fault) fun _ => hP.pure _
  · cases mapped with
    | none => exact hP.pure _
    | some result =>
      refine hP.bind (hresult _) fun _ => hP.bind (hP.reportStatus _ _ _) fun _ => ?_
      exact hP.bind (hP.clearRetry _) fun _ => hP.bind (hP.modify _ fun _ => rfl) fun _ => hP.pure _

theorem unmap {name : Value} (h : P (Control.attempt (k.withDeadline fun t => k.mapper.unmap name (some t)))) :
    P (k.unmap name) := by
  refine hP.bind (hP.timed helapsed (hP.outcome_bind h fun r => ?_)) fun unmapped => ?_
  · cases r with
    | ok result => exact hP.pure _
    | error fault =>
      refine hP.bind (hP.note trivial) fun _ => hP.bind (hresult _) fun _ => ?_
      exact hP.bind (hP.repeatLater name) fun _ => hP.pure _
  · cases unmapped with
    | none => exact hP.pure _
    | some result =>
      refine hP.bind (hresult _) fun _ => hP.bind (hP.clearRetry name) fun _ => ?_
      exact hP.bind (hP.forget name) fun _ => hP.pure _

end Operations

end Control.Housekeeping

end NamespaceOwnership
