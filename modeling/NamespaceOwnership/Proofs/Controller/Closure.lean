import NamespaceOwnership.Controller.Loop
import NamespaceOwnership.Proofs.Controller.Tasks
import NamespaceOwnership.Proofs.Course

/-!
# What holds of the parts holds of the whole

The operations of the controller are put together from others in a few ways. A property that each of these ways
preserves (`Control.Closed`) holds of an operation as soon as it holds of its parts, so that how an operation is put
together need not be looked at for each property again.
-/
namespace NamespaceOwnership

open Number (Binary64)

/-- A line of the log, or a note on the watch. -/
def Note.Plain : Note → Prop
  | .log _ _ | .count .watchErrors | .count .watchReconnects => True
  | _ => False

theorem Note.Plain.quiet {n : Note} (h : n.Plain) : n.Quiet := by
  unfold Plain at h
  split at h
  · trivial
  · trivial
  · trivial
  · exact h.elim

/-- A property of programs that is preserved when they are put together. -/
structure Control.Closed (P : ∀ {α : Type}, Control α → Prop) : Prop where
  pure : ∀ {α : Type} (a : α), P (pure a : Control α)
  throw : ∀ {α : Type} (fault : Fault), P (throw fault : Control α)
  get : P (get : Control Books)
  note : ∀ {n : Note}, n.Plain → P (liftM (Session.note n) : Control Unit)
  bind : ∀ {α β : Type} {x : Control α} {f : α → Control β}, P x → (∀ a, P (f a)) → P (x >>= f)
  outcome_bind : ∀ {α β : Type} {x : Control α} {f : Except Fault α → Control β},
    P x → (∀ r, P (f r)) → P (x.outcome >>= f)

namespace Control.Closed

open Controller (Change Task orphans fieldsOf repeatLater clearRetry)

variable {P : ∀ {α : Type}, Control α → Prop} {k : Controller}

theorem lookUp {α : Type} (hP : Closed P) (read : Books → NameTable α) (name : Value) :
    P (Control.lookUp read name) := by
  unfold Control.lookUp
  split
  · exact hP.bind hP.get fun _ => hP.pure _
  · exact hP.throw _

theorem requireErasable {α : Type} (hP : Closed P) (t : NameTable α) (name : Value) :
    P (Control.requireErasable t name) := by
  unfold Control.requireErasable
  split
  · exact hP.throw _
  · exact hP.pure _

theorem upToDate (hP : Closed P) (name : Value) (generation : Option Int) :
    P (Controller.upToDate name generation) := by
  unfold Controller.upToDate
  split
  · exact hP.pure _
  · refine hP.bind (hP.lookUp _ name) fun seen => ?_
    cases seen with
    | none => exact hP.pure _
    | some seen => exact hP.bind hP.get fun b => hP.pure _

theorem reconcileAll (hP : Closed P) {ds : List DynaKube} (h : ∀ d ∈ ds, P (k.reconcile d)) :
    P (k.reconcileAll ds) := by
  induction ds with
  | nil => exact hP.pure _
  | cons d rest ih =>
    have hrest : ∀ other ∈ rest, P (k.reconcile other) := fun other hmem => h other (List.mem_cons_of_mem _ hmem)
    exact hP.bind (h d List.mem_cons_self) fun _ => ih hrest

theorem unmapOrphans (hP : Closed P) {todo : List String} (h : ∀ orphan ∈ todo, P (k.unmap (.text orphan))) :
    P (k.unmapOrphans todo) := by
  induction todo with
  | nil => exact hP.pure _
  | cons orphan rest ih =>
    have hrest : ∀ other ∈ rest, P (k.unmap (.text other)) := fun other hmem => h other (List.mem_cons_of_mem _ hmem)
    exact hP.bind (hP.note trivial) fun _ => hP.bind (h orphan List.mem_cons_self) fun _ => ih hrest

theorem retry (hP : Closed P) {name : Value} (hget : P (Control.attempt (DynaKubes.get? name)))
    (hunmap : P (k.unmap name)) (hreconcile : ∀ d, P (k.reconcile d)) : P (k.retry name) := by
  refine hP.bind hget fun found => ?_
  cases found with
  | none => exact hP.bind hunmap fun _ => hP.pure _
  | some d => exact hP.bind (hreconcile d) fun _ => hP.pure _

theorem retryAll (hP : Closed P) (hretry : ∀ name, P (k.retry name)) (hrepeat : ∀ name, P (repeatLater name))
    (names : List Value) : P (k.retryAll names) := by
  induction names with
  | nil => exact hP.pure _
  | cons name rest ih =>
    refine hP.bind (hP.note trivial) fun _ => hP.outcome_bind (hretry name) fun result => ?_
    cases result with
    | ok _ => exact ih
    | error fault =>
      cases fault with
      | call failure =>
        cases failure with
        -- only a refusal is put up with; all else ends the pass
        | refused status reason => exact hP.bind (hP.note trivial) fun _ => hP.bind (hrepeat name) fun _ => ih
        | _ => exact hP.throw _
      | _ => exact hP.throw _

theorem drain (hP : Closed P) (hretry : ∀ names, P (k.retryAll names)) (hresync : P k.resync) (hplan : P k.planResync)
    (now : Binary64) : P (k.drain now) := by
  refine hP.bind hP.get fun b => hP.bind (hretry _) fun _ => hP.bind hP.get fun b => ?_
  split
  · refine hP.bind (hP.note trivial) fun _ => hP.outcome_bind hresync fun result => ?_
    cases result with
    | ok _ => exact hP.pure _
    | error fault =>
      cases fault with
      | call failure =>
        cases failure with
        | refused status reason => exact hP.bind (hP.note trivial) fun _ => hplan
        | _ => exact hP.throw _
      | _ => exact hP.throw _
  · exact hP.pure _

theorem handleObject (hP : Closed P) (change : Change) (name : Value) {object : Value}
    (hreconcile : ∀ d, DynaKube.ofObject object = .ok d → P (k.reconcile d)) :
    P (k.handleObject change name object) := by
  unfold Controller.handleObject
  split
  · split
    · exact hP.bind (hP.note trivial) fun _ => hP.pure _
    · exact hP.throw _
  · rename_i d hobject
    refine hP.bind (hP.upToDate _ _) fun known => ?_
    split
    · exact hP.bind (hP.note trivial) fun _ => hP.pure _
    · exact hreconcile d hobject

theorem handleEvent (hP : Closed P) (hfields : ∀ v, P (fieldsOf v))
    (hdeleted : ∀ name text, P (do Session.info text; clearRetry name; k.unmap name))
    (hobject : ∀ change name object, P (k.handleObject change name object)) (type : String) (object : Value) :
    P (k.handleEvent type object) := by
  unfold Controller.handleEvent
  cases Change.ofName? type with
  | none => exact hP.pure _
  | some change =>
  cases object.entries? with
  | none => exact hP.pure _
  | some entries =>
  refine hP.bind (hfields _) fun metadata => ?_
  dsimp only
  split
  · exact hP.bind (hP.note trivial) fun _ => hP.pure _
  split
  · exact hdeleted _ _
  · exact hobject _ _ _

theorem performAll (hP : Closed P) {tasks : List Task} (h : ∀ task ∈ tasks, P (k.perform task)) :
    P (k.performAll tasks) := by
  induction tasks with
  | nil => exact hP.pure _
  | cons task rest ih =>
    have hrest : ∀ other ∈ rest, P (k.perform other) := fun other hmem => h other (List.mem_cons_of_mem _ hmem)
    exact hP.outcome_bind (h task List.mem_cons_self) fun _ => ih hrest

section Loop

open Controller (Phase pause setReady closing)

/-- What the control loop itself asks for, apart from its resyncs, due work and events. -/
inductive LoopRequest : Request → Prop where
  | stopRequested : LoopRequest .stopRequested
  | withdrawStop : LoopRequest .withdrawStop
  | clock : LoopRequest .clock
  | jitter : LoopRequest .jitter
  | pause (milliseconds : Int) : LoopRequest (.pause milliseconds)
  | openWatch (version : Value) (timeout : Nat) : LoopRequest (.api (.openWatch version timeout))
  | nextEvent : LoopRequest .nextEvent
  | closeWatch : LoopRequest .closeWatch

variable (hP : Closed P) (hask : ∀ q, LoopRequest q → P (liftM (Session.request q) : Control q.Answer))
  (hready : ∀ ready, P (setReady ready)) (hresync : P k.resync) (hdrain : ∀ now, P (k.drain now))
  (hevent : ∀ type object, P (k.handleEvent type object))

include hP hask

theorem pause (delay : Nat) : P (pause delay) :=
  hP.bind (hask _ .jitter) fun _ => hask _ (.pause _)

theorem closing {α : Type} {body : Control α} (h : P body) : P (closing body) := by
  refine hP.outcome_bind h fun result => hP.bind (hask _ .closeWatch) fun _ => ?_
  cases result with
  | ok a => exact hP.pure a
  | error fault => exact hP.throw fault

include hready hresync

theorem stepStarting (delay : Nat) : P (k.stepStarting delay) := by
  refine hP.bind (hask _ .stopRequested) fun stop => ?_
  split
  · exact hP.pure _
  refine hP.outcome_bind hresync fun result => ?_
  cases result with
  | ok version => exact hP.bind (hready true) fun _ => hP.bind (hP.note trivial) fun _ => hP.pure _
  | error fault =>
    dsimp only
    split
    · exact hP.bind (hP.note trivial) fun _ => hP.bind (hready false) fun _ => hP.pure _
    · exact hP.bind (hP.note trivial) fun _ => hP.bind (hP.note trivial) fun _ =>
        hP.bind (pause hP hask _) fun _ => hP.pure _

omit hask in
theorem recoverExpired (delay streams : Nat) : P (k.recoverExpired delay streams) := by
  refine hP.bind (hP.note trivial) fun _ => hP.outcome_bind hresync fun result => ?_
  cases result with
  | ok version => exact hP.pure _
  | error fault =>
    dsimp only
    split
    · have hthrow : P (MonadExcept.throw fault : Control Phase) := hP.throw fault
      exact hthrow
    split
    · exact hP.bind (hP.note trivial) fun _ => hP.bind (hready false) fun _ => hP.pure _
    · exact hP.bind (hP.note trivial) fun _ => hP.bind (hP.note trivial) fun _ => hP.pure _

theorem recover (fault : Fault) (version : Value) (delay streams : Nat) :
    P (k.recover fault version delay streams) := by
  unfold Controller.recover
  split
  · exact hP.recoverExpired hready hresync delay streams
  split
  · exact hP.bind (hP.note trivial) fun _ => hP.bind (hP.note trivial) fun _ =>
      hP.bind (hready false) fun _ => hP.pure _
  · exact hP.bind (hP.note trivial) fun _ => hP.bind (hP.note trivial) fun _ =>
      hP.bind (pause hP hask _) fun _ => hP.pure _

theorem openStream (version : Value) (delay streams : Nat) : P (k.openStream version delay streams) := by
  have hrecover (fault : Fault) : P (Controller.closing (k.recover fault version delay streams)) :=
    closing hP hask (hP.recover hask hready hresync _ _ _ _)
  refine hP.bind hP.get fun b => hP.bind (hask _ .clock) fun now => ?_
  cases b.watchTimeout (Clock.seconds now) with
  | error fault => exact hrecover _
  | ok timeout =>
    refine hP.bind (hask _ (.openWatch _ _)) fun reply => ?_
    cases reply with
    | ok _ => exact hP.pure _
    | error failure => exact hrecover _

include hdrain

theorem stepOpening (version : Value) (delay streams : Nat) : P (k.stepOpening version delay streams) := by
  refine hP.bind (hask _ .stopRequested) fun stop => ?_
  split
  · exact hP.bind (hready false) fun _ => hP.pure _
  refine hP.bind (hask _ .clock) fun now => hP.bind (hdrain _) fun _ => ?_
  split
  · exact hP.bind (hP.note trivial) fun _ => hP.openStream hask hready hresync _ _ _
  · exact hP.openStream hask hready hresync _ _ _

include hevent

theorem stepFollowing (version : Value) (delay streams : Nat) : P (k.stepFollowing version delay streams) := by
  refine hP.bind (hask _ .nextEvent) fun answer => ?_
  cases answer with
  | failed failure => exact closing hP hask (hP.recover hask hready hresync _ _ _ _)
  | ended => exact closing hP hask (hP.pure _)
  | event event =>
  refine hP.bind (hask _ .stopRequested) fun stop => ?_
  split
  · exact closing hP hask (hP.pure _)
  split
  · exact closing hP hask (hP.recover hask hready hresync _ _ _ _)
  · rename_i next type object _
    have hwork : P (do
        let _ ← k.handleEvent type object
        k.drain (Clock.seconds (← Session.clock)) : Control Unit) :=
      hP.bind (hevent _ _) fun _ => hP.bind (hask _ .clock) fun now => hdrain _
    refine hP.outcome_bind hwork fun result => ?_
    cases result with
    | ok _ => exact hP.pure _
    | error fault => exact closing hP hask (hP.recover hask hready hresync _ _ _ _)

theorem step (phase : Phase) : P (k.step phase) := by
  cases phase with
  | starting delay => exact hP.stepStarting hask hready hresync delay
  | opening version delay streams => exact hP.stepOpening hask hready hresync hdrain version delay streams
  | following version delay streams => exact hP.stepFollowing hask hready hresync hdrain hevent version delay streams
  | ended => exact hP.pure _

theorem steps (n : Nat) (phase : Phase) : P (k.steps n phase) := by
  induction n generalizing phase with
  | zero => exact hP.pure _
  | succ n ih =>
    have hstep (phase : Phase) : P (k.step phase >>= k.steps n) :=
      hP.bind (hP.step hask hready hresync hdrain hevent phase) ih
    cases phase with
    | ended => exact hP.pure _
    | starting delay => exact hstep _
    | opening version delay streams => exact hstep _
    | following version delay streams => exact hstep _

theorem runFor (n : Nat) : P (k.runFor n) :=
  hP.bind (hask _ .withdrawStop) fun _ => hP.steps hask hready hresync hdrain hevent n _

end Loop

end Control.Closed

/-- So it is for a relation that composes, if quiet notes keep it. -/
theorem Control.Sustains.closed {R : Books → List Act → Books → Prop} (hR : Control.Composes R)
    (hnote : ∀ b n, n.Quiet → R b [.told n] b) : Control.Closed fun x => Control.Sustains R x where
  pure _ := .pure hR
  throw _ := .throw hR
  get := .get hR
  note hn := .note fun b => hnote b _ hn.quiet
  bind := .bind hR
  outcome_bind := .outcome_bind hR

theorem Control.Asks.closed (allowed : Request → Prop) : Control.Closed fun x => Control.Asks allowed x :=
  Control.Sustains.closed (Control.Asks.composes allowed) fun _ _ _ _ _ hmem => nomatch List.mem_singleton.mp hmem

end NamespaceOwnership
