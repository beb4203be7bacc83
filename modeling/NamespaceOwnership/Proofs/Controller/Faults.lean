import NamespaceOwnership.Controller.Reconciliation
import NamespaceOwnership.Proofs.Control

/-!
# Why the controller fails

What a mapping runs into is caught, so what the controller does fails only for a few reasons: a call that looks
something up fails, a DynaKube or a listing that was looked up cannot be read, a name is of a kind that nothing
is named with, a time cannot be counted, or the wall time has no date. `Cause` has a constructor for each of them,
with what in the trace shows it.
-/
namespace NamespaceOwnership

open Number (Binary64)
open Session (Runs)

variable {α β : Type} {i : Interference} {grave grave' : CallFailure → Prop} {known known' : Fault → Prop}
  {c c' : Cluster} {tr : List Event}

/-- A call broke off: the API has not refused it. -/
def CallFailure.BreaksOff (failure : CallFailure) : Prop := Fault.isRefusal (.call failure) = false

theorem CallFailure.BreaksOff.status?_eq_none {failure : CallFailure} (h : failure.BreaksOff) :
    failure.status? = none := by
  cases failure with
  | refused status reason => cases h
  | _ => rfl

/-- A call with which the controller itself, apart from the mappings, looks something up. -/
inductive ApiCall.LooksUp : ApiCall → Prop where
  | namespaces (selector : Option String) : LooksUp (.listNamespaces selector)
  | dynakube (name : Value) : LooksUp (.getDynaKube name)
  | dynakubes : LooksUp .listDynaKubes

/-- Where a fault comes from. Only some failures of calls matter, and some faults need not be accounted for. -/
inductive Cause (grave : CallFailure → Prop) (known : Fault → Prop) (tr : List Event) : Fault → Prop where
  | known {fault : Fault} (h : known fault) : Cause grave known tr fault
  | call {c c' : Cluster} {call : ApiCall} {failure : CallFailure} (looksUp : call.LooksUp) (severe : grave failure)
      (asked : .asked (.call c call (.error failure) c') ∈ tr) : Cause grave known tr (.call failure)
  | dynakube {c c' : Cluster} {name object : Value} {e : ObjectError}
      (asked : .asked (.call c (.getDynaKube name) (.ok object) c') ∈ tr)
      (unreadable : DynaKube.ofObject object = .error e) : Cause grave known tr (.object e)
  | listing {c c' : Cluster} {listing : Value} (asked : .asked (.call c .listDynaKubes (.ok listing) c') ∈ tr)
      (e : ObjectError) : Cause grave known tr (.object e)
  | name (name : Value) (unnamed : name.isScalar = false) :
      Cause grave known tr (.object (.noName name.kindName))
  | number : Cause grave known tr .numberTooLarge
  | calendar {c c' : Cluster} {e : CalendarError} (asked : .asked ⟨c, .wallTime, .error e, c'⟩ ∈ tr) :
      Cause grave known tr (.calendar e)

namespace Cause

variable {fault : Fault} {tr' : List Event}

/-- In a longer trace, what was known may be accounted for, and a failure of a call may matter less. -/
theorem imp (h : Cause grave known tr fault)
    (hgrave : ∀ failure, fault = .call failure → grave failure → grave' failure)
    (hknown : known fault → Cause grave' known' tr' fault) (hsub : ∀ e ∈ tr, e ∈ tr') :
    Cause grave' known' tr' fault := by
  cases h with
  | known h => exact hknown h
  | call looksUp severe asked => exact .call looksUp (hgrave _ rfl severe) (hsub _ asked)
  | dynakube asked unreadable => exact .dynakube (hsub _ asked) unreadable
  | listing asked e => exact .listing (hsub _ asked) e
  | name name unnamed => exact .name name unnamed
  | number => exact .number
  | calendar asked => exact .calendar (hsub _ asked)

theorem append_left (h : Cause grave known tr fault) : Cause grave known (tr' ++ tr) fault :=
  h.imp (fun _ _ h => h) .known fun _ he => List.mem_append_right _ he

/-- Only a refusal has a status. -/
theorem status?_eq_none (h : Cause CallFailure.BreaksOff known tr fault)
    (hknown : known fault → fault.status? = none) : fault.status? = none := by
  cases h with
  | known h => exact hknown h
  | call looksUp severe asked => exact severe.status?_eq_none
  | _ => rfl

end Cause

/-- Whenever it fails there is a cause in the trace. -/
def Attempt.Explained (i : Interference) (grave : CallFailure → Prop) (known : Fault → Prop)
    (x : Attempt α) : Prop :=
  ∀ c tr fault c', Runs i x.run c tr (.error fault) c' → Cause grave known tr fault

namespace Attempt.Explained

variable {x : Attempt α} {f : α → Attempt β}

theorem pure {a : α} : Explained i grave known (pure a : Attempt α) := by
  intro c tr fault c' h
  obtain ⟨-, hr, -⟩ := runs_pure.mp h
  cases hr

theorem throw {fault : Fault} (h : Cause grave known [] fault) :
    Explained i grave known (throw fault : Attempt α) := by
  intro c tr fault' c' hrun
  obtain ⟨rfl, hr, -⟩ := runs_throw.mp hrun
  cases hr
  exact h

theorem session {s : Session α} : Explained i grave known (liftM s : Attempt α) := by
  intro c tr fault c' h
  obtain ⟨a, hr, -⟩ := runs_lift.mp h
  cases hr

theorem bind (hx : Explained i grave known x) (hf : ∀ a, Explained i grave known (f a)) :
    Explained i grave known (x >>= f) := by
  intro c tr fault c' h
  rcases runs_bind.mp h with ⟨fault', hr, hfail⟩ | ⟨tr₁, a, c₁, tr₂, rfl, -, hrest⟩
  · cases hr
    exact hx _ _ _ _ hfail
  · exact (hf a _ _ _ _ hrest).append_left

theorem call {call : ApiCall} (h : call.LooksUp) (hgrave : ∀ failure, grave failure) :
    Explained i grave known (Attempt.call call) := by
  intro c tr fault c' hrun
  obtain ⟨c₁, reply, -, -, rfl, hr⟩ := runs_call.mp hrun
  cases reply with
  | ok reply => cases hr
  | error failure =>
    cases hr
    exact .call h (hgrave failure) List.mem_cons_self

end Attempt.Explained

/-- Whatever the books are: whenever it fails there is a cause in the trace. -/
def Control.Explained (i : Interference) (grave : CallFailure → Prop) (known : Fault → Prop)
    (x : Control α) : Prop :=
  ∀ b c tr fault b' c', Runs i (x.run.run b) c tr (.error fault, b') c' → Cause grave known tr fault

namespace Control.Explained

variable {x : Control α} {f : α → Control β}

theorem pure {a : α} : Explained i grave known (pure a : Control α) := by
  intro b c tr fault b' c' h
  obtain ⟨-, hr, -⟩ := Session.runs_done.mp h
  cases hr

theorem throw {fault : Fault} (h : Cause grave known [] fault) :
    Explained i grave known (throw fault : Control α) := by
  intro b c tr fault' b' c' hrun
  obtain ⟨rfl, hr, -⟩ := Session.runs_done.mp hrun
  cases hr
  exact h

theorem get : Explained i grave known (get : Control Books) := by
  intro b c tr fault b' c' h
  obtain ⟨-, hr, -⟩ := Session.runs_done.mp h
  cases hr

theorem modify (g : Books → Books) : Explained i grave known (modify g : Control PUnit) := by
  intro b c tr fault b' c' h
  obtain ⟨-, hr, -⟩ := Session.runs_done.mp h
  cases hr

theorem session {s : Session α} : Explained i grave known (liftM s : Control α) := by
  intro b c tr fault b' c' h
  rw [run_session, Session.runs_bind] at h
  obtain ⟨tr₁, a, c₁, tr₂, -, -, hend⟩ := h
  obtain ⟨-, hr, -⟩ := Session.runs_done.mp hend
  cases hr

theorem outcome : Explained i grave known x.outcome := by
  intro b c tr fault b' c' h
  rw [run_outcome, Session.runs_bind] at h
  obtain ⟨tr₁, a, c₁, tr₂, -, -, hend⟩ := h
  obtain ⟨-, hr, -⟩ := Session.runs_done.mp hend
  cases hr

theorem attempt {a : Attempt α} (ha : a.Explained i grave known) :
    Explained i grave known (Control.attempt a) := by
  intro b c tr fault b' c' h
  exact ha _ _ _ _ (runs_attempt.mp h).1

theorem bind (hx : Explained i grave known x) (hf : ∀ a, Explained i grave known (f a)) :
    Explained i grave known (x >>= f) := by
  intro b c tr fault b' c' h
  rcases runs_bind.mp h with ⟨fault', hr, hfail⟩ | ⟨tr₁, a, b₁, c₁, tr₂, rfl, -, hrest⟩
  · cases hr
    exact hx _ _ _ _ _ _ hfail
  · exact (hf a _ _ _ _ _ _ hrest).append_left

/-- What follows an outcome may throw the fault again, but no failure that it has to handle. -/
theorem outcome_bind (throws : Fault → Prop) {f : Except Fault α → Control β} (hx : Explained i grave' known x)
    (hthrows : ∀ failure, grave' failure → throws (.call failure) → grave failure)
    (hok : ∀ a, Explained i grave known (f (.ok a)))
    (hfault : ∀ fault, Explained i grave (fun other => known other ∨ other = fault ∧ throws fault) (f (.error fault))) :
    Explained i grave known (x.outcome >>= f) := by
  intro b c tr fault b' c' h
  obtain ⟨tr₁, r, b₁, c₁, tr₂, rfl, hrun, hrest⟩ := runs_outcome_bind.mp h
  cases r with
  | ok a => exact (hok a _ _ _ _ _ _ hrest).append_left
  | error first =>
    refine (hfault first _ _ _ _ _ _ hrest).imp (fun _ _ h => h) ?_ fun _ he => List.mem_append_right _ he
    rintro (hknown | ⟨rfl, hagain⟩)
    · exact .known hknown
    · refine (hx _ _ _ _ _ _ hrun).imp ?_ .known fun _ he => List.mem_append_left _ he
      exact fun failure hcall hgrave => hthrows failure hgrave (hcall ▸ hagain)

/-- The fault is thrown again. -/
theorem rethrow {fault : Fault} {p : Prop} (h : p) :
    Explained i grave (fun other => known other ∨ other = fault ∧ p) (MonadExcept.throw fault : Control α) :=
  .throw (.known (.inr ⟨rfl, h⟩))

end Control.Explained

theorem Attempt.wallTime_explained : Attempt.wallTime.Explained i grave known := by
  intro c tr fault c' h
  obtain ⟨tr₁, answer, c₁, tr₂, rfl, hrequest, hend⟩ := Attempt.runs_lift_bind.mp h
  obtain ⟨c₂, -, -, rfl⟩ := Session.runs_request.mp hrequest
  cases answer with
  | ok time =>
    obtain ⟨-, hr, -⟩ := Attempt.runs_pure.mp hend
    cases hr
  | error e =>
    obtain ⟨rfl, hr, -⟩ := Attempt.runs_throw.mp hend
    cases hr
    exact .calendar List.mem_cons_self

namespace DynaKubes

theorem reportStatus_explained (name : Value) (state message : String) :
    (reportStatus name state message).Explained i grave known := by
  refine Attempt.wallTime_explained.bind fun time => .bind .session fun reply => ?_
  cases reply with
  | ok _ => exact .pure
  | error failure =>
    cases failure with
    | refused status reason =>
      dsimp only
      split
      · exact .session
      · exact .session
    | _ => exact .session

theorem get?_explained (name : Value) (hgrave : ∀ failure, grave failure) :
    (get? name).Explained i grave known := by
  intro c tr fault c' h
  obtain ⟨tr₁, reply, c₁, tr₂, rfl, hcall, hend⟩ := Attempt.runs_lift_bind.mp h
  obtain ⟨c₂, -, -, rfl⟩ := Session.runs_call.mp hcall
  cases reply with
  | ok object =>
    rcases Attempt.runs_bind.mp hend with ⟨fault', hr, hread⟩ | ⟨tr₃, d, c₃, tr₄, rfl, -, hpure⟩
    · cases hr
      unfold read at hread
      cases hobject : DynaKube.ofObject object with
      | ok d =>
        rw [hobject] at hread
        obtain ⟨-, hr, -⟩ := Attempt.runs_pure.mp hread
        cases hr
      | error e =>
        rw [hobject] at hread
        obtain ⟨-, hr, -⟩ := Attempt.runs_throw.mp hread
        cases hr
        exact .dynakube List.mem_cons_self hobject
    · obtain ⟨-, hr, -⟩ := Attempt.runs_pure.mp hpure
      cases hr
  | error failure =>
    by_cases h404 : failure.status? = some 404
    · simp only [h404, if_true] at hend
      obtain ⟨-, hr, -⟩ := Attempt.runs_pure.mp hend
      cases hr
    · simp only [h404, if_false] at hend
      obtain ⟨-, hr, -⟩ := Attempt.runs_throw.mp hend
      cases hr
      exact .call (.dynakube name) (hgrave failure) List.mem_cons_self

theorem fieldsOf_explained (v : Value) : (fieldsOf v).Explained i grave fun fault => ∃ e, fault = .object e := by
  unfold fieldsOf
  split
  · exact .pure
  · exact .throw (.known ⟨_, rfl⟩)

theorem itemsOf_explained (v : Value) : (itemsOf v).Explained i grave fun fault => ∃ e, fault = .object e := by
  unfold itemsOf
  split
  · exact .pure
  · exact .pure
  · exact .pure
  · split
    · exact .throw (.known ⟨_, rfl⟩)
    · exact .pure

theorem readAll_explained (objects : List Value) :
    (readAll objects).Explained i grave fun fault => ∃ e, fault = .object e := by
  induction objects with
  | nil => exact .pure
  | cons object rest ih =>
    rw [readAll]
    split
    · exact .bind ih fun _ => .pure
    · split
      · exact .bind .session fun _ => ih
      · exact .throw (.known ⟨_, rfl⟩)

/-- Whatever in a listing cannot be read came with the listing. -/
theorem list_explained (hgrave : ∀ failure, grave failure) : list.Explained i grave known := by
  intro c tr fault c' h
  rcases Attempt.runs_bind.mp h with ⟨fault', hr, hcall⟩ | ⟨tr₁, response, c₁, tr₂, rfl, hcall, hrest⟩
  · cases hr
    exact Attempt.Explained.call .dynakubes hgrave _ _ _ _ hcall
  obtain ⟨c₂, reply, -, -, rfl, hr⟩ := Attempt.runs_call.mp hcall
  cases reply with
  | error failure => cases hr
  | ok listing =>
    have hread : (do
        let entries ← fieldsOf response
        let found ← readAll (← itemsOf (Value.entry entries "items"))
        let metadata ← fieldsOf (Value.entry entries "metadata").orEmpty
        return (found.mergeSort (fun a b => decide (a.name ≤ b.name)), Value.entry metadata "resourceVersion") :
          Attempt (List DynaKube × Value)).Explained i grave fun fault => ∃ e, fault = .object e :=
      .bind (fieldsOf_explained _) fun _ => .bind (itemsOf_explained _) fun _ =>
        .bind (readAll_explained _) fun _ => .bind (fieldsOf_explained _) fun _ => .pure
    refine (hread _ _ _ _ hrest).imp (fun _ _ h => h) ?_ fun _ he => List.mem_append_right _ he
    rintro ⟨e, rfl⟩
    exact .listing (List.mem_append_left _ List.mem_cons_self) e

end DynaKubes

namespace Control

theorem requireErasable_explained (t : NameTable α) (name : Value) :
    (requireErasable t name).Explained i grave known := by
  unfold requireErasable
  split
  · exact .throw (.name name (by simp_all))
  · exact .pure

theorem lookUp_explained (read : Books → NameTable α) (name : Value) :
    (lookUp read name).Explained i grave known := by
  unfold lookUp
  split
  · exact .bind .get fun _ => .pure
  · exact .throw (.name name (by simp_all))

theorem notePending_explained : notePending.Explained i grave known := .bind .get fun _ => .session

end Control

namespace Controller

open Control (Explained requireErasable_explained lookUp_explained notePending_explained)

variable {k : Controller}

theorem reportStatus_explained (name : String) (state : MappingState) (message : String) :
    Explained i grave known (reportStatus name state message) := by
  refine .bind .get fun b => ?_
  split
  · exact .pure
  · exact .bind (.attempt (DynaKubes.reportStatus_explained _ _ _)) fun _ => .modify _

theorem clearRetry_explained (name : Value) : Explained i grave known (clearRetry name) := by
  refine .bind .get fun b => .bind (requireErasable_explained _ name) fun _ => .bind (.modify _) fun _ => ?_
  refine .bind .get fun b => .bind (requireErasable_explained _ name) fun _ => .bind (.modify _) fun _ => ?_
  exact notePending_explained

theorem forget_explained (name : Value) : Explained i grave known (forget name) := by
  refine .bind .get fun b => .bind (requireErasable_explained _ name) fun _ => .bind (.modify _) fun _ => ?_
  exact .bind .get fun b => .bind (requireErasable_explained _ name) fun _ => .modify _

theorem repeatLater_explained (name : Value) : Explained i grave known (repeatLater name) := by
  refine .bind .session fun now => .bind (lookUp_explained _ name) fun failures => .bind (.modify _) fun _ => ?_
  split
  · exact .throw .number
  · exact .bind (.modify _) fun _ => .bind notePending_explained fun _ => .session

theorem failed_explained (d : DynaKube) (fault : Fault) : Explained i grave known (failed d fault) := by
  have hrepeat (level : LogLevel) (text : String) (counter : Counter) (state : MappingState)
      (message : String) : Explained i grave known (do
        Session.log level text
        Session.count counter
        reportStatus d.name state message
        repeatLater (.text d.name)) :=
    .bind .session fun _ => .bind .session fun _ => .bind (reportStatus_explained _ _ _) fun _ =>
      repeatLater_explained _
  cases fault with
  | selector error =>
    refine .bind .session fun _ => .bind .session fun _ => .bind (reportStatus_explained _ _ _) fun _ => ?_
    exact .bind (clearRetry_explained _) fun _ => .modify _
  | _ => exact hrepeat _ _ _ _ _

theorem timed_explained {body : Control α} (h : Explained i grave known body) :
    Explained i grave known (timed body) := by
  refine .bind .session fun started =>
    .outcome_bind (fun _ => True) h (fun _ hgrave _ => hgrave) (fun a => ?_) fun fault => ?_
  · exact .bind .session fun ended => .bind .session fun _ => .pure
  · exact .bind .session fun ended => .bind .session fun _ => .rethrow trivial

theorem reconcile_explained (d : DynaKube) : Explained i grave known (k.reconcile d) := by
  refine .bind (timed_explained (.bind .outcome fun r => ?_)) fun mapped => ?_
  · cases r with
    | error fault => exact .bind (failed_explained d fault) fun _ => .pure
    | ok result => exact .pure
  · cases mapped with
    | none => exact .pure
    | some result =>
      refine .bind .session fun _ => .bind (reportStatus_explained _ _ _) fun _ => ?_
      exact .bind (clearRetry_explained _) fun _ => .bind (.modify _) fun _ => .pure

theorem unmap_explained (name : Value) : Explained i grave known (k.unmap name) := by
  refine .bind (timed_explained (.bind .outcome fun r => ?_)) fun unmapped => ?_
  · cases r with
    | error fault =>
      exact .bind .session fun _ => .bind .session fun _ => .bind (repeatLater_explained _) fun _ => .pure
    | ok result => exact .pure
  · cases unmapped with
    | none => exact .pure
    | some result =>
      refine .bind .session fun _ => .bind (clearRetry_explained _) fun _ => ?_
      exact .bind (forget_explained _) fun _ => .pure

theorem reconcileAll_explained (ds : List DynaKube) : Explained i grave known (k.reconcileAll ds) := by
  induction ds with
  | nil => exact .pure
  | cons d rest ih => exact .bind (reconcile_explained d) fun _ => ih

theorem unmapOrphans_explained (todo : List String) : Explained i grave known (k.unmapOrphans todo) := by
  induction todo with
  | nil => exact .pure
  | cons orphan rest ih => exact .bind .session fun _ => .bind (unmap_explained _) fun _ => ih

theorem planResync_explained : Explained i grave known k.planResync := by
  refine .bind .session fun now => .bind (.attempt ?_) fun _ => .modify _
  unfold plus Clock.plus
  cases (Binary64.ofInt k.resyncPeriod).isFinite with
  | true => exact .pure
  | false => exact .throw .number

theorem resync_explained (hgrave : ∀ failure, grave failure) : Explained i grave known k.resync := by
  refine .bind (.attempt (DynaKubes.list_explained hgrave)) fun p => ?_
  refine .bind (reconcileAll_explained _) fun _ => ?_
  refine .bind (.attempt (.bind (.call (.namespaces _) hgrave) fun _ => .pure)) fun namespaces => ?_
  exact .bind (unmapOrphans_explained _) fun _ => .bind planResync_explained fun _ => .pure

theorem retry_explained (name : Value) (hgrave : ∀ failure, grave failure) :
    Explained i grave known (k.retry name) := by
  refine .bind (.attempt (DynaKubes.get?_explained name hgrave)) fun found => ?_
  cases found with
  | none => exact .bind (unmap_explained name) fun _ => .pure
  | some d => exact .bind (reconcile_explained d) fun _ => .pure

/-- A refused look-up is repeated later; any other failure of it ends the work. -/
theorem retryAll_explained (names : List Value) :
    Explained i CallFailure.BreaksOff known (k.retryAll names) := by
  induction names generalizing known with
  | nil => exact .pure
  | cons name rest ih =>
    refine .bind .session fun _ => .outcome_bind (fun fault => fault.isRefusal = false)
      (retry_explained name fun _ => trivial) (fun _ _ h => h) (fun _ => ih) fun fault => ?_
    cases fault with
    | call failure =>
      cases failure with
      | refused status reason => exact .bind .session fun _ => .bind (repeatLater_explained name) fun _ => ih
      | _ => exact .bind (.rethrow rfl) fun _ => ih
    | _ => exact .bind (.rethrow rfl) fun _ => ih

/-- A refused resync is put off; any other failure of it ends the work. -/
theorem drain_explained (now : Binary64) : Explained i CallFailure.BreaksOff known (k.drain now) := by
  refine .bind .get fun b => .bind (retryAll_explained _) fun _ => .bind .get fun b => ?_
  split
  · refine .bind .session fun _ => .outcome_bind (fun fault => fault.isRefusal = false)
      (resync_explained fun _ => trivial) (fun _ _ h => h) (fun _ => .pure) fun fault => ?_
    cases fault with
    | call failure =>
      cases failure with
      | refused status reason => exact .bind .session fun _ => planResync_explained
      | _ => exact .rethrow rfl
    | _ => exact .rethrow rfl
  · exact .pure

/-- What is wrong with the object of an event is not accounted for. -/
theorem handleEvent_explained (type : String) (object : Value) :
    Explained i grave (fun fault => ∃ e, fault = .object e) (k.handleEvent type object) := by
  have hmetadata (entries : List (String × Value)) : Explained i grave (fun fault => ∃ e, fault = .object e)
      (fieldsOf (Value.entry entries "metadata").orEmpty) := .attempt (DynaKubes.fieldsOf_explained _)
  unfold handleEvent
  cases Change.ofName? type with
  | none => exact .pure
  | some change =>
  cases object.entries? with
  | none => exact .pure
  | some entries =>
  refine .bind (hmetadata entries) fun metadata => ?_
  dsimp only
  split
  · exact .bind .session fun _ => .pure
  split
  · exact .bind .session fun _ => .bind (clearRetry_explained _) fun _ => unmap_explained _
  unfold handleObject
  split
  · split
    · exact .bind .session fun _ => .pure
    · exact .throw (.known ⟨_, rfl⟩)
  refine .bind ?_ fun upToDate => ?_
  · unfold upToDate
    split
    · exact .pure
    refine .bind (lookUp_explained _ _) fun seen => ?_
    cases seen with
    | none => exact .pure
    | some seen => exact .bind .get fun b => .pure
  · split
    · exact .bind .session fun _ => .pure
    · exact reconcile_explained _

end Controller
end NamespaceOwnership
