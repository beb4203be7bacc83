import NamespaceOwnership.Proofs.Controller.Orphans
import NamespaceOwnership.Proofs.Controller.Upkeep
import NamespaceOwnership.Proofs.Mapping.Tally

/-!
# What the controller counts

A property of traces that is `Additive` holds of whatever the controller does if it holds of mapping a DynaKube and of
unmapping a name, because all else that it does is to keep books (`Controller.performAll_traces`). So it is for the
counts of what is done to namespaces, and for those of the operations and of the times they took (`Clocked`).
-/
namespace NamespaceOwnership

open Number (Binary64)
open Session (Course Runs)

variable {α β : Type} {i : Interference} {Q : List Event → Prop}

theorem Note.Plain.uncounted {n : Note} (h : n.Plain) : n.Uncounted := by
  unfold Plain at h
  split at h
  · trivial
  · trivial
  · trivial
  · exact h.elim

namespace Control

variable {x : Control α} {f : α → Control β}

/-- Whatever the books are, it counts nothing and sends no patch. -/
def Discreet (x : Control α) : Prop := ∀ b, (x.run.run b).Discreet

namespace Discreet

theorem bind (hx : Discreet x) (hf : ∀ a, Discreet (f a)) : Discreet (x >>= f) := by
  intro b
  rw [run_bind]
  refine (hx b).bind fun p => ?_
  obtain ⟨r, b₁⟩ := p
  cases r with
  | error fault => trivial
  | ok a => exact hf a b₁

theorem session {s : Session α} (hs : s.Discreet) : Discreet (liftM s : Control α) := by
  intro b
  rw [run_session]
  exact hs.bind fun _ => trivial

theorem attempt {a : Attempt α} (ha : a.run.Discreet) : Discreet (Control.attempt a) := fun _ => ha.bind fun _ => trivial

theorem modify (g : Books → Books) : Discreet (modify g : Control PUnit) := fun _ => trivial

theorem note {n : Note} (hn : n.Uncounted) : Discreet (liftM (Session.note n) : Control Unit) := session ⟨hn, trivial⟩

end Discreet

theorem discreet_closed : Closed fun x => Discreet x where
  pure _ := fun _ => trivial
  throw _ := fun _ => trivial
  get := fun _ => trivial
  note hn := .note hn.uncounted
  bind := .bind
  outcome_bind hx hf := .bind (fun b => (hx b).bind fun _ => trivial) hf

/-- Whatever the books are, and however it goes, the trace has the property. -/
def Traces (i : Interference) (Q : List Event → Prop) (x : Control α) : Prop := ∀ b, (x.run.run b).Traces i Q

end Control

namespace Additive

open Control (Traces Discreet run_bind run_outcome_bind)

variable {x : Control α} {f : α → Control β}

theorem control_bind (hQ : Additive Q) (hx : Traces i Q x)
    (hf : ∀ b c tr a b' c', Runs i (x.run.run b) c tr (.ok a, b') c' → Traces i Q (f a)) : Traces i Q (x >>= f) := by
  intro b
  rw [run_bind]
  refine hQ.bind (hx b) fun c tr p c' h => ?_
  obtain ⟨r, b'⟩ := p
  cases r with
  | error fault => exact hQ.discreet trivial
  | ok a => exact hf b c tr a b' c' h b'

theorem books (hQ : Additive Q) (hx : Discreet x) : Traces i Q x := fun b => hQ.discreet (hx b)

theorem closed (hQ : Additive Q) : Control.Closed fun x => Traces i Q x where
  pure _ := hQ.books fun _ => trivial
  throw _ := hQ.books fun _ => trivial
  get := hQ.books fun _ => trivial
  note hn := hQ.books (.note hn.uncounted)
  bind hx hf := hQ.control_bind hx fun _ _ _ a _ _ _ => hf a
  outcome_bind hx hf b := by
    rw [run_outcome_bind]
    exact hQ.bind (hx b) fun _ _ p _ _ => hf p.1 p.2

end Additive

namespace DynaKubes

theorem fieldsOf_discreet (v : Value) : (fieldsOf v).run.Discreet := by
  unfold fieldsOf
  split <;> trivial

theorem itemsOf_discreet (v : Value) : (itemsOf v).run.Discreet := by
  unfold itemsOf
  split
  · trivial
  · trivial
  · trivial
  · split <;> trivial

theorem readAll_discreet (objects : List Value) : (readAll objects).run.Discreet := by
  induction objects with
  | nil => trivial
  | cons object rest ih =>
    rw [readAll]
    split
    · exact Attempt.discreet_bind ih fun _ => trivial
    · split
      · exact Attempt.discreet_bind ⟨trivial, trivial⟩ fun _ => ih
      · trivial

theorem list_discreet : list.run.Discreet := by
  refine Attempt.discreet_bind ⟨rfl, fun reply => by cases reply <;> trivial⟩ fun response => ?_
  refine Attempt.discreet_bind (fieldsOf_discreet _) fun entries => ?_
  refine Attempt.discreet_bind (itemsOf_discreet _) fun items => ?_
  refine Attempt.discreet_bind (readAll_discreet _) fun found => ?_
  exact Attempt.discreet_bind (fieldsOf_discreet _) fun metadata => trivial

theorem reportStatus_discreet (name : Value) (state message : String) :
    (reportStatus name state message).run.Discreet := by
  have hlog (level : LogLevel) (text : String) : (liftM (Session.log level text) : Attempt Unit).run.Discreet :=
    ⟨trivial, trivial⟩
  have htime : Attempt.wallTime.run.Discreet :=
    Attempt.discreet_bind ⟨rfl, fun _ => trivial⟩ fun answer => by cases answer <;> trivial
  refine Attempt.discreet_bind htime fun time => Attempt.discreet_bind ⟨rfl, fun _ => trivial⟩ fun reply => ?_
  cases reply with
  | ok _ => trivial
  | error failure =>
    cases failure with
    | refused status reason =>
      dsimp only
      split
      · exact hlog _ _
      · exact hlog _ _
    | _ => exact hlog _ _

/-- A DynaKube that is found has a name. -/
theorem get?_named {name : Value} {c c' : Cluster} {tr : List Event} {d : DynaKube}
    (h : Runs i (get? name).run c tr (.ok (some d)) c') : d.name ≠ "" := by
  obtain ⟨tr₁, reply, c₁, tr₂, rfl, -, hend⟩ := Attempt.runs_lift_bind.mp h
  cases reply with
  | ok object =>
    dsimp only at hend
    unfold read at hend
    cases hobject : DynaKube.ofObject object with
    | ok found =>
      rw [hobject] at hend
      obtain ⟨-, hr, -⟩ := Session.runs_done.mp hend
      cases hr
      exact DynaKube.name_ne_empty hobject
    | error e =>
      rw [hobject] at hend
      obtain ⟨-, hr, -⟩ := Session.runs_done.mp hend
      cases hr
  | error failure =>
    dsimp only at hend
    split at hend
    · obtain ⟨-, hr, -⟩ := Session.runs_done.mp hend
      cases hr
    · obtain ⟨-, hr, -⟩ := Session.runs_done.mp hend
      cases hr

end DynaKubes

namespace Controller

open Control (Discreet Traces discreet_closed)

variable {k : Controller}

theorem discreet_housekeeping : Control.Housekeeping fun x => Discreet x where
  toClosed := discreet_closed
  modify g _ := .modify g
  pending _ := .note trivial
  clock := .session ⟨rfl, fun _ => trivial⟩
  report _ _ _ := .attempt (DynaKubes.reportStatus_discreet _ _ _)

theorem later_discreet (now seconds : Int) : (later now seconds).run.Discreet := by
  unfold later
  split <;> trivial

theorem plus_discreet (now : Binary64) (seconds : Int) : (plus now seconds).run.Discreet := by
  unfold plus
  split <;> trivial

theorem planResync_discreet (k : Controller) : Discreet k.planResync :=
  .bind (.session ⟨rfl, fun _ => trivial⟩) fun _ => .bind (.attempt (plus_discreet _ _)) fun _ => .modify _

theorem additive_housekeeping (hQ : Additive Q) : Control.Housekeeping fun x => Traces i Q x where
  toClosed := hQ.closed
  modify g hg := hQ.books (discreet_housekeeping.modify g hg)
  pending size := hQ.books (discreet_housekeeping.pending size)
  clock := hQ.books discreet_housekeeping.clock
  report name state message := hQ.books (discreet_housekeeping.report name state message)

section Additive

variable (hQ : Additive Q) (hreconcile : ∀ d : DynaKube, d.name ≠ "" → Traces i Q (k.reconcile d))
  (hunmap : ∀ name, Traces i Q (k.unmap name))

include hQ hreconcile hunmap

/-- What is listed has a name. -/
theorem resync_traces : Traces i Q k.resync := by
  refine hQ.control_bind (hQ.books (.attempt DynaKubes.list_discreet)) fun b c tr listed b' c' h => ?_
  obtain ⟨hlist, -⟩ := Control.runs_attempt.mp h
  obtain ⟨c₁, listing, rest, -, -, hsorts⟩ := DynaKubes.list_runs hlist
  have hnamed : ∀ d ∈ listed.1, d.name ≠ "" := fun d hd => by
    obtain ⟨object, -, hvalid⟩ := hsorts.read d hd
    exact DynaKube.name_ne_empty hvalid
  refine hQ.closed.bind (hQ.closed.reconcileAll fun d hd => hreconcile d (hnamed d hd)) fun _ => ?_
  refine hQ.closed.bind (hQ.books (.attempt Mapper.list_discreet)) fun namespaces => ?_
  refine hQ.closed.bind (hQ.closed.unmapOrphans fun orphan _ => hunmap (.text orphan)) fun _ => ?_
  exact hQ.closed.bind (hQ.books k.planResync_discreet) fun _ => hQ.closed.pure _

theorem retry_traces (name : Value) : Traces i Q (k.retry name) := by
  refine hQ.control_bind (hQ.books (.attempt (DynaKubes.get?_discreet name))) fun b c tr found b' c' h => ?_
  obtain ⟨hget, -⟩ := Control.runs_attempt.mp h
  cases found with
  | none => exact hQ.closed.bind (hunmap name) fun _ => hQ.closed.pure _
  | some d => exact hQ.closed.bind (hreconcile d (DynaKubes.get?_named hget)) fun _ => hQ.closed.pure _

theorem drain_traces (now : Binary64) : Traces i Q (k.drain now) := by
  have hretries (names : List Value) : Traces i Q (k.retryAll names) :=
    hQ.closed.retryAll (retry_traces hQ hreconcile hunmap) (additive_housekeeping hQ).repeatLater names
  exact hQ.closed.drain hretries (resync_traces hQ hreconcile hunmap) (hQ.books k.planResync_discreet) now

theorem handleEvent_traces (type : String) (object : Value) : Traces i Q (k.handleEvent type object) := by
  refine hQ.closed.handleEvent (fun v => hQ.books (.attempt (DynaKubes.fieldsOf_discreet v))) (fun name text => ?_)
    (fun change name object => ?_) type object
  · refine hQ.closed.bind (hQ.closed.note trivial) fun _ => ?_
    exact hQ.closed.bind ((additive_housekeeping hQ).clearRetry name) fun _ => hunmap name
  · exact hQ.closed.handleObject change name fun d hvalid => hreconcile d (DynaKube.name_ne_empty hvalid)

/-- Whatever the controller does comes down to mapping and unmapping. -/
theorem performAll_traces {tasks : List Task} (hnamed : ∀ d, .reconcile d ∈ tasks → d.name ≠ "") :
    Traces i Q (k.performAll tasks) := by
  refine hQ.closed.performAll fun task htask => ?_
  cases task with
  | event type object =>
    exact hQ.closed.bind (handleEvent_traces hQ hreconcile hunmap type object) fun _ => hQ.closed.pure _
  | reconcile d => exact hQ.closed.bind (hreconcile d (hnamed d htask)) fun _ => hQ.closed.pure _
  | unmap name => exact hQ.closed.bind (hunmap name) fun _ => hQ.closed.pure _
  | resync => exact hQ.closed.bind (resync_traces hQ hreconcile hunmap) fun _ => hQ.closed.pure _
  | drain now => exact drain_traces hQ hreconcile hunmap now

end Additive

section Mapping

open Reckoned (additive)

theorem reckoned_told {note : Note} (hclaims : ∀ f, note ≠ .count (.claims f .accepted))
    (hreleases : ∀ f reason, note ≠ .count (.releases f reason)) (hretries : note ≠ .count .versionConflictRetries) :
    Reckoned [.told note] where
  claims f := by simp [Event.act, hclaims]
  releases f := by simp [Event.act, hreleases]
  retries := by simp [Event.act, hretries, Event.outdated]

theorem note_reckoned {note : Note} (h : Reckoned [.told note]) :
    Traces i Reckoned (liftM (Session.note note) : Control Unit) := by
  intro b
  rw [Control.run_session]
  refine additive.bind (fun c tr u c' hrun => ?_) fun _ _ _ _ _ => additive.discreet trivial
  obtain ⟨rfl, -⟩ := Session.runs_note.mp hrun
  exact h

theorem attempt_traces (hQ : Additive Q) {a : Attempt α} (ha : a.run.Traces i Q) : Traces i Q (Control.attempt a) :=
  fun _ => hQ.bind ha fun _ _ _ _ _ => hQ.discreet trivial

theorem withDeadline_traces (hQ : Additive Q) {body : Int → Attempt α} (h : ∀ limit, (body limit).run.Traces i Q) :
    (k.withDeadline body).run.Traces i Q := by
  refine hQ.attempt_bind (hQ.discreet ⟨rfl, fun _ => trivial⟩) fun now => ?_
  exact hQ.attempt_bind (hQ.discreet (later_discreet _ _)) h

theorem reconcile_reckoned {d : DynaKube} (hname : d.name ≠ "") : Traces i Reckoned (k.reconcile d) := by
  have hmapping : Traces i Reckoned (Control.attempt (k.mapping d)) :=
    attempt_traces additive (withDeadline_traces additive fun limit => Mapper.map_reckoned hname)
  exact (additive_housekeeping additive).reconcile (fun _ => note_reckoned (reckoned_told nofun nofun nofun))
    (fun _ => note_reckoned (reckoned_told nofun nofun nofun)) hmapping

theorem unmap_reckoned (name : Value) : Traces i Reckoned (k.unmap name) := by
  have hunmapping : Traces i Reckoned (Control.attempt (k.unmapping name)) :=
    attempt_traces additive (withDeadline_traces additive fun limit => k.mapper.unmap_reckoned name (some limit))
  exact (additive_housekeeping additive).unmap (fun _ => note_reckoned (reckoned_told nofun nofun nofun))
    (fun _ => note_reckoned (reckoned_told nofun nofun nofun)) hunmapping

end Mapping

end Controller
end NamespaceOwnership
