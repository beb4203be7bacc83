import NamespaceOwnership.Controller.Reconciliation
import NamespaceOwnership.Proofs.Composed

/-!
# What the controller does besides mapping

Listing DynaKubes, reporting a status and planning the next resync: none of it sends a patch of a namespace, whatever
is answered.
-/
namespace NamespaceOwnership

open Number (Binary64)

variable {allowed : Request → Prop}

/-- To deal with an outcome is to ask for the time and to send a report. -/
structure Request.AllowsDealing (allowed : Request → Prop) : Prop where
  clock : allowed .clock
  wallTime : allowed .wallTime
  report (name : Value) (report : StatusReport) : allowed (.api (.patchStatus name report))

theorem Request.allowsDealing_sparing : Request.AllowsDealing Request.Sparing := ⟨rfl, rfl, fun _ _ => rfl⟩

namespace DynaKubes

theorem reportStatus_within (hallowed : Request.AllowsDealing allowed) (name : Value) (state message : String) :
    (reportStatus name state message).run.Within allowed := by
  refine Attempt.within_bind (Attempt.within_wallTime hallowed.wallTime) fun time => ?_
  refine Attempt.within_bind ⟨hallowed.report _ _, fun _ => trivial⟩ fun reply => ?_
  have hlog (level : LogLevel) (text : String) :
      (liftM (Session.log level text) : Attempt Unit).run.Within allowed := ⟨trivial, trivial⟩
  cases reply with
  | ok _ => trivial
  | error failure =>
    cases failure with
    | refused status reason =>
      dsimp only
      split
      · exact hlog _ _
      · exact hlog _ _
    | _ => exact hlog _ _

section Reading

theorem fieldsOf_within (v : Value) : (fieldsOf v).run.Within allowed := by
  unfold fieldsOf
  split <;> trivial

theorem itemsOf_within (v : Value) : (itemsOf v).run.Within allowed := by
  unfold itemsOf
  split
  · trivial
  · trivial
  · trivial
  · split <;> trivial

theorem readAll_within (objects : List Value) : (readAll objects).run.Within allowed := by
  induction objects with
  | nil => trivial
  | cons object rest ih =>
    rw [readAll]
    split
    · exact Attempt.within_bind ih fun _ => trivial
    · split
      · exact Attempt.within_bind ⟨trivial, trivial⟩ fun _ => ih
      · trivial

end Reading

theorem list_within : list.run.Within (· = .api .listDynaKubes) := by
  refine Attempt.within_bind ⟨rfl, fun reply => by cases reply <;> trivial⟩ fun response => ?_
  refine Attempt.within_bind (fieldsOf_within _) fun entries => ?_
  refine Attempt.within_bind (itemsOf_within _) fun items => ?_
  refine Attempt.within_bind (readAll_within _) fun found => ?_
  exact Attempt.within_bind (fieldsOf_within _) fun metadata => trivial

theorem list_sparing : list.run.Within Request.Sparing := list_within.mono fun _ h => h ▸ rfl

end DynaKubes

namespace Control

theorem clock_sparing : Within Request.Sparing (liftM Session.clock : Control Int) := .request rfl

end Control

/-- Only a time that is infinitely far away has no length. -/
theorem Books.watchTimeout_error {b : Books} {now : Binary64} {fault : Fault}
    (h : b.watchTimeout now = .error fault) : fault = .object .infinite := by
  unfold watchTimeout at h
  split at h
  · cases h
  · dsimp only at h
    split at h <;> cases h
    rfl

namespace Controller

open Control (Within clock_sparing)

theorem mem_orphans {known : List String} {records : List NamespaceRecord} {orphan : String} :
    orphan ∈ orphans known records ↔
      orphan ∉ known ∧ ∃ r ∈ records, ∃ f, Labels.owner? r.labels f = some orphan := by
  simp only [orphans, List.mem_mergeSort, List.mem_filter, List.mem_eraseDups, List.mem_flatMap, List.mem_map,
    Prod.exists, exists_eq_right, Labels.mem_owners_iff, List.contains_eq_mem, Bool.not_eq_true',
    decide_eq_false_iff_not]
  rw [and_comm]

theorem later_sparing (now seconds : Int) : (later now seconds).run.Within Request.Sparing := by
  unfold later
  split <;> trivial

theorem plus_asks_nothing (now : Binary64) (seconds : Int) : (plus now seconds).run.Within fun _ => False := by
  unfold plus
  split <;> trivial

theorem plus_sparing (now : Binary64) (seconds : Int) : (plus now seconds).run.Within Request.Sparing :=
  (plus_asks_nothing now seconds).mono fun _ => False.elim

theorem planResync_sparing (k : Controller) : Within Request.Sparing k.planResync :=
  .bind clock_sparing fun _ => .bind (.attempt (plus_sparing _ _)) fun _ => .modify _

theorem planResync_run (k : Controller) (b : Books) (hfinite : (Binary64.ofInt k.resyncPeriod).isFinite = true) :
    k.planResync.run.run b = .ask .clock fun now =>
      .done (.ok ⟨⟩, { b with nextResync := some ((Clock.seconds now).add (.ofInt k.resyncPeriod)) }) := by
  have hplus (now : Binary64) : plus now k.resyncPeriod = pure (now.add (.ofInt k.resyncPeriod)) := by
    rw [plus, Clock.plus, if_pos hfinite]
  simp only [planResync, hplus]
  rfl

end Controller
end NamespaceOwnership
