import NamespaceOwnership.Proofs.Controller.Closure
import NamespaceOwnership.Proofs.Controller.Dealing

/-!
# What the operations do to the books

To map a DynaKube and to drop the claims of a name are operations on the name, whatever their requests are answered:
what their mapping tells is of no account, its failure is noted under the name, and reports do not touch what is to be
repeated.
-/
namespace NamespaceOwnership

open Books (Cleared Failed)
open Number (Binary64)
open Session (Course)

variable {α : Type} {name : Value} {b b' : Books} {acts : List Act}

/-- What is asked for the sake of one DynaKube. -/
inductive Request.OfOperation : Request → Prop where
  | mapping {request : Request} (h : request.OfMapping) : OfOperation request
  | wallTime : OfOperation .wallTime
  | report (name : Value) (report : StatusReport) : OfOperation (.api (.patchStatus name report))

theorem Request.allowsDealing_ofOperation : Request.AllowsDealing Request.OfOperation :=
  ⟨.mapping .clock, .wallTime, .report⟩

namespace DynaKubes

/-- Reporting a status fails where the report has no date. Otherwise it sends one patch, and logs what goes wrong. -/
theorem reportStatus_course {state message : String} {r : Except Fault Unit}
    (h : Course (reportStatus name state message).run acts r) :
    (∃ error, r = .error (.calendar error) ∧ acts = [.asked .wallTime (.error error)]) ∨
    ∃ time reply logged, r = .ok () ∧ Routine logged ∧ acts = .asked .wallTime (.ok time) ::
      .asked (.api (.patchStatus name ⟨state, message, Calendar.ofMilliseconds time⟩)) reply :: logged := by
  rcases Attempt.course_bind.mp h with ⟨fault, rfl, htime⟩ | ⟨_, time, _, rfl, htime, hreport⟩
  all_goals
    obtain ⟨_, answer, _, rfl, hasked, hend⟩ := Attempt.course_lift_bind.mp htime
    obtain rfl := Session.course_request.mp hasked
    cases answer
  · obtain ⟨rfl, hr⟩ := Attempt.course_throw.mp hend
    cases hr
    exact .inl ⟨_, rfl, rfl⟩
  · cases (Attempt.course_pure.mp hend).2
  · cases (Attempt.course_throw.mp hend).2
  · obtain ⟨rfl, hr⟩ := Attempt.course_pure.mp hend
    cases hr
    obtain ⟨_, reply, logged, rfl, hsent, hlogged⟩ := Attempt.course_lift_bind.mp hreport
    obtain rfl := Session.course_request.mp hsent
    have hlog {level : LogLevel} {text : String}
        (h : Course (liftM (Session.log level text) : Attempt Unit).run logged r) : r = .ok () ∧ Routine logged := by
      obtain ⟨_, rfl, hnote⟩ := Attempt.course_lift.mp h
      rw [Session.course_note.mp hnote]
      exact ⟨rfl, by simp [Aside, Note.Aside], by simp⟩
    have hrest : r = .ok () ∧ Routine logged := by
      cases reply with
      | ok _ =>
        obtain ⟨rfl, rfl⟩ := Attempt.course_pure.mp hlogged
        exact ⟨rfl, .nil, by simp⟩
      | error failure =>
        cases failure with
        | refused status reason =>
          dsimp only at hlogged
          split at hlogged
          · exact hlog hlogged
          · exact hlog hlogged
        | _ => exact hlog hlogged
    exact .inr ⟨_, reply, logged, hrest.1, hrest.2, by simp⟩

end DynaKubes

namespace Controller

open Control (Neutral Tame Timekeeping Amounts Concluding requireErasable_tame course_bind course_attempt)

variable {k : Controller}

/-- Crossing out a name stops where it cannot be looked up in a table that has entries. -/
theorem clearRetry_run (name : Value) (b : Books) : (clearRetry name).run.run b =
    if name.isScalar || b.pending.isEmpty then
      let cleared := b.pending.erase name
      if name.isScalar || b.attempts.isEmpty then
        .tell (.pending cleared.size) (.done (.ok ⟨⟩, { b with pending := cleared, attempts := b.attempts.erase name }))
      else .done (.error (.object (.noName name.kindName)), { b with pending := cleared })
    else .done (.error (.object (.noName name.kindName)), b) := by
  refine (Control.requireErasable_bind b.pending name _ b).trans (if_congr Iff.rfl ?_ rfl)
  refine (Control.requireErasable_bind b.attempts name _ { b with pending := b.pending.erase name }).trans ?_
  exact if_congr Iff.rfl rfl rfl

/-- A name that cannot be crossed out is in no table, so that nothing changes wherever this stops. -/
theorem clearRetry_course {r : Except Fault Unit} (h : Course ((clearRetry name).run.run b) acts (r, b')) :
    r = .ok () ∧ acts = [.told (.pending (b.pending.erase name).size)] ∧
      b' = { b with pending := b.pending.erase name, attempts := b.attempts.erase name } ∨
    r = .error (.object (.noName name.kindName)) ∧ acts = [] ∧ b' = b ∧ name.isScalar = false := by
  rw [clearRetry_run] at h
  split at h
  · dsimp only at h
    split at h
    · obtain ⟨rest, rfl, hend⟩ := Session.course_tell.mp h
      obtain ⟨rfl, hr⟩ := Session.course_done.mp hend
      cases hr
      exact .inl ⟨rfl, rfl, rfl⟩
    · rename_i hstuck
      have hscalar : name.isScalar = false := by simp_all
      obtain ⟨rfl, hr⟩ := Session.course_done.mp h
      cases hr
      exact .inr ⟨rfl, rfl, by rw [b.pending.erase_of_not_scalar hscalar], hscalar⟩
  · rename_i hstuck
    have hscalar : name.isScalar = false := by simp_all
    obtain ⟨rfl, hr⟩ := Session.course_done.mp h
    cases hr
    exact .inr ⟨rfl, rfl, rfl, hscalar⟩

theorem clearRetry_raises {fault : Fault} (h : Course ((clearRetry name).run.run b) acts (.error fault, b')) :
    b.Unmoved acts b' := by
  rcases clearRetry_course h with ⟨hr, -⟩ | ⟨-, rfl, rfl, -⟩
  · cases hr
  · exact ⟨rfl, rfl, .nil⟩

theorem not_sameName_text {text : String} (h : name.isScalar = false) : ¬name.sameName (.text text) = true :=
  fun hname => by
    rw [Value.sameName_eq_text_iff.mp hname] at h
    cases h

theorem clearRetry_amounts (name : Value) : Amounts name false (clearRetry name) := by
  intro b acts r b' h
  rcases clearRetry_course h with ⟨rfl, rfl, rfl⟩ | ⟨rfl, rfl, rfl, hscalar⟩
  · have hcleared : Cleared name b { b with pending := b.pending.erase name, attempts := b.attempts.erase name } :=
      ⟨b.pending.get?_erase_text name, b.attempts.get?_erase_text name⟩
    exact ⟨⟨fun hd => hd.erase name, fun m _ => rfl⟩, rfl, by simp, fun _ _ => hcleared⟩
  · have hcleared : Cleared name b' b' :=
      ⟨fun text => (if_neg (not_sameName_text hscalar)).symm, fun text => (if_neg (not_sameName_text hscalar)).symm⟩
    exact ⟨⟨id, fun _ hm => hm⟩, rfl, by simp, fun _ _ => hcleared⟩

theorem scheduleRetry_run (name : Value) (now : Binary64) (b : Books) : (scheduleRetry name now).run.run b =
    if name.isScalar then
      let failures := (b.attempts.get? name).getD 0 + 1
      let attempts := b.attempts.set name failures
      if unboundedDelays ≤ failures then .done (.error .numberTooLarge, { b with attempts })
      else
        let delay := retryDelay failures
        let pending := b.pending.set name (now.add (.ofInt delay))
        .tell (.pending pending.size) (.tell (.log .warning ("Reconciliation of dynakube " ++ name.shown ++
          s!" failed; scheduling retry attempt {failures} in {delay}.0s"))
          (.done (.ok ⟨⟩, { b with attempts, pending })))
    else .done (.error (.object (.noName name.kindName)), b) := by
  refine (Control.lookUp_bind (·.attempts) name _ b).trans (if_congr Iff.rfl ?_ rfl)
  by_cases hmany : unboundedDelays ≤ (b.attempts.get? name).getD 0 + 1
  · simp only [hmany, if_true]
    rfl
  · simp only [hmany, if_false]
    rfl

/-- One more attempt is counted for the name. -/
theorem attempts_set (b : Books) (name : Value) (text : String) :
    (b.attempts.set name ((b.attempts.get? name).getD 0 + 1)).get? (.text text) =
      if name.sameName (.text text) = true then some ((b.attempts.get? (.text text)).getD 0 + 1)
      else b.attempts.get? (.text text) := by
  rw [NameTable.get?_set_text]
  split
  · rename_i hname
    rw [Value.sameName_eq_text_iff.mp hname]
  · rfl

/-- A name with so many failures has failed before, so that it is pending already. -/
theorem pending_of_many {text : String} (hsynced : b.Synced)
    (hmany : unboundedDelays ≤ (b.attempts.get? (.text text)).getD 0 + 1) :
    b.pending.contains (.text text) = true := by
  refine hsynced text ?_
  cases hbefore : b.attempts.get? (.text text) with
  | none => simp [hbefore, unboundedDelays] at hmany
  | some n => simp [NameTable.contains, hbefore]

theorem repeatLater_amounts (name : Value) : Amounts name true (repeatLater name) := by
  intro b acts r b' h
  obtain ⟨_, now, rest, rfl, hclock, hrest⟩ := Control.course_session_bind.mp h
  obtain rfl := Session.course_request.mp hclock
  rw [scheduleRetry_run] at hrest
  split at hrest
  · dsimp only at hrest
    split at hrest
    · rename_i hmany
      obtain ⟨rfl, hr⟩ := Session.course_done.mp hrest
      cases hr
      refine ⟨⟨id, fun m hm => hm⟩, rfl, by simp, fun _ hsynced => ⟨fun text => ?_, attempts_set b name⟩⟩
      split
      · rename_i hname
        rw [Value.sameName_eq_text_iff.mp hname] at hmany
        have hpending : b.pending.contains (.text text) = true := pending_of_many hsynced hmany
        exact hpending
      · rfl
    · obtain ⟨_, rfl, htold⟩ := Session.course_tell.mp hrest
      obtain ⟨_, rfl, hend⟩ := Session.course_tell.mp htold
      obtain ⟨rfl, hr⟩ := Session.course_done.mp hend
      cases hr
      refine ⟨⟨fun hd => hd.set name _, fun m hm => rfl⟩, rfl, by simp, fun _ _ =>
        ⟨fun text => ?_, attempts_set b name⟩⟩
      simp only [NameTable.contains, NameTable.get?_set_text]
      split <;> rfl
  · rename_i hscalar
    rw [Bool.not_eq_true] at hscalar
    obtain ⟨rfl, hr⟩ := Session.course_done.mp hrest
    cases hr
    exact ⟨⟨id, fun m hm => hm⟩, rfl, by simp, fun _ _ =>
      ⟨fun text => (if_neg (not_sameName_text hscalar)).symm, fun text => (if_neg (not_sameName_text hscalar)).symm⟩⟩

/-- A status that was the last one to be reported is not reported again. -/
theorem reportStatus_course {name : String} {state : MappingState} {message : String} {r : Except Fault Unit}
    (h : Course ((reportStatus name state message).run.run b) acts (r, b')) :
    (r = .ok () ∧ acts = [] ∧ b' = b ∧ b.lastStatus.get? (.text name) = some (state.name, message)) ∨
    (∃ time reply logged, r = .ok () ∧ Routine logged ∧ acts = .asked .wallTime (.ok time) ::
        .asked (.api (.patchStatus (.text name) ⟨state.name, message, Calendar.ofMilliseconds time⟩)) reply :: logged ∧
      b' = { b with lastStatus := b.lastStatus.set (.text name) (state.name, message) }) ∨
    ∃ error, r = .error (.calendar error) ∧ acts = [.asked .wallTime (.error error)] ∧ b' = b := by
  rcases course_bind.mp h with ⟨fault, -, hget⟩ | ⟨_, books, b₁, rest, rfl, hget, hrest⟩
  · cases (Session.course_done.mp hget).2
  obtain ⟨rfl, hr⟩ := Session.course_done.mp hget
  cases hr
  split at hrest
  · rename_i hknown
    obtain ⟨rfl, hr⟩ := Session.course_done.mp hrest
    cases hr
    exact .inl ⟨rfl, rfl, rfl, hknown⟩
  rcases course_bind.mp hrest with ⟨fault, rfl, hreport⟩ | ⟨_, _, b₂, last, rfl, hreport, hnoted⟩
  all_goals
    obtain ⟨hsent, rfl⟩ := course_attempt.mp hreport
    rcases DynaKubes.reportStatus_course hsent with ⟨error, hr, rfl⟩ | ⟨time, reply, logged, hr, hlogged, rfl⟩
    all_goals cases hr
  · exact .inr (.inr ⟨error, rfl, rfl, rfl⟩)
  · obtain ⟨rfl, hr⟩ := Session.course_done.mp hnoted
    cases hr
    exact .inr (.inl ⟨time, reply, logged, rfl, hlogged, by simp, rfl⟩)

theorem reportStatus_neutral (name : String) (state : MappingState) (message : String) :
    Neutral (reportStatus name state message) := by
  intro b acts r b' h
  rcases reportStatus_course h with ⟨-, rfl, rfl, -⟩ | ⟨time, reply, logged, -, hlogged, rfl, rfl⟩ |
    ⟨error, -, rfl, rfl⟩
  · exact ⟨rfl, rfl, .nil⟩
  · refine ⟨rfl, rfl, fun note hmem => hlogged.aside note ?_⟩
    simpa using hmem
  · exact ⟨rfl, rfl, by simp [Aside]⟩

theorem reportStatus_timekeeping (name : String) (state : MappingState) (message : String) :
    Timekeeping (reportStatus name state message) := by
  intro b acts fault b' h
  rcases reportStatus_course h with ⟨hr, -⟩ | ⟨time, reply, logged, hr, -⟩ | ⟨error, hr, rfl, -⟩
  · cases hr
  · cases hr
  · cases hr
    exact ⟨error, rfl, by simp⟩

theorem forget_tame (name : Value) : Tame (forget name) := by
  refine .bind .get fun b => .bind (requireErasable_tame _ name) fun _ => ?_
  refine .bind (.modify fun _ => ⟨rfl, rfl⟩) fun _ => ?_
  exact .bind .get fun b => .bind (requireErasable_tame _ name) fun _ => .modify fun _ => ⟨rfl, rfl⟩

theorem conclude_amounts (d : DynaKube) (v : Except Fault MappingResult) :
    Amounts (.text d.name) (resultOf v).failed (conclude d v) := by
  refine .after (reportStatus_neutral _ _ _) (reportStatus_timekeeping _ _ _) ?_
  rw [failed_resultOf]
  cases isFinal v with
  | true => exact (clearRetry_amounts _).bind fun _ => .modify fun b => ⟨rfl, rfl⟩
  | false => exact repeatLater_amounts _

theorem settleMapped_concluding (d : DynaKube) (v : Except Fault MappingResult) :
    Concluding (.text d.name) (settleMapped d v) := by
  have hcounted := (conclude_amounts d v).counted
  rcases settleMapped_eq d v with heq | ⟨level, text, heq⟩
  · rw [heq]
    exact hcounted
  · rw [heq]
    exact .note trivial hcounted

theorem settleUnmapped_concluding (name : Value) (v : Except Fault MappingResult) :
    Concluding name (settleUnmapped name v) := by
  cases v with
  | ok result => exact Amounts.counted ((clearRetry_amounts _).bind fun _ => forget_tame name)
  | error fault => exact .note trivial (repeatLater_amounts name).counted

/-- The routine around the dealing does not matter. -/
theorem concludes_of_operates {x : Attempt α} {deal : Except Fault α → Control Unit} {v : Except Fault α}
    {r : Except Fault Unit} (hx : x.run.Within Request.OfMapping) (hdeal : ∀ v, Concluding name (deal v))
    (h : Operates x deal b acts v r b') : Concludes name b acts r b' := by
  obtain ⟨before, inner, after, rfl, hbefore, hafter, hdealt⟩ := h.exists_dealt hx
  have hconcludes := hdeal v _ _ _ _ hdealt
  exact hconcludes.around hbefore.aside ⟨rfl, rfl, hafter.aside⟩ hconcludes.raised

theorem reconcile_concluding (d : DynaKube) : Concluding (.text d.name) (k.reconcile d) := by
  intro b acts r b' h
  obtain ⟨v, r', hoperates, hraised⟩ := reconcile_operates h
  have hconcludes := concludes_of_operates (mapping_within k d) (settleMapped_concluding d) hoperates
  exact ⟨hconcludes.kept, fun failure hr => hconcludes.raised failure ((hraised _).mp hr), hconcludes.counted⟩

theorem unmap_concluding (name : Value) : Concluding name (k.unmap name) := by
  intro b acts r b' h
  obtain ⟨v, r', hoperates, hraised⟩ := unmap_operates h
  have hconcludes := concludes_of_operates (unmapping_within k name) (settleUnmapped_concluding name) hoperates
  exact ⟨hconcludes.kept, fun failure hr => hconcludes.raised failure ((hraised _).mp hr), hconcludes.counted⟩

section Requests

open Control (Asks)
open Request (OfOperation allowsDealing_ofOperation)

theorem asks_housekeeping {allowed : Request → Prop} (hallowed : Request.AllowsDealing allowed) :
    Control.Housekeeping fun x => Asks allowed x where
  toClosed := Asks.closed allowed
  modify g _ := .modify g
  pending _ := .note _
  clock := .request hallowed.clock
  report _ _ _ := .attempt (DynaKubes.reportStatus_within hallowed _ _ _)

private theorem ofOperation_housekeeping : Control.Housekeeping fun x => Asks OfOperation x :=
  asks_housekeeping allowsDealing_ofOperation

theorem reconcile_asks (d : DynaKube) : Asks OfOperation (k.reconcile d) := by
  have hmapping : Asks OfOperation (Control.attempt (k.mapping d)) :=
    .attempt ((mapping_within k d).mono fun _ h => .mapping h)
  exact ofOperation_housekeeping.reconcile (fun _ => .note _) (fun _ => .note _) hmapping

theorem unmap_asks (name : Value) : Asks OfOperation (k.unmap name) := by
  have hunmapping : Asks OfOperation (Control.attempt (k.unmapping name)) :=
    .attempt ((unmapping_within k name).mono fun _ h => .mapping h)
  exact ofOperation_housekeeping.unmap (fun _ => .note _) (fun _ => .note _) hunmapping

theorem retry_asks (name : Value) : Asks OfOperation (k.retry name) := by
  refine (Asks.closed OfOperation).retry (.attempt ((DynaKubes.get?_within name).mono ?_)) (unmap_asks name)
    reconcile_asks
  rintro request ⟨_, rfl⟩
  exact .mapping (.dynakube _)

theorem retryAll_asks (names : List Value) : Asks OfOperation (k.retryAll names) :=
  (Asks.closed OfOperation).retryAll retry_asks ofOperation_housekeeping.repeatLater names

theorem planResync_asks (k : Controller) : Asks Request.OfMapping k.planResync := by
  have hplus (now : Binary64) : (plus now k.resyncPeriod).run.Within Request.OfMapping :=
    (plus_asks_nothing now _).mono fun _ => False.elim
  exact .bind (.request .clock) fun now => .bind (.attempt (hplus _)) fun _ => .modify _

theorem planResync_course {now : Int} {next : Binary64} (hfinite : (Binary64.ofInt k.resyncPeriod).isFinite = true)
    (hnext : (Clock.seconds now).add (.ofInt k.resyncPeriod) = next) :
    Course (k.planResync.run.run b) [.asked .clock now] (.ok ⟨⟩, { b with nextResync := some next }) := by
  subst hnext
  rw [planResync_run k b hfinite]
  exact .ask (.done _)

theorem handleEvent_asks (type : String) (object : Value) : Asks OfOperation (k.handleEvent type object) := by
  have hclosed := Asks.closed OfOperation
  refine hclosed.handleEvent (fun v => .attempt (DynaKubes.fieldsOf_within v)) (fun name text => ?_)
    (fun change name _ => hclosed.handleObject change name fun d _ => reconcile_asks d) type object
  exact .bind (.note _) fun _ => .bind (ofOperation_housekeeping.clearRetry name) fun _ => unmap_asks name

end Requests

section Empty

/-- The answer to a listing of DynaKubes where there is none. -/
def emptyListing : Value := .fields [("items", .list [])]

theorem list_course_empty :
    Course DynaKubes.list.run [.asked (.api .listDynaKubes) (.ok emptyListing)] (.ok ([], .null)) := by
  have hsorted : ∃ ds, ds = [] ∧
      Course DynaKubes.list.run [.asked (.api .listDynaKubes) (.ok emptyListing)] (.ok (ds, .null)) :=
    ⟨_, List.mergeSort_nil, .ask (.done _)⟩
  obtain ⟨ds, rfl, hcourse⟩ := hsorted
  exact hcourse

theorem survey_course_empty (k : Controller) :
    Course k.mapper.ledger.list.run [.asked (.api (.listNamespaces none)) (.ok [])] (.ok []) := by
  have hsorted : ∃ records, records = [] ∧ Course k.mapper.ledger.list.run
      [.asked (.api (.listNamespaces none)) (.ok [])] (.ok records) := ⟨_, List.mergeSort_nil, .ask (.done _)⟩
  obtain ⟨records, rfl, hcourse⟩ := hsorted
  exact hcourse

theorem orphans_empty : orphans [] [] = [] := List.mergeSort_nil

/-- A resync that finds no DynaKubes and no namespaces only plans the next one. -/
theorem resync_course_empty (hplan : Course (k.planResync.run.run b) acts (.ok ⟨⟩, b')) :
    Course (k.resync.run.run b) (.asked (.api .listDynaKubes) (.ok emptyListing) ::
      .asked (.api (.listNamespaces none)) (.ok []) :: acts) (.ok .null, b') := by
  refine course_bind.mpr (.inr ⟨[_], ([], .null), b, _ :: acts, rfl, course_attempt.mpr ⟨list_course_empty, rfl⟩, ?_⟩)
  refine course_bind.mpr (.inr ⟨[], ⟨⟩, b, _ :: acts, rfl, .done _, ?_⟩)
  refine course_bind.mpr (.inr ⟨[_], [], b, acts, rfl, course_attempt.mpr ⟨survey_course_empty k, rfl⟩, ?_⟩)
  refine course_bind.mpr (.inr ⟨[], ⟨⟩, b, acts, rfl, ?_, ?_⟩)
  · simp only [List.map_nil, orphans_empty]
    exact .done _
  · exact course_bind.mpr (.inr ⟨acts, ⟨⟩, b', [], by simp, hplan, .done _⟩)

end Empty

end Controller

end NamespaceOwnership
