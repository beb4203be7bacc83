import NamespaceOwnership.Controller.Loop
import NamespaceOwnership.Proofs.Controller.Bookkeeping
import NamespaceOwnership.Proofs.Controller.Faults

/-!
# How the control loop ends

The loop returns only after a stop was requested or access was denied, and then it is not ready. What fails in the
first resync, in a stream or between the events of one is logged, and the loop goes on. Two pieces of work are not
guarded in this way: what is due before a stream is opened, and the resync after a stream expired. There only a
refusal is handled, so a call that breaks off or a DynaKube that cannot be read ends the loop with a fault, and it
stays ready.
-/
namespace NamespaceOwnership

open Session (Runs)

variable {i : Interference} {k : Controller} {c c' : Cluster} {b b' : Books} {past tr : List Event}

namespace Event

/-- A stream could not be opened, or it broke off. -/
inductive BreaksStream (failure : CallFailure) : Event → Prop where
  | opening (c : Cluster) (version : Value) (timeout : Nat) (c' : Cluster) :
      BreaksStream failure (.asked (.call c (.openWatch version timeout) (.error failure) c'))
  | following (c c' : Cluster) : BreaksStream failure (.asked ⟨c, .nextEvent, .failed failure, c'⟩)

/-- A look-up or a stream failed. -/
inductive Breaks (failure : CallFailure) (e : Event) : Prop where
  | stream (h : e.BreaksStream failure)
  | lookUp {c c' : Cluster} {call : ApiCall} (h : call.LooksUp)
      (eq : e = .asked (.call c call (.error failure) c'))

end Event

namespace Controller

/-- A stop was requested by then. -/
def Stopped (tr : List Event) : Prop := ∃ c c', .asked ⟨c, .stopRequested, true, c'⟩ ∈ tr

/-- Access was denied by then. -/
def Denied (tr : List Event) : Prop :=
  ∃ e ∈ tr, ∃ failure status, e.Breaks failure ∧ failure.status? = some status ∧ (status = 401 ∨ status = 403)

/-- How the loop gets to end with a fault, after all that has happened. -/
inductive Escapes (i : Interference) (k : Controller) (tr : List Event) (fault : Fault) : Prop where
  | due {c₁ c₁' c₂ c₂' c c' : Cluster} {now : Int} {b b' : Books} {past work : List Event}
      (trace : tr = past ++ .asked ⟨c₁, .stopRequested, false, c₁'⟩ :: .asked ⟨c₂, .clock, now, c₂'⟩ :: work)
      (run : Runs i ((k.drain (Clock.seconds now)).run.run b) c work (.error fault, b') c')
      (cause : Cause CallFailure.BreaksOff (fun _ => False) work fault)
  | expired {c₁ c₁' c c' : Cluster} {b b' : Books} {past work : List Event} {e : Event} {failure : CallFailure}
      {text : String} (broken : e.BreaksStream failure) (gone : failure.status? = some 410)
      (trace : tr = past ++ e :: .told (.log .warning text) :: work ++ [.asked ⟨c₁, .closeWatch, (), c₁'⟩])
      (run : Runs i (k.resync.run.run b) c work (.error fault, b') c')
      (cause : Cause CallFailure.BreaksOff (fun _ => False) work fault)

/-- What has happened when the loop stands there. -/
def Stands (i : Interference) (k : Controller) (tr : List Event) : Except Fault Phase → Books → Prop
  | .ok .ended, b => (Stopped tr ∨ Denied tr) ∧ b.ready = false
  | .ok _, _ => True
  | .error fault, _ => k.Escapes i tr fault

theorem Denied.mono (h : Denied past) (hsub : ∀ e ∈ past, e ∈ tr) : Denied tr := by
  obtain ⟨e, he, rest⟩ := h
  exact ⟨e, hsub e he, rest⟩

theorem denied?_eq_some {fault : Fault} {status : Int} :
    denied? fault = some status ↔ fault.status? = some status ∧ (status = 401 ∨ status = 403) := by
  rw [denied?, Option.filter_eq_some_iff]
  simp

/-- What access was denied to is in the trace. -/
theorem Denied.of_cause {fault : Fault} {status : Int} (h : Cause (fun _ => True) (fun _ => False) tr fault)
    (hs : denied? fault = some status) : Denied tr := by
  obtain ⟨hstatus, hdenied⟩ := denied?_eq_some.mp hs
  cases h with
  | known h => exact h.elim
  | call looksUp severe asked => exact ⟨_, asked, _, status, .lookUp looksUp rfl, hstatus, hdenied⟩
  | _ => cases hstatus

theorem pause_ends {delay : Nat} {α : Type} {f : Unit → Control α}
    {post : List Event → Except Fault α → Books → Prop} (h : ∀ tr, Control.Ends i (past ++ tr) (f ()) post) :
    Control.Ends i past (pause delay >>= f) post := by
  unfold pause
  rw [bind_assoc]
  refine .request_bind fun c₁ jitter c₂ => .request_bind fun c₃ _ c₄ => ?_
  rw [List.append_assoc]
  exact h _

theorem closing_ends {α : Type} {body : Control α} {post : List Event → Except Fault α → Books → Prop}
    (h : Control.Ends i past body fun tr r b =>
      ∀ c c', post (tr ++ [.asked ⟨c, .closeWatch, (), c'⟩]) r b) :
    Control.Ends i past (closing body) post := by
  intro b c tr r b' c' hrun
  obtain ⟨tr₁, first, b₁, c₁, tr₂, rfl, hbody, hrest⟩ := Control.runs_outcome_bind.mp hrun
  obtain ⟨c₂, answer, c₃, rest, -, -, rfl, hend⟩ := Session.runs_ask.mp hrest
  have hclosed := h _ _ _ _ _ _ hbody c₂ c₃
  rw [← List.append_assoc]
  cases first with
  | ok a =>
    obtain ⟨rfl, hr, -⟩ := Session.runs_done.mp hend
    cases hr
    exact hclosed
  | error fault =>
    obtain ⟨rfl, hr, -⟩ := Session.runs_done.mp hend
    cases hr
    exact hclosed

/-- The same once the stream has been closed. -/
def StandsClosed (i : Interference) (k : Controller) (tr : List Event) (r : Except Fault Phase) (b : Books) : Prop :=
  ∀ c c', Stands i k (tr ++ [.asked ⟨c, .closeWatch, (), c'⟩]) r b

theorem recoverExpired_ends {e : Event} {failure : CallFailure} {delay streams : Nat} (he : e.BreaksStream failure)
    (hgone : failure.status? = some 410) :
    Control.Ends i (past ++ [e]) (k.recoverExpired delay streams) (StandsClosed i k) := by
  refine .note_bind (.outcome_bind fun b c tr r b' c' hrun => ?_)
  cases r with
  | ok version => exact .pure fun _ _ _ => trivial
  | error fault =>
    have hcause : Cause (fun _ => True) (fun _ => False) tr fault :=
      resync_explained (fun _ => trivial) _ _ _ _ _ _ hrun
    dsimp only
    cases hrefused : fault.isRefusal with
    | false =>
      have hbroken : Cause CallFailure.BreaksOff (fun _ => False) tr fault :=
        hcause.imp (fun _ hcall _ => (congrArg _ hcall).symm.trans hrefused) False.elim fun _ h => h
      refine .throw_bind fun _ c₁ c₂ => ?_
      exact .expired he hgone (by simp; rfl) hrun hbroken
    | true =>
      cases hdenied : denied? fault with
      | none => exact .note_bind (.note_bind (.pure fun _ _ _ => trivial))
      | some status =>
        refine .note_bind (.modify_pure fun b c₁ c₂ => ⟨.inr ?_, rfl⟩)
        exact (Denied.of_cause hcause hdenied).mono (by simp +contextual)

theorem recover_ends {fault : Fault} {version : Value} {delay streams : Nat}
    (hfault : ∀ status, fault.status? = some status → ∃ pre e failure, past = pre ++ [e] ∧
      e.BreaksStream failure ∧ failure.status? = some status) :
    Control.Ends i past (k.recover fault version delay streams) (StandsClosed i k) := by
  unfold recover
  split
  · rename_i hgone
    obtain ⟨pre, e, failure, rfl, he, hstatus⟩ := hfault 410 hgone
    exact recoverExpired_ends he hstatus
  · cases hdenied : denied? fault with
    | none => exact .note_bind (.note_bind (pause_ends fun _ => .pure fun _ _ _ => trivial))
    | some status =>
      obtain ⟨hs, hstatus⟩ := denied?_eq_some.mp hdenied
      obtain ⟨pre, e, failure, rfl, he, hfailure⟩ := hfault status hs
      refine .note_bind (.note_bind (.modify_pure fun b c₁ c₂ => ⟨.inr ?_, rfl⟩))
      exact ⟨e, by simp, failure, status, .stream he, hfailure, hstatus⟩

theorem stepStarting_ends {delay : Nat} : Control.Ends i past (k.stepStarting delay) (Stands i k) := by
  refine .request_bind fun c₁ stop c₂ => ?_
  split
  · exact .pure fun _ => trivial
  refine .outcome_bind fun b c tr r b' c' hrun => ?_
  cases r with
  | ok version => exact .modify_bind (.note_bind (.pure fun _ => trivial))
  | error fault =>
    cases hdenied : denied? fault with
    | none =>
      simp only [hdenied]
      exact .note_bind (.note_bind (pause_ends fun _ => .pure fun _ => trivial))
    | some status =>
      simp only [hdenied]
      refine .note_bind (.modify_pure fun b => ⟨.inr ?_, rfl⟩)
      exact (Denied.of_cause (resync_explained (fun _ => trivial) _ _ _ _ _ _ hrun) hdenied).mono (by simp +contextual)

/-- A fault without a status is logged, whatever comes before it. -/
theorem logged_ends {fault : Fault} {version : Value} {delay streams : Nat} (h : fault.status? = none) :
    Control.Ends i past (closing (k.recover fault version delay streams)) (Stands i k) :=
  closing_ends (recover_ends fun _ hs => by cases h.symm.trans hs)

theorem openStream_ends {version : Value} {delay streams : Nat} :
    Control.Ends i past (k.openStream version delay streams) (Stands i k) := by
  refine .get_bind fun b => .request_bind fun _ now _ => ?_
  cases htimeout : b.watchTimeout (Clock.seconds now) with
  | error fault => exact logged_ends (by rw [Books.watchTimeout_error htimeout]; rfl)
  | ok timeout =>
    refine .request_bind fun c₁ reply c₂ => ?_
    cases reply with
    | ok _ => exact .pure fun _ => trivial
    | error failure =>
      refine closing_ends (recover_ends fun status hs => ?_)
      exact ⟨_, _, failure, rfl, .opening c₁ version timeout c₂, hs⟩

theorem stepOpening_ends {version : Value} {delay streams : Nat} :
    Control.Ends i past (k.stepOpening version delay streams) (Stands i k) := by
  refine .request_bind fun c₁ stop c₂ => ?_
  cases stop with
  | true => exact .modify_pure fun b => ⟨.inl ⟨c₁, c₂, by simp⟩, rfl⟩
  | false =>
  refine .request_bind fun c₃ now c₄ => .bind (fun b c tr fault b' c' hrun => ?_) fun b c tr _ b' c' hrun => ?_
  · exact .due (by simp; rfl) hrun (drain_explained (Clock.seconds now) _ _ _ _ _ _ hrun)
  split
  · exact .note_bind openStream_ends
  · exact openStream_ends

theorem fieldsOf_error {v : Value} {fault : Fault} (h : versionAfter.fieldsOf v = .error fault) :
    fault.status? = none := by
  unfold versionAfter.fieldsOf at h
  cases hread : DynaKube.fieldsOf v with
  | ok entries =>
    rw [hread] at h
    cases h
  | error e =>
    rw [hread] at h
    cases h
    rfl

theorem versionAfter_error {version event : Value} {fault : Fault} (h : versionAfter version event = .error fault) :
    fault.status? = none := by
  unfold versionAfter at h
  cases hevent : versionAfter.fieldsOf event with
  | error first =>
    rw [hevent] at h
    cases h
    exact fieldsOf_error hevent
  | ok entries =>
    rw [hevent] at h
    dsimp only [bind, Except.bind] at h
    split at h
    · rename_i inner _
      cases hmetadata : versionAfter.fieldsOf (Value.entry inner "metadata").orEmpty with
      | error first =>
        rw [hmetadata] at h
        cases h
        exact fieldsOf_error hmetadata
      | ok metadata =>
        rw [hmetadata] at h
        cases h
    · cases h

/-- The work that follows an event never fails with a status. -/
theorem work_status {type : String} {object : Value} {fault : Fault}
    (h : Runs i ((do let _ ← k.handleEvent type object; k.drain (Clock.seconds (← Session.clock)) : Control Unit).run.run b) c tr
      (.error fault, b') c') : fault.status? = none := by
  have hwork : Control.Explained i CallFailure.BreaksOff (fun fault => ∃ e, fault = .object e)
      (do let _ ← k.handleEvent type object; k.drain (Clock.seconds (← Session.clock)) : Control Unit) :=
    .bind (handleEvent_explained type object) fun _ => .bind .session fun now => drain_explained (Clock.seconds now)
  refine (hwork _ _ _ _ _ _ h).status?_eq_none ?_
  rintro ⟨e, rfl⟩
  rfl

theorem stepFollowing_ends {version : Value} {delay streams : Nat} :
    Control.Ends i past (k.stepFollowing version delay streams) (Stands i k) := by
  refine .request_bind fun c₁ answer c₂ => ?_
  cases answer with
  | failed failure =>
    refine closing_ends (recover_ends fun status hs => ?_)
    exact ⟨_, _, failure, rfl, .following c₁ c₂, hs⟩
  | ended => exact closing_ends (.pure fun _ _ _ => trivial)
  | event event =>
  refine .request_bind fun c₃ stop c₄ => ?_
  split
  · exact closing_ends (.pure fun _ _ _ => trivial)
  split
  · rename_i fault hversion
    exact logged_ends (versionAfter_error hversion)
  · refine .outcome_bind fun b c tr r b' c' hrun => ?_
    cases r with
    | ok _ => exact .pure fun _ => trivial
    | error fault => exact logged_ends (work_status hrun)

/-- One step of the loop. -/
theorem step_stands {phase : Phase} {r : Except Fault Phase} (hpast : Stands i k past (.ok phase) b)
    (h : Runs i ((k.step phase).run.run b) c tr (r, b') c') : Stands i k (past ++ tr) r b' := by
  cases phase with
  | starting delay => exact stepStarting_ends _ _ _ _ _ _ h
  | opening version delay streams => exact stepOpening_ends _ _ _ _ _ _ h
  | following version delay streams => exact stepFollowing_ends _ _ _ _ _ _ h
  | ended =>
    obtain ⟨rfl, hr, -⟩ := Session.runs_done.mp h
    cases hr
    rwa [List.append_nil]

/-- So many steps of the loop, from wherever it stands. -/
theorem steps_stands {n : Nat} {phase : Phase} {r : Except Fault Phase} (hpast : Stands i k past (.ok phase) b)
    (h : Runs i ((k.steps n phase).run.run b) c tr (r, b') c') : Stands i k (past ++ tr) r b' := by
  induction n generalizing past phase b c tr with
  | zero =>
    obtain ⟨rfl, hr, -⟩ := Session.runs_done.mp h
    cases hr
    rwa [List.append_nil]
  | succ n ih =>
    have hstep (h : Runs i ((k.step phase >>= k.steps n).run.run b) c tr (r, b') c') :
        Stands i k (past ++ tr) r b' := by
      rcases Control.runs_bind.mp h with ⟨fault, rfl, hfail⟩ | ⟨tr₁, next, b₁, c₁, tr₂, rfl, hfirst, hrest⟩
      · exact step_stands hpast hfail
      · rw [← List.append_assoc]
        exact ih (step_stands hpast hfirst) hrest
    cases phase with
    | ended =>
      obtain ⟨rfl, hr, -⟩ := Session.runs_done.mp h
      cases hr
      rwa [List.append_nil]
    | _ => exact hstep h

/-- Whatever others do and whichever calls fail, in any number of steps: the loop returns only after a stop was
requested or access was denied, and then it is not ready. It ends with a fault only where the work that is due before
a stream is opened, or the resync after an expired stream, ran into something else than a refusal. -/
theorem runFor_ends {n : Nat} {r : Except Fault Phase} (h : Runs i ((k.runFor n).run.run b) c tr (r, b') c') :
    (r = .ok .ended → (Stopped tr ∨ Denied tr) ∧ b'.ready = false) ∧
      ∀ fault, r = .error fault → k.Escapes i tr fault := by
  have hstart (past : List Event) (b : Books) : Stands i k past (.ok (.starting firstDelay)) b := trivial
  have hstands : Control.Ends i [] (k.runFor n) (Stands i k) := .request_bind fun _ _ _ b _ _ _ _ _ hrun =>
    steps_stands (hstart _ b) hrun
  have hlast : Stands i k tr r b' := hstands _ _ _ _ _ _ h
  refine ⟨?_, ?_⟩
  · rintro rfl
    exact hlast
  · rintro fault rfl
    exact hlast

section Unguarded

/-- What fails in the work that is due before a stream is opened is not caught. -/
theorem stepOpening_raises {c₁ c₂ : Cluster} {version : Value} {delay streams : Nat} {now : Int} {fault : Fault}
    {work : List Event} (hstop : i.moves c c₁ ∧ i.Answers c₁ .stopRequested false c₁)
    (hclock : i.moves c₁ c₂ ∧ i.Answers c₂ .clock now c₂)
    (h : Runs i ((k.drain (Clock.seconds now)).run.run b) c₂ work (.error fault, b') c') :
    Runs i ((k.stepOpening version delay streams).run.run b) c
      (.asked ⟨c₁, .stopRequested, false, c₁⟩ :: .asked ⟨c₂, .clock, now, c₂⟩ :: work) (.error fault, b') c' :=
  .ask hstop.1 hstop.2 (.ask hclock.1 hclock.2 (Control.runs_bind.mpr (.inl ⟨fault, rfl, h⟩)))

/-- Nor is what the resync after an expired stream runs into, unless it is a refusal. -/
theorem recoverExpired_raises {delay streams : Nat} {fault : Fault} {work : List Event}
    (h : Runs i (k.resync.run.run b) c work (.error fault, b') c') (hbroken : fault.isRefusal = false) :
    Runs i ((k.recoverExpired delay streams).run.run b) c
      (.told (.log .warning "DynaKube watch resource version expired, resyncing") :: work) (.error fault, b') c' := by
  refine .tell ?_
  rw [← List.append_nil work]
  refine Control.runs_outcome_bind.mpr ⟨_, _, _, _, _, rfl, h, ?_⟩
  simp only [hbroken, Bool.not_false, if_true]
  exact .done _ _

private def bareListing : Value := .fields [("items", .list [])]

private theorem bare_listed : Runs .honest DynaKubes.list.run Cluster.blank
    [.asked (.call .blank .listDynaKubes (.ok bareListing) .blank)] (.ok ([], .null)) Cluster.blank := by
  have hlists : Cluster.blank.ListsDynaKubes bareListing :=
    ⟨_, [], rfl, List.nodup_nil, fun name => by simp [Cluster.blank], rfl⟩
  have hsorted : ∃ ds, ds = [] ∧ Runs .honest DynaKubes.list.run Cluster.blank
      [.asked (.call .blank .listDynaKubes (.ok bareListing) .blank)] (.ok (ds, .null)) Cluster.blank :=
    ⟨_, List.mergeSort_nil, .ask .refl ⟨rfl, hlists⟩ (.done _ _)⟩
  obtain ⟨ds, rfl, hrun⟩ := hsorted
  exact hrun

private def patient : Controller := ⟨⟨⟨2, Nat.two_pos⟩, "operator"⟩, 30, 60⟩

private theorem orphans_nil : orphans [] (Namespaces.records []) = [] := by
  have hrecords : Namespaces.records [] = [] := List.mergeSort_nil
  rw [hrecords]
  exact List.mergeSort_nil

private theorem patient_resync : Runs .honest (patient.resync.run.run {}) Cluster.blank
    [.asked (.call .blank .listDynaKubes (.ok bareListing) .blank),
      .asked (.call .blank (.listNamespaces none) (.ok []) .blank), .asked ⟨.blank, .clock, 0, .blank⟩]
    (.ok .null, { nextResync := some (.ofInt 60) }) Cluster.blank := by
  have hspaces : Runs .honest patient.mapper.ledger.list.run Cluster.blank
      [.asked (.call .blank (.listNamespaces none) (.ok []) .blank)] (.ok (Namespaces.records [])) Cluster.blank :=
    .ask .refl ⟨rfl, by simp, by simp [Cluster.blank]⟩ (.done _ _)
  have hplan : Runs .honest (patient.planResync.run.run {}) Cluster.blank [.asked ⟨.blank, .clock, 0, .blank⟩]
      (.ok ⟨⟩, { nextResync := some (.ofInt 60) }) Cluster.blank := by
    have hnext : (Clock.seconds 0).add (.ofInt patient.resyncPeriod) = .ofInt 60 := by decide +kernel
    rw [planResync_run patient {} (by decide +kernel), ← hnext]
    exact .ask .refl ⟨trivial, rfl⟩ (.done _ _)
  refine Control.runs_bind.mpr (.inr ⟨[_], ([], .null), {}, .blank, [_, _], rfl,
    Control.runs_attempt.mpr ⟨bare_listed, rfl⟩, ?_⟩)
  refine Control.runs_bind.mpr (.inr ⟨[], ⟨⟩, {}, .blank, [_, _], rfl, .done _ _, ?_⟩)
  refine Control.runs_bind.mpr (.inr ⟨[_], _, {}, .blank, [_], rfl, Control.runs_attempt.mpr ⟨hspaces, rfl⟩, ?_⟩)
  refine Control.runs_bind.mpr (.inr ⟨[], ⟨⟩, {}, .blank, [_], rfl, ?_, ?_⟩)
  · change Runs _ ((patient.unmapOrphans (orphans [] (Namespaces.records []))).run.run _) _ _ _ _
    rw [orphans_nil]
    exact .done _ _
  · exact Control.runs_bind.mpr (.inr ⟨[_], ⟨⟩, _, .blank, [], rfl, hplan, .done _ _⟩)

private def reset : CallFailure := .broken .connection "connection reset"

/-- The first resync succeeds; when the next one is due, a stream is about to be opened and the listing fails. -/
private theorem patient_breaks : ∃ tr b', Runs .honest ((patient.runFor 2).run.run {}) Cluster.blank tr
    (.error (.call reset), b') Cluster.blank ∧ b'.ready = true := by
  let ready : Books := { nextResync := some (.ofInt 60), ready := true }
  have hfirst : ∃ tr, Runs .honest ((patient.stepStarting firstDelay).run.run {}) Cluster.blank tr
      (.ok (.opening .null firstDelay 0), ready) Cluster.blank :=
    ⟨_, Control.runs_session_bind.mpr ⟨_, false, _, _, rfl, .ask .refl ⟨trivial, rfl⟩ (.done _ _),
      Control.runs_outcome_bind.mpr ⟨_, _, _, _, _, rfl, patient_resync, .tell (.done _ _)⟩⟩⟩
  have hdrain : Runs .honest ((patient.drain (Clock.seconds 60000)).run.run ready) Cluster.blank
      [.told (.log .info "Starting periodic resync of all dynakubes"),
        .asked (.call .blank .listDynaKubes (.error reset) .blank)] (.error (.call reset), ready) Cluster.blank :=
    .tell (.ask .refl ⟨fun _ => trivial, rfl⟩ (.done _ _))
  obtain ⟨tr, hstarting⟩ := hfirst
  have hopening : ∃ tr, Runs .honest ((patient.stepOpening .null firstDelay 0).run.run ready) Cluster.blank tr
      (.error (.call reset), ready) Cluster.blank :=
    ⟨_, stepOpening_raises ⟨.refl, trivial, rfl⟩ ⟨.refl, trivial, rfl⟩ hdrain⟩
  obtain ⟨tr', hopening⟩ := hopening
  have hsteps : Runs .honest ((patient.steps 2 (.starting firstDelay)).run.run {}) Cluster.blank (tr ++ tr')
      (.error (.call reset), ready) Cluster.blank :=
    Control.runs_bind.mpr (.inr ⟨tr, _, ready, _, tr', rfl, hstarting, Control.runs_bind.mpr (.inl ⟨_, rfl, hopening⟩)⟩)
  exact ⟨_, ready, Control.runs_session_bind.mpr ⟨_, _, _, _, rfl, .ask .refl ⟨trivial, rfl⟩ (.done () _), hsteps⟩, rfl⟩

/-- A connection that breaks while the periodic resync lists the DynaKubes ends the loop, which stays ready. -/
theorem broken_resync_escapes : ∃ (k : Controller) (n : Nat) (c c' : Cluster) (tr : List Event) (text : String)
    (b' : Books), Runs .honest ((k.runFor n).run.run {}) c tr (.error (.call (.broken .connection text)), b') c' ∧
      b'.ready = true := by
  obtain ⟨tr, b', hrun, hready⟩ := patient_breaks
  exact ⟨patient, 2, _, _, tr, _, b', hrun, hready⟩

/-- There the theorem says how that came about. -/
theorem runFor_ends_broken : ∃ (k : Controller) (n : Nat) (c c' : Cluster) (tr : List Event) (fault : Fault)
    (b' : Books), Runs .honest ((k.runFor n).run.run {}) c tr (.error fault, b') c' ∧ k.Escapes .honest tr fault := by
  obtain ⟨tr, b', hrun, -⟩ := patient_breaks
  exact ⟨patient, 2, _, _, tr, _, b', hrun, (runFor_ends hrun).2 _ rfl⟩

end Unguarded

end Controller
end NamespaceOwnership
