import NamespaceOwnership.Proofs.Controller.Account

/-!
# The status that is shown

A status is not reported where it was the last to be reported. So after each reconciliation the last report on the
DynaKube carried its outcome (`Controller.outcome_was_reported_last`), whenever that report was sent. It was not
necessarily accepted: what is kept in mind as reported is what was sent.
-/
namespace NamespaceOwnership

open Controller (statusOf isFinal)
open Session (Course)

variable {k : Controller} {b b' : Books} {acts past : List Act} {log : List Entry} {entry : Entry}
  {stage stage' : ResyncStage} {name : String} {status : String × String}

/-- The last report on the status of the name, and what was answered to it. -/
def LastReport (acts : List Act) (name : String) (report : StatusReport) (reply : Except CallFailure Unit) : Prop :=
  ∃ before after, acts = before ++ .asked (.api (.patchStatus (.text name) report)) reply :: after ∧
    Unreported name after

/-- The last report on the status of the name that was accepted. -/
def LastAccepted (acts : List Act) (name : String) (report : StatusReport) : Prop :=
  ∃ before after, acts = before ++ .asked (.api (.patchStatus (.text name) report)) (.ok ()) :: after ∧
    ∀ later, .asked (.api (.patchStatus (.text name) later)) (.ok ()) ∉ after

theorem LastReport.accepted {report : StatusReport} {reply : Except CallFailure Unit}
    (h : LastReport acts name report reply) (hreply : ∀ failure, reply ≠ .error failure) :
    LastAccepted acts name report := by
  obtain ⟨before, after, rfl, hafter⟩ := h
  cases reply with
  | ok _ => exact ⟨before, after, rfl, fun later => hafter later _⟩
  | error failure => exact absurd rfl (hreply failure)

theorem LastReport.mem {report : StatusReport} {reply : Except CallFailure Unit}
    (h : LastReport acts name report reply) : .asked (.api (.patchStatus (.text name) report)) reply ∈ acts := by
  obtain ⟨before, after, rfl, -⟩ := h
  simp

theorem LastReport.append {report : StatusReport} {reply : Except CallFailure Unit}
    (h : LastReport past name report reply) (hacts : Unreported name acts) :
    LastReport (past ++ acts) name report reply := by
  obtain ⟨before, after, rfl, hafter⟩ := h
  exact ⟨before, after ++ acts, by simp, hafter.append hacts⟩

theorem LastReport.prepend {report : StatusReport} {reply : Except CallFailure Unit}
    (h : LastReport acts name report reply) : LastReport (past ++ acts) name report reply := by
  obtain ⟨before, after, rfl, hafter⟩ := h
  exact ⟨past ++ before, after, by simp, hafter⟩

/-- The last report on the status of the name carried this state and this message. -/
def LastReported (acts : List Act) (name : String) (status : String × String) : Prop :=
  ∃ report reply, LastReport acts name report reply ∧ (report.state, report.message) = status

theorem LastReported.append (h : LastReported past name status) (hacts : Unreported name acts) :
    LastReported (past ++ acts) name status := by
  obtain ⟨report, reply, hlast, hstatus⟩ := h
  exact ⟨report, reply, hlast.append hacts, hstatus⟩

theorem LastReported.prepend (h : LastReported acts name status) : LastReported (past ++ acts) name status := by
  obtain ⟨report, reply, hlast, hstatus⟩ := h
  exact ⟨report, reply, hlast.prepend, hstatus⟩

/-- What is kept in mind as reported is what was reported last. -/
def Books.Mindful (b : Books) (past : List Act) : Prop :=
  ∀ name status, b.lastStatus.get? (.text name) = some status → LastReported past name status

theorem Books.Mindful.quiet (h : b.Mindful past) (hacts : ∀ name, Unreported name acts)
    (hkept : ∀ name status, b'.lastStatus.get? (.text name) = some status →
      b.lastStatus.get? (.text name) = some status) : b'.Mindful (past ++ acts) :=
  fun name status hget => (h name status (hkept name status hget)).append (hacts name)

theorem Books.Remembers.mindful (h : b.Remembers acts b') (hb : b.Mindful past) : b'.Mindful (past ++ acts) :=
  hb.quiet h.unreported fun _ _ hget => h.lastStatus ▸ hget

namespace Controller

/-- The outcome is in mind after a reconciliation. It was reported during it, or it was in mind before. -/
theorem Reconciles.reports {d : DynaKube} {v : Except Fault MappingResult} (h : k.Reconciles d b acts v b')
    (hdated : Dated acts) :
    (LastReported acts d.name ((statusOf v).1.name, (statusOf v).2) ∨ Unreported d.name acts ∧
      b.lastStatus.get? (.text d.name) = some ((statusOf v).1.name, (statusOf v).2)) ∧
    b'.lastStatus.get? (.text d.name) = some ((statusOf v).1.name, (statusOf v).2) ∧
    ∀ name, d.name ≠ name → Unreported name acts ∧
      b'.lastStatus.get? (.text name) = b.lastStatus.get? (.text name) := by
  obtain ⟨before, reported, after, b₁, rfl, hsilent, hreported, hlast, -⟩ := h.exists_reported hdated
  rw [hlast]
  rcases reportStatus_course hreported with ⟨-, rfl, rfl, hknown⟩ | ⟨time, reply, logged, -, hlogged, rfl, rfl⟩ |
    ⟨_, hr, -⟩
  · refine ⟨.inr ⟨?_, hknown⟩, hknown, fun name _ => ⟨?_, rfl⟩⟩
    · simpa using (hsilent d.name).1.append (hsilent d.name).2
    · simpa using (hsilent name).1.append (hsilent name).2
  · let report : StatusReport := ⟨(statusOf v).1.name, (statusOf v).2, Calendar.ofMilliseconds time⟩
    refine ⟨.inl ⟨report, reply, ⟨before ++ [.asked .wallTime (.ok time)], logged ++ after, by simp [report], ?_⟩, rfl⟩,
      ?_, fun name hother => ⟨?_, ?_⟩⟩
    · exact hlogged.unreported.append (hsilent d.name).2
    · rw [NameTable.get?_set_text, if_pos (Value.sameName_text_iff.mpr rfl)]
    · refine ((hsilent name).1.append ?_).append (hsilent name).2
      intro report reply hmem
      simp only [List.mem_cons] at hmem
      rcases hmem with hmem | hmem | hmem
      · cases hmem
      · cases hmem
        exact hother rfl
      · exact hlogged.unreported report reply hmem
    · rw [NameTable.get?_set_text, if_neg (by simpa using hother)]
  · cases hr

theorem Reconciles.mindful {d : DynaKube} {v : Except Fault MappingResult} (h : k.Reconciles d b acts v b')
    (hdated : Dated acts) (hb : b.Mindful past) :
    b'.Mindful (past ++ acts) ∧ LastReported (past ++ acts) d.name ((statusOf v).1.name, (statusOf v).2) := by
  obtain ⟨hown, hmind, hothers⟩ := h.reports hdated
  have hlast : LastReported (past ++ acts) d.name ((statusOf v).1.name, (statusOf v).2) := by
    rcases hown with hnow | ⟨hsilent, hbefore⟩
    · exact hnow.prepend
    · exact (hb _ _ hbefore).append hsilent
  refine ⟨fun name status hget => ?_, hlast⟩
  by_cases hname : d.name = name
  · subst hname
    obtain rfl := Option.some.inj (hmind.symm.trans hget)
    exact hlast
  · rw [(hothers name hname).2] at hget
    exact (hb name status hget).append (hothers name hname).1

theorem Drops.mindful {other : Value} {v : Except Fault MappingResult} (h : k.Drops other b acts v b')
    (hb : b.Mindful past) : b'.Mindful (past ++ acts) := by
  obtain ⟨hsilent, ⟨-, hkept, -⟩ | ⟨-, herased⟩⟩ := h.effect
  · exact hb.quiet hsilent fun _ _ hget => hkept ▸ hget
  · refine hb.quiet hsilent fun name status hget => ?_
    rw [herased, NameTable.get?_erase_text] at hget
    split at hget
    · cases hget
    · exact hget

end Controller

open Controller (clearRetry_remembers repeatLater_remembers planResync_remembers)

theorem Comes.unreported {d : DynaKube} {origin : Origin} (h : Comes d origin acts stage stage') (name : String) :
    Unreported name acts := by
  cases h <;> simp [Unreported]

/-- What is done first and reports nothing does not matter. -/
theorem Books.Mindful.silent (h : b.Mindful past) {acts : List Act} (hacts : ∀ name, Unreported name acts) :
    b.Mindful (past ++ acts) := h.quiet hacts fun _ _ => id

theorem Stretch.mindful (h : Stretch k b stage entry b' stage') (hdated : Dated entry.acts) (hb : b.Mindful past) :
    b'.Mindful (past ++ entry.acts) := by
  cases h with
  | aside _ remembers => exact remembers.mindful hb
  | reconciled comes h =>
    have hfirst := hb.silent comes.unreported
    simpa using (h.mindful hdated.of_append.2 hfirst).1
  | unmapped h => exact h.mindful hb
  | released h => exact h.mindful hb
  | @missed _ _ name failure _ _ _ h =>
    have hread : b.Mindful (past ++ [.asked (.api (.getDynaKube name)) (.error failure)]) :=
      hb.silent fun _ => by simp [Unreported]
    simpa using h.mindful hread
  | @deleted _ first _ _ text _ _ _ cleared h =>
    have htold : b.Mindful (past ++ [.told (.log .info text)]) := hb.silent fun _ => by simp [Unreported]
    simpa using h.mindful ((clearRetry_remembers _ _ _ _ _ cleared).mindful htold)
  | @unread _ _ name _ status reason text _ _ h =>
    have hread : b.Mindful (past ++ [.asked (.api (.getDynaKube name)) (.error (.refused status reason)),
        .told (.log .error text)]) := hb.silent fun _ => by simp [Unreported]
    simpa using (repeatLater_remembers _ _ _ _ _ h).mindful hread
  | listed h =>
    refine hb.silent fun name report reply hmem => ?_
    cases h.within DynaKubes.list_within hmem
  | surveyed h =>
    refine hb.silent fun name report reply hmem => ?_
    cases h.within (Mapper.list_within k.mapper) hmem
  | resynced h => exact (planResync_remembers k _ _ _ _ h).mindful hb

theorem Account.mindful (h : Account k {} .free log b stage) (hdated : Dated (performed log)) :
    b.Mindful (performed log) := by
  induction h with
  | start => exact fun name status hget => by cases hget
  | snoc _ last ih =>
    rw [performed_append, performed_singleton] at hdated ⊢
    exact last.mindful hdated.of_append.2 (ih hdated.of_append.1)

namespace Controller

/-- Whatever the controller has done and whatever its requests were answered: after each reconciliation, the last report
on the DynaKube that was sent carries its outcome. So does the last one that was accepted, if no report failed during
the reconciliation and the last one before it had not failed with the same outcome: a report that failed is not sent
again while the outcome stays the same. -/
theorem outcome_was_reported_last (h : k.Proceeds {} acts b) (hdated : Dated acts) :
    (∃ log stage, Account k {} .free log b stage ∧ performed log = acts) ∧
    ∀ log stage, Account k {} .free log b stage → performed log = acts →
      ∀ pre own origin d v post, log = pre ++ ⟨own, .reconciled origin d v⟩ :: post →
        LastReported (performed pre ++ own) d.name ((statusOf v).1.name, (statusOf v).2) ∧
        ((∀ report failure, .asked (.api (.patchStatus (.text d.name) report)) (.error failure) ∉ own) →
          (∀ report failure, LastReport (performed pre) d.name report (.error failure) →
            (report.state, report.message) ≠ ((statusOf v).1.name, (statusOf v).2)) →
          ∃ report, LastAccepted (performed pre ++ own) d.name report ∧
            report.state = (statusOf v).1.name ∧ report.message = (statusOf v).2) := by
  refine ⟨h.exists_account, fun log' stage' haccount' hacts pre own origin d v post hlog => ?_⟩
  subst hlog
  obtain ⟨b₁, stage₁, b₂, stage₂, hbefore, hstretch⟩ := haccount'.exists_stretch
  rw [← hacts] at hdated
  have hpre : Dated (performed pre) := (performed_append pre _ ▸ hdated).of_append.1
  have hown : Dated own := by
    have hentries : Dated (own ++ performed post) := (performed_append pre _ ▸ hdated).of_append.2
    exact hentries.of_append.1
  cases hstretch with
  | @reconciled _ _ _ first acts _ _ _ comes h =>
    have hmindful := hbefore.mindful hpre
    have hfirst := hmindful.silent comes.unreported
    refine ⟨by simpa using (h.mindful hown.of_append.2 hfirst).2, fun haccepted hformer => ?_⟩
    rcases (h.reports hown.of_append.2).1 with ⟨report, reply, hlast, hstatus⟩ | ⟨hsilent, hknown⟩
    · -- the report is sent now, and does not fail
      have hsent : LastReport (first ++ acts) d.name report reply := hlast.prepend
      have hreply : ∀ failure, reply ≠ .error failure := fun failure hr => haccepted report failure (hr ▸ hsent.mem)
      exact ⟨report, hsent.prepend.accepted hreply, congrArg Prod.fst hstatus, congrArg Prod.snd hstatus⟩
    · -- it was sent before, and did not fail then
      obtain ⟨report, reply, hlast, hstatus⟩ := hmindful _ _ hknown
      have hreply : ∀ failure, reply ≠ .error failure := fun failure hr => hformer report failure (hr ▸ hlast) hstatus
      have hquiet : Unreported d.name (first ++ acts) := (comes.unreported d.name).append hsilent
      exact ⟨report, (hlast.append hquiet).accepted hreply, congrArg Prod.fst hstatus, congrArg Prod.snd hstatus⟩

section Refused

private def reporter : Controller := ⟨⟨⟨2, Nat.two_pos⟩, "operator"⟩, 30, 300⟩

private def featureless : DynaKube := ⟨"a", .null, [], some 1⟩

/-- Namespaces cannot be listed, and a report is accepted. -/
private def accepting : (request : Request) → request.Answer
  | .api (.patchStatus _ _) => .ok ()
  | request => Session.refusing request

private def acceptedReport : List Act × Except Fault (Option MappingResult) × Books :=
  ((reporter.reconcile featureless).run.run {}).answeredBy accepting

/-- A reconciliation fails, and the theorem says that this is the status that was accepted. -/
theorem outcome_was_reported_last_accepted : ∃ (k : Controller) (acts : List Act) (b : Books) (d : DynaKube)
    (v : Except Fault MappingResult) (report : StatusReport), k.Proceeds {} acts b ∧ k.Reconciles d {} acts v b ∧
      LastAccepted acts d.name report ∧ report.state = (statusOf v).1.name := by
  have hreconcile : Course ((reporter.reconcile featureless).run.run {}) acceptedReport.1
      (acceptedReport.2.1, acceptedReport.2.2) := Session.course_answeredBy accepting _
  have hperform : Course ((reporter.perform (.reconcile featureless)).run.run {}) acceptedReport.1
      (.ok ⟨⟩, acceptedReport.2.2) := Control.course_discard hreconcile
  have hproceeds : reporter.Proceeds {} acceptedReport.1 acceptedReport.2.2 := .tasks (performAll_single hperform)
  have hdated : Dated acceptedReport.1 := fun error hmem => by
    cases Session.answer_of_mem_answeredBy hmem
  obtain ⟨v, hreconciles⟩ := exists_reconciles hreconcile
  have haccount : Account reporter {} .free ([] ++ [⟨[] ++ acceptedReport.1, .reconciled .given featureless v⟩])
      acceptedReport.2.2 .free := .snoc .start (.reconciled .given hreconciles)
  have haccepted := ((outcome_was_reported_last hproceeds hdated).2 _ _ haccount (by simp) [] _ _ _ _ [] rfl).2
  obtain ⟨report, hlast, hstate, -⟩ := haccepted
    (fun report failure hmem => by cases Session.answer_of_mem_answeredBy hmem)
    (fun report failure h => by cases h.mem)
  exact ⟨reporter, _, _, featureless, v, report, hproceeds, hreconciles, hlast, hstate⟩

private def refusedReport : List Act × Except Fault (Option MappingResult) × Books :=
  ((reporter.reconcile featureless).run.run {}).answeredBy Session.refusing

private def repeatedReport : List Act × Except Fault (Option MappingResult) × Books :=
  ((reporter.reconcile featureless).run.run refusedReport.2.2).answeredBy Session.refusing

private def isReport : Act → Bool
  | .asked (.api (.patchStatus _ _)) _ => true
  | _ => false

/-- A report is refused. When the DynaKube is reconciled again with the same outcome, nothing is reported, and no report
was ever accepted. -/
theorem refused_report_not_repeated : ∃ (k : Controller) (acts own : List Act) (b₁ b : Books) (d : DynaKube)
    (v v' : Except Fault MappingResult), k.Proceeds {} (acts ++ own) b ∧ Dated (acts ++ own) ∧
      k.Reconciles d {} acts v b₁ ∧ k.Reconciles d b₁ own v' b ∧
      (∀ report failure, .asked (.api (.patchStatus (.text d.name) report)) (.error failure) ∉ own) ∧
      ∀ report, ¬LastAccepted (acts ++ own) d.name report := by
  have hfirst : Course ((reporter.reconcile featureless).run.run {}) refusedReport.1
      (refusedReport.2.1, refusedReport.2.2) := Session.course_answeredBy Session.refusing _
  have hsecond : Course ((reporter.reconcile featureless).run.run refusedReport.2.2) repeatedReport.1
      (repeatedReport.2.1, repeatedReport.2.2) := Session.course_answeredBy Session.refusing _
  have hcourse : Course ((reporter.performAll [.reconcile featureless, .reconcile featureless]).run.run {})
      (refusedReport.1 ++ repeatedReport.1) (.ok ⟨⟩, repeatedReport.2.2) :=
    performAll_cons (Control.course_discard hfirst) (performAll_single (Control.course_discard hsecond))
  have hanswer {request : Request} {answer : request.Answer}
      (hmem : .asked request answer ∈ refusedReport.1 ++ repeatedReport.1) : answer = Session.refusing request :=
    (List.mem_append.mp hmem).elim Session.answer_of_mem_answeredBy Session.answer_of_mem_answeredBy
  have hsilent : repeatedReport.1.all (fun act => !isReport act) = true := by rfl
  obtain ⟨v, hreconciles⟩ := exists_reconciles hfirst
  obtain ⟨v', hreconciles'⟩ := exists_reconciles hsecond
  refine ⟨reporter, _, _, _, _, featureless, v, v', .tasks hcourse, fun error hmem => ?_, hreconciles, hreconciles',
    fun report failure hmem => ?_, fun report hlast => ?_⟩
  · cases hanswer hmem
  · cases List.all_eq_true.mp hsilent _ hmem
  · obtain ⟨before, after, hacts, -⟩ := hlast
    have hmem : .asked (.api (.patchStatus (.text featureless.name) report)) (.ok ()) ∈
        refusedReport.1 ++ repeatedReport.1 := by simp [hacts]
    cases hanswer hmem

end Refused

end Controller

end NamespaceOwnership
