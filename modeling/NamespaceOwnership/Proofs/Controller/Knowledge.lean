import NamespaceOwnership.Proofs.Controller.Closure
import NamespaceOwnership.Proofs.Controller.Upkeep

/-!
# What is known of each name

The books keep the generation that was mapped last for a name and the status that was reported last. Only a
reconciliation that has a final outcome notes a generation, and only its report notes a status; an unmapping that
succeeds crosses both out. Whatever else the controller does leaves them as they are and reports nothing
(`Books.Remembers`).
-/
namespace NamespaceOwnership

open Session (Course)

variable {α : Type} {b b' b₁ : Books} {acts acts' : List Act} {text : String}

/-- No report is sent on the status of the DynaKube. -/
def Unreported (text : String) (acts : List Act) : Prop :=
  ∀ report reply, .asked (.api (.patchStatus (.text text) report)) reply ∉ acts

theorem Unreported.append (h : Unreported text acts) (h' : Unreported text acts') : Unreported text (acts ++ acts') :=
  fun report reply hmem => (List.mem_append.mp hmem).elim (h report reply) (h' report reply)

theorem Routine.unreported (h : Routine acts) : Unreported text acts := fun _ _ hmem => nomatch h.asked _ _ hmem

/-- What is known of each name stays as it is, and no status is reported. -/
structure Books.Remembers (b : Books) (acts : List Act) (b' : Books) : Prop where
  observed : b'.observed = b.observed
  lastStatus : b'.lastStatus = b.lastStatus
  unreported (text : String) : Unreported text acts

theorem Routine.remembers (h : Routine acts) : b.Remembers acts b := ⟨rfl, rfl, fun _ => h.unreported⟩

theorem Books.Remembers.trans (h : b.Remembers acts b₁) (h' : b₁.Remembers acts' b') :
    b.Remembers (acts ++ acts') b' where
  observed := h'.observed.trans h.observed
  lastStatus := h'.lastStatus.trans h.lastStatus
  unreported text := (h.unreported text).append (h'.unreported text)

theorem Books.remembers_composes : Control.Composes Books.Remembers :=
  ⟨fun _ => ⟨rfl, rfl, fun _ _ _ => List.not_mem_nil⟩, Books.Remembers.trans⟩

namespace Control

open Books (Remembers remembers_composes)

theorem note_remembers (n : Note) : Sustains Remembers (liftM (Session.note n) : Control Unit) :=
  .note fun _ => ⟨rfl, rfl, fun _ _ _ hmem => by cases List.mem_singleton.mp hmem⟩

theorem request_remembers {q : Request} (hq : ∀ text report, q ≠ .api (.patchStatus (.text text) report)) :
    Sustains Remembers (liftM (Session.request q) : Control q.Answer) := by
  refine .request fun b answer => ⟨rfl, rfl, fun text report reply hmem => hq text report ?_⟩
  cases List.mem_singleton.mp hmem
  rfl

theorem attempt_remembers {allowed : Request → Prop} {a : Attempt α} (ha : a.run.Within allowed)
    (h : ∀ text report, ¬allowed (.api (.patchStatus (.text text) report))) :
    Sustains Remembers (Control.attempt a) :=
  .attempt fun _ _ _ hcourse => ⟨rfl, rfl, fun text report _ hmem => h text report (hcourse.within ha hmem)⟩

end Control

namespace Controller

open Books (Remembers remembers_composes)
open Control (Sustains note_remembers request_remembers attempt_remembers)

variable {k : Controller} {d : DynaKube} {name : Value} {v : Except Fault MappingResult} {r : Except Fault Unit}

theorem clearRetry_remembers (name : Value) : Sustains Remembers (clearRetry name) := by
  intro b acts r b' h
  rcases clearRetry_course h with ⟨-, rfl, rfl⟩ | ⟨-, rfl, rfl, -⟩
  · exact ⟨rfl, rfl, fun _ _ _ hmem => by cases List.mem_singleton.mp hmem⟩
  · exact remembers_composes.refl _

theorem repeatLater_remembers (name : Value) : Sustains Remembers (repeatLater name) := by
  intro b acts r b' h
  obtain ⟨_, now, rest, rfl, hclock, hrest⟩ := Control.course_session_bind.mp h
  obtain rfl := Session.course_request.mp hclock
  refine ((routine_clock now).remembers (b := b)).trans ?_
  rw [scheduleRetry_run] at hrest
  split at hrest
  · dsimp only at hrest
    split at hrest
    · obtain ⟨rfl, hr⟩ := Session.course_done.mp hrest
      cases hr
      exact ⟨rfl, rfl, fun _ _ _ => List.not_mem_nil⟩
    · obtain ⟨_, rfl, htold⟩ := Session.course_tell.mp hrest
      obtain ⟨_, rfl, hend⟩ := Session.course_tell.mp htold
      obtain ⟨rfl, hr⟩ := Session.course_done.mp hend
      cases hr
      exact ⟨rfl, rfl, by simp [Unreported]⟩
  · obtain ⟨rfl, hr⟩ := Session.course_done.mp hrest
    cases hr
    exact remembers_composes.refl _

theorem planResync_remembers (k : Controller) : Sustains Remembers k.planResync := by
  refine .bind remembers_composes (request_remembers (by simp)) fun now => ?_
  refine .bind remembers_composes (attempt_remembers (plus_asks_nothing _ _) (by simp)) fun next => ?_
  exact .modify fun b => ⟨rfl, rfl, fun _ _ _ => List.not_mem_nil⟩

/-- A DynaKube is reconciled, and its mapping has this outcome. -/
def Reconciles (k : Controller) (d : DynaKube) (b : Books) (acts : List Act) (v : Except Fault MappingResult)
    (b' : Books) : Prop :=
  ∃ r r', Course ((k.reconcile d).run.run b) acts (r, b') ∧ Operates (k.mapping d) (settleMapped d) b acts v r' b'

/-- The claims of a name are dropped, and the unmapping has this outcome. -/
def Drops (k : Controller) (name : Value) (b : Books) (acts : List Act) (v : Except Fault MappingResult)
    (b' : Books) : Prop :=
  ∃ r r', Course ((k.unmap name).run.run b) acts (r, b') ∧
    Operates (k.unmapping name) (settleUnmapped name) b acts v r' b'

theorem exists_reconciles {r : Except Fault (Option MappingResult)}
    (h : Course ((k.reconcile d).run.run b) acts (r, b')) : ∃ v, k.Reconciles d b acts v b' := by
  obtain ⟨v, r', hoperates, -⟩ := reconcile_operates h
  exact ⟨v, r, r', h, hoperates⟩

theorem exists_drops {r : Except Fault (Option MappingResult)} (h : Course ((k.unmap name).run.run b) acts (r, b')) :
    ∃ v, k.Drops name b acts v b' := by
  obtain ⟨v, r', hoperates, -⟩ := unmap_operates h
  exact ⟨v, r, r', h, hoperates⟩

namespace Reconciles

/-- A reconciliation counts the result of its outcome. -/
theorem counted (h : k.Reconciles d b acts v b') : results acts = [resultOf v] := by
  obtain ⟨_, _, -, hoperates⟩ := h
  obtain ⟨before, inner, after, rfl, hbefore, hafter, hdealt⟩ := hoperates.exists_dealt (mapping_within k d)
  obtain ⟨logged, rest, rfl, hlogged, hrest⟩ := settleMapped_course hdealt
  obtain ⟨-, hnone, -⟩ := conclude_amounts d v _ _ _ _ hrest
  simp [hbefore.aside.results, hafter.aside.results, hlogged.aside.results, hnone]

/-- Afterwards the DynaKube is pending if and only if its mapping is to be repeated. -/
theorem change (h : k.Reconciles d b acts v b') (hdated : Dated acts) (hsynced : b.Synced) :
    Books.Change (.text d.name) (!isFinal v) b b' := by
  have hcounted := h.counted
  obtain ⟨r, _, hcourse, -⟩ := h
  rw [← failed_resultOf]
  exact (reconcile_concluding d _ _ _ _ hcourse).change hcounted hdated hsynced

/-- What follows the report of an outcome. -/
def afterReport (d : DynaKube) (v : Except Fault MappingResult) : Control Unit :=
  if isFinal v then do
    clearRetry (.text d.name)
    observe (.text d.name) d.generation
  else repeatLater (.text d.name)

/-- In time the outcome is always reported, and then it is noted what is to be repeated. -/
theorem exists_concluded (h : k.Reconciles d b acts v b') (hdated : Dated acts) :
    ∃ before reported last after b₁ r, acts = before ++ reported ++ (last ++ after) ∧
      (∀ text, Unreported text before ∧ Unreported text after) ∧
      Course ((reportStatus d.name (statusOf v).1 (statusOf v).2).run.run b) reported (.ok (), b₁) ∧
      Course ((afterReport d v).run.run b₁) last (r, b') := by
  obtain ⟨_, r, -, hoperates⟩ := h
  obtain ⟨before, inner, after, rfl, hbefore, hafter, hdealt⟩ := hoperates.exists_dealt (mapping_within k d)
  obtain ⟨logged, rest, rfl, hlogged, hrest⟩ := settleMapped_course hdealt
  rcases Control.course_bind.mp hrest with ⟨fault, -, hraised⟩ | ⟨reported, _, b₁, last, rfl, hreported, hlast⟩
  · obtain ⟨error, -, hundated⟩ := reportStatus_timekeeping _ _ _ _ _ _ _ hraised
    exact absurd (by simp [hundated]) (hdated error)
  refine ⟨before ++ (logged ++ [.told (.count (.reconciles (resultOf v)))]), reported, last, after, b₁, r,
    by simp, fun text => ⟨?_, hafter.unreported⟩, hreported, hlast⟩
  exact hbefore.unreported.append (hlogged.unreported.append (by simp [Unreported]))

/-- After a final outcome the name is crossed out, and the generation is noted. -/
theorem afterReport_final {b₁ : Books} {last : List Act} (hfinal : isFinal v = true)
    (h : Course ((afterReport d v).run.run b₁) last (r, b')) :
    b₁.Remembers last { b' with observed := b₁.observed } ∧
      b' = { b₁ with pending := b₁.pending.erase (.text d.name), attempts := b₁.attempts.erase (.text d.name),
                     observed := b₁.observed.set (.text d.name) d.generation } := by
  rw [afterReport, if_pos hfinal] at h
  rcases Control.course_bind.mp h with ⟨fault, -, hclear⟩ | ⟨cleared, _, b₂, _, rfl, hclear, hobserve⟩
  · -- a name that is a text is always crossed out
    rcases clearRetry_course hclear with ⟨hr, -⟩ | ⟨-, -, -, hscalar⟩
    · cases hr
    · cases hscalar
  · obtain ⟨rfl, hr⟩ := Session.course_done.mp hobserve
    cases hr
    have hremembers := clearRetry_remembers _ _ _ _ _ hclear
    rcases clearRetry_course hclear with ⟨-, -, rfl⟩ | ⟨hr, -⟩
    · exact ⟨⟨rfl, rfl, by simpa using hremembers.unreported⟩, rfl⟩
    · cases hr

/-- The outcome is reported, unless it was the last to be reported, and a final one is noted with the generation. -/
theorem exists_reported (h : k.Reconciles d b acts v b') (hdated : Dated acts) :
    ∃ before reported after b₁, acts = before ++ reported ++ after ∧
      (∀ text, Unreported text before ∧ Unreported text after) ∧
      Course ((reportStatus d.name (statusOf v).1 (statusOf v).2).run.run b) reported (.ok (), b₁) ∧
      b'.lastStatus = b₁.lastStatus ∧
      b'.observed = if isFinal v then b.observed.set (.text d.name) d.generation else b.observed := by
  obtain ⟨before, reported, last, after, b₁, r, rfl, hsilent, hreported, hlast⟩ := h.exists_concluded hdated
  have hobserved : b₁.observed = b.observed := by
    rcases reportStatus_course hreported with ⟨-, -, rfl, -⟩ | ⟨_, _, _, -, -, -, rfl⟩ | ⟨_, hr, -⟩
    · rfl
    · rfl
    · cases hr
  have hkept : b₁.Remembers last { b' with observed := b₁.observed } ∧
      b'.observed = if isFinal v then b₁.observed.set (.text d.name) d.generation else b₁.observed := by
    cases hfinal : isFinal v with
    | false =>
      rw [afterReport, hfinal] at hlast
      have hremembers := repeatLater_remembers _ _ _ _ _ hlast
      exact ⟨⟨rfl, hremembers.lastStatus, hremembers.unreported⟩, hremembers.observed⟩
    | true =>
      obtain ⟨hremembers, hbooks⟩ := afterReport_final hfinal hlast
      exact ⟨hremembers, congrArg Books.observed hbooks⟩
  exact ⟨before, reported, last ++ after, b₁, rfl, fun text => ⟨(hsilent text).1,
    (hkept.1.unreported text).append (hsilent text).2⟩, hreported, hkept.1.lastStatus, hobserved ▸ hkept.2⟩

/-- After a final outcome there is nothing to be repeated for the DynaKube. -/
theorem cleared (h : k.Reconciles d b acts v b') (hdated : Dated acts) (hfinal : isFinal v = true) :
    Books.Cleared (.text d.name) b b' := by
  obtain ⟨_, _, _, _, b₁, _, -, -, hreported, hlast⟩ := h.exists_concluded hdated
  obtain ⟨hpending, hattempts, -⟩ := reportStatus_neutral _ _ _ _ _ _ _ hreported
  rw [(afterReport_final hfinal hlast).2]
  exact ⟨fun text => by rw [← hpending, NameTable.get?_erase_text], fun text => by
    rw [← hattempts, NameTable.get?_erase_text]⟩

end Reconciles

/-- A name that cannot be crossed out is in no table. -/
theorem forget_course {r : Except Fault Unit} (h : Course ((forget name).run.run b) acts (r, b')) :
    acts = [] ∧ b' = { b with observed := b.observed.erase name, lastStatus := b.lastStatus.erase name } := by
  have hrun : (forget name).run.run b = if (name.isScalar || b.observed.isEmpty) = true then
      let forgotten := { b with observed := b.observed.erase name }
      if (name.isScalar || b.lastStatus.isEmpty) = true then
        .done (.ok ⟨⟩, { forgotten with lastStatus := b.lastStatus.erase name })
      else .done (.error (.object (.noName name.kindName)), forgotten)
    else .done (.error (.object (.noName name.kindName)), b) := by
    refine (Control.requireErasable_bind b.observed name _ b).trans (if_congr Iff.rfl ?_ rfl)
    exact Control.requireErasable_bind b.lastStatus name _ { b with observed := b.observed.erase name }
  rw [hrun] at h
  have hkept (hstuck : name.isScalar = false) :
      b.observed.erase name = b.observed ∧ b.lastStatus.erase name = b.lastStatus :=
    ⟨b.observed.erase_of_not_scalar hstuck, b.lastStatus.erase_of_not_scalar hstuck⟩
  split at h
  · dsimp only at h
    split at h
    · obtain ⟨rfl, hr⟩ := Session.course_done.mp h
      cases hr
      exact ⟨rfl, rfl⟩
    · rename_i hstuck
      obtain ⟨rfl, hr⟩ := Session.course_done.mp h
      cases hr
      have hscalar : name.isScalar = false := by simp_all
      exact ⟨rfl, by rw [(hkept hscalar).2]⟩
  · rename_i hstuck
    obtain ⟨rfl, hr⟩ := Session.course_done.mp h
    cases hr
    have hscalar : name.isScalar = false := by simp_all
    exact ⟨rfl, by rw [(hkept hscalar).1, (hkept hscalar).2]⟩

namespace Drops

def resultOf : Except Fault MappingResult → ReconcileResult
  | .ok _ => .unmapped
  | .error _ => .error

theorem counted (h : k.Drops name b acts v b') : results acts = [resultOf v] := by
  obtain ⟨_, _, -, hoperates⟩ := h
  obtain ⟨before, inner, after, rfl, hbefore, hafter, hdealt⟩ := hoperates.exists_dealt (unmapping_within k name)
  have hinner : results inner = [resultOf v] := by
    cases v with
    | ok result =>
      obtain ⟨_, _, rest, rfl, hcount, hrest⟩ := Control.course_session_bind.mp hdealt
      obtain rfl := Session.course_note.mp hcount
      have hamounts := (clearRetry_amounts name).bind (fun _ => forget_tame name) _ _ _ _ hrest
      simp [hamounts.2.1, resultOf]
    | error fault =>
      obtain ⟨_, _, _, rfl, hlog, hlogged⟩ := Control.course_session_bind.mp hdealt
      obtain ⟨_, _, rest, rfl, hcount, hrest⟩ := Control.course_session_bind.mp hlogged
      obtain rfl := Session.course_note.mp hlog
      obtain rfl := Session.course_note.mp hcount
      simp [(repeatLater_amounts name _ _ _ _ hrest).2.1, resultOf]
  simp [hbefore.aside.results, hafter.aside.results, hinner]

/-- A name that could not be unmapped is pending afterwards. -/
theorem change (h : k.Drops name b acts v b') (hdated : Dated acts) (hsynced : b.Synced) :
    Books.Change name (resultOf v).failed b b' := by
  have hcounted := h.counted
  obtain ⟨r, _, hcourse, -⟩ := h
  exact (unmap_concluding name _ _ _ _ hcourse).change hcounted hdated hsynced

/-- Nothing is reported. What is known of the name is crossed out if its claims were dropped. -/
theorem effect (h : k.Drops name b acts v b') : (∀ text, Unreported text acts) ∧
    (b'.observed = b.observed ∧ b'.lastStatus = b.lastStatus ∧ (resultOf v).failed = true ∨
      b'.observed = b.observed.erase name ∧ b'.lastStatus = b.lastStatus.erase name) := by
  obtain ⟨_, _, -, hoperates⟩ := h
  obtain ⟨before, inner, after, rfl, hbefore, hafter, hdealt⟩ := hoperates.exists_dealt (unmapping_within k name)
  have hinner : (∀ text, Unreported text inner) ∧
      (b'.observed = b.observed ∧ b'.lastStatus = b.lastStatus ∧ (resultOf v).failed = true ∨
        b'.observed = b.observed.erase name ∧ b'.lastStatus = b.lastStatus.erase name) := by
    cases v with
    | ok result =>
      obtain ⟨_, _, rest, rfl, hcount, hrest⟩ := Control.course_session_bind.mp hdealt
      obtain rfl := Session.course_note.mp hcount
      rcases Control.course_bind.mp hrest with ⟨fault, -, hclear⟩ | ⟨cleared, _, b₁, _, rfl, hclear, hforget⟩
      · rcases clearRetry_course hclear with ⟨hr, -⟩ | ⟨-, rfl, rfl, hscalar⟩
        · cases hr
        · refine ⟨by simp [Unreported], .inr ?_⟩
          exact ⟨(b'.observed.erase_of_not_scalar hscalar).symm, (b'.lastStatus.erase_of_not_scalar hscalar).symm⟩
      · obtain ⟨rfl, rfl⟩ := forget_course hforget
        have hremembers := clearRetry_remembers _ _ _ _ _ hclear
        refine ⟨fun text => ?_, .inr ⟨by rw [hremembers.observed], by rw [hremembers.lastStatus]⟩⟩
        simpa [Unreported] using hremembers.unreported text
    | error fault =>
      obtain ⟨_, _, _, rfl, hlog, hlogged⟩ := Control.course_session_bind.mp hdealt
      obtain ⟨_, _, rest, rfl, hcount, hrest⟩ := Control.course_session_bind.mp hlogged
      obtain rfl := Session.course_note.mp hlog
      obtain rfl := Session.course_note.mp hcount
      have hremembers := repeatLater_remembers _ _ _ _ _ hrest
      refine ⟨fun text => ?_, .inl ⟨hremembers.observed, hremembers.lastStatus, rfl⟩⟩
      simpa [Unreported] using hremembers.unreported text
  exact ⟨fun text => (hbefore.unreported.append (hinner.1 text)).append hafter.unreported, hinner.2⟩

end Drops

end Controller
end NamespaceOwnership
