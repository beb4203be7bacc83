import NamespaceOwnership.Proofs.Controller.Account

/-!
# What happened to each name

A course of the controller falls into episodes. In each of them one operation on a name is carried out, or the
DynaKube that is to be retried cannot be read, or one is reported as deleted and its claims are dropped; or nothing
of account happens. A `Chronicle` of the course keeps the incidents of its episodes in their order. It is found from an
account of the course, so that every course of tasks has one.
-/
namespace NamespaceOwnership

open Session (Course)

variable {α : Type} {k : Controller} {b b' b₁ : Books} {acts acts' : List Act}

/-- Something that bears on what is to be repeated for a name. -/
inductive Incident where
  /-- The claims of a name were mapped or dropped, with this result. -/
  | tried (name : Value) (result : ReconcileResult)
  /-- The DynaKube was to be mapped again, but reading it was refused. -/
  | unread (name : Value)
  | deleted (name : Value)

/-- A stretch of a course, with the books before and after it. -/
inductive Episode (k : Controller) (b : Books) : List Act → List Incident → Books → Prop where
  | quiet {acts : List Act} {b' : Books} (h : b.Unmoved acts b') : Episode k b acts [] b'
  | reconciled {acts : List Act} {b' : Books} {d : DynaKube} {r : Except Fault (Option MappingResult)}
      {result : ReconcileResult} (h : Course ((k.reconcile d).run.run b) acts (r, b'))
      (counted : results acts = [result]) : Episode k b acts [.tried (.text d.name) result] b'
  | unmapped {acts : List Act} {b' : Books} {name : Value} {r : Except Fault (Option MappingResult)}
      {result : ReconcileResult} (h : Course ((k.unmap name).run.run b) acts (r, b'))
      (counted : results acts = [result]) : Episode k b acts [.tried name result] b'
  | unread {acts : List Act} {b' : Books} {name : Value} {r : Except Fault Unit} {status : Option Int}
      {reason : Option String} {text : String} (unknown : status ≠ some 404)
      (h : Course ((Controller.repeatLater name).run.run b) acts (r, b')) :
      Episode k b (.asked (.api (.getDynaKube name)) (.error (.refused status reason)) ::
        .told (.log .error text) :: acts) [.unread name] b'
  | deleted {first acts : List Act} {b₁ b' : Books} {name : Value} {r : Except Fault (Option MappingResult)}
      {result : ReconcileResult} {text : String}
      (cleared : Course ((Controller.clearRetry name).run.run b) first (.ok (), b₁))
      (h : Course ((k.unmap name).run.run b₁) acts (r, b')) (counted : results acts = [result]) :
      Episode k b (.told (.log .info text) :: (first ++ acts)) [.deleted name, .tried name result] b'

/-- One episode after another. -/
inductive Chronicle (k : Controller) (b : Books) : List Act → List Incident → Books → Prop where
  | start : Chronicle k b [] [] b
  | snoc {acts acts' : List Act} {log incidents : List Incident} {b₁ b' : Books} (h : Chronicle k b acts log b₁)
      (last : Episode k b₁ acts' incidents b') : Chronicle k b (acts ++ acts') (log ++ incidents) b'

namespace Chronicle

variable {log log' : List Incident}

theorem single (h : Episode k b acts log b') : Chronicle k b acts log b' := by
  simpa using start.snoc h

theorem trans (h : Chronicle k b acts log b₁) (h' : Chronicle k b₁ acts' log' b') :
    Chronicle k b (acts ++ acts') (log ++ log') b' := by
  induction h' with
  | start => simpa using h
  | snoc _ last ih =>
    rw [← List.append_assoc, ← List.append_assoc]
    exact ih.snoc last

end Chronicle

theorem Controller.Reconciles.exists_episode {d : DynaKube} {v : Except Fault MappingResult}
    (h : k.Reconciles d b acts v b') : ∃ log, Episode k b acts log b' := by
  have hcounted := h.counted
  obtain ⟨_, _, hcourse, -⟩ := h
  exact ⟨_, .reconciled hcourse hcounted⟩

theorem Controller.Drops.exists_episode {name : Value} {v : Except Fault MappingResult} (h : k.Drops name b acts v b') :
    ∃ log, Episode k b acts log b' := by
  have hcounted := h.counted
  obtain ⟨_, _, hcourse, -⟩ := h
  exact ⟨_, .unmapped hcourse hcounted⟩

/-- Each stretch of a course is one episode, but for what is read before an operation. -/
theorem Stretch.exists_chronicle {stage stage' : ResyncStage} {entry : Entry} (h : Stretch k b stage entry b' stage') :
    ∃ log, Chronicle k b entry.acts log b' := by
  have hread (request : Request) (answer : request.Answer) : Chronicle k b [.asked request answer] [] b :=
    .single (.quiet ⟨rfl, rfl, by simp [Aside]⟩)
  cases h with
  | aside unmoved _ => exact ⟨[], .single (.quiet unmoved)⟩
  | reconciled comes h =>
    obtain ⟨_, hepisode⟩ := h.exists_episode
    cases comes with
    | given => exact ⟨_, .single hepisode⟩
    | found _ => exact ⟨_, (hread _ _).trans (.single hepisode)⟩
    | listed => exact ⟨_, .single hepisode⟩
  | unmapped h =>
    obtain ⟨_, hepisode⟩ := h.exists_episode
    exact ⟨_, .single hepisode⟩
  | released h =>
    obtain ⟨_, hepisode⟩ := h.exists_episode
    exact ⟨_, .single hepisode⟩
  | missed _ h =>
    obtain ⟨_, hepisode⟩ := h.exists_episode
    exact ⟨_, (hread _ _).trans (.single hepisode)⟩
  | deleted cleared h =>
    have hcounted := h.counted
    obtain ⟨_, _, hcourse, -⟩ := h
    exact ⟨_, .single (.deleted cleared hcourse hcounted)⟩
  | unread unknown h => exact ⟨_, .single (.unread unknown h)⟩
  | listed h =>
    have hneutral : Control.Neutral (Control.attempt DynaKubes.list) := .attempt DynaKubes.list_within
    exact ⟨[], .single (.quiet (hneutral _ _ _ _ (Control.course_attempt.mpr ⟨h, rfl⟩)))⟩
  | surveyed h =>
    have hneutral : Control.Neutral (Control.attempt k.mapper.ledger.list) := .attempt (Mapper.list_within k.mapper)
    exact ⟨[], .single (.quiet (hneutral _ _ _ _ (Control.course_attempt.mpr ⟨h, rfl⟩)))⟩
  | resynced h => exact ⟨[], .single (.quiet (k.planResync_neutral _ _ _ _ h))⟩

theorem Account.exists_chronicle {stage stage' : ResyncStage} {log : List Entry} (h : Account k b stage log b' stage') :
    ∃ incidents, Chronicle k b (performed log) incidents b' := by
  induction h with
  | start => exact ⟨[], .start⟩
  | snoc _ last ih =>
    obtain ⟨incidents, hbefore⟩ := ih
    obtain ⟨more, hlast⟩ := last.exists_chronicle
    exact ⟨_, by simpa using hbefore.trans hlast⟩

end NamespaceOwnership
