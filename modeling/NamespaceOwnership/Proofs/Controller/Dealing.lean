import NamespaceOwnership.Proofs.Controller.Effects
import NamespaceOwnership.Proofs.Controller.Parts
import NamespaceOwnership.Proofs.Mapping.Patches

/-!
# How an operation goes

To reconcile a DynaKube is to attempt a mapping and to deal with its outcome, and to unmap a name likewise
(`Operates`). What is told and asked apart from this dealing is of no account (`Routine`). Dealing with the outcome of a
mapping comes down to one report and to whether the mapping has to be repeated (`Controller.conclude`).
-/
namespace NamespaceOwnership

open Session (Course)

variable {α : Type} {b b' : Books} {acts acts' : List Act}

/-- Nothing of account is told, and nothing is asked but what a mapping asks. -/
structure Routine (acts : List Act) : Prop where
  aside : Aside acts
  asked : ∀ request answer, .asked request answer ∈ acts → request.OfMapping

theorem Routine.append (h : Routine acts) (h' : Routine acts') : Routine (acts ++ acts') where
  aside := h.aside.append h'.aside
  asked request answer hmem := (List.mem_append.mp hmem).elim (h.asked request answer) (h'.asked request answer)

theorem routine_clock (time : Int) : Routine [.asked .clock time] where
  aside := by simp [Aside]
  asked request answer hmem := by
    cases List.mem_singleton.mp hmem
    exact .clock

theorem routine_elapsed (started ended : Int) :
    Routine [.asked .clock ended, .told (.elapsed (ended - started))] where
  aside := by simp [Aside, Note.Aside]
  asked request answer hmem := by
    obtain h | h : Act.asked request answer = .asked .clock ended ∨ _ := List.mem_cons.mp hmem
    · cases h
      exact .clock
    · cases List.mem_singleton.mp h

theorem Session.Course.routine {s : Session α} {a : α} (h : Course s acts a) (hs : s.Within Request.OfMapping) :
    Routine acts where
  aside _ hmem := (h.quiet hs hmem).aside
  asked _ _ hmem := h.within hs hmem

/-- An operation that makes an attempt and deals with its outcome, however that goes. The time that is noted includes
what is done about a failure, but not what follows a success. -/
inductive Operates (x : Attempt α) (deal : Except Fault α → Control Unit) (b : Books) :
    List Act → Except Fault α → Except Fault Unit → Books → Prop where
  | succeeded {own rest : List Act} {a : α} {r : Except Fault Unit} {b' : Books} (started ended : Int)
      (attempted : Course x.run own (.ok a)) (dealt : Course ((deal (.ok a)).run.run b) rest (r, b')) :
      Operates x deal b ([.asked .clock started] ++ own ++ [.asked .clock ended, .told (.elapsed (ended - started))] ++
        rest) (.ok a) r b'
  | failed {own rest : List Act} {fault : Fault} {r : Except Fault Unit} {b' : Books} (started ended : Int)
      (attempted : Course x.run own (.error fault)) (dealt : Course ((deal (.error fault)).run.run b) rest (r, b')) :
      Operates x deal b ([.asked .clock started] ++ own ++ rest ++
        [.asked .clock ended, .told (.elapsed (ended - started))]) (.error fault) r b'

namespace Operates

variable {x : Attempt α} {deal : Except Fault α → Control Unit} {v : Except Fault α} {r : Except Fault Unit}

/-- Before and after the dealing there is routine. -/
theorem exists_dealt (hx : x.run.Within Request.OfMapping) (h : Operates x deal b acts v r b') :
    ∃ before inner after, acts = before ++ inner ++ after ∧ Routine before ∧ Routine after ∧
      Course ((deal v).run.run b) inner (r, b') := by
  cases h with
  | succeeded started ended attempted dealt =>
    refine ⟨_, _, [], (List.append_nil _).symm, ?_, ⟨.nil, by simp⟩, dealt⟩
    exact ((routine_clock started).append (attempted.routine hx)).append (routine_elapsed started ended)
  | failed started ended attempted dealt =>
    exact ⟨_, _, _, rfl, (routine_clock started).append (attempted.routine hx), routine_elapsed started ended, dealt⟩

end Operates

namespace Controller

variable {k : Controller} {d : DynaKube} {name : Value}

/-- The clock is read before and after an operation, and the time is noted. -/
theorem timed_course {body : Control α} {r : Except Fault α} (h : Course ((timed body).run.run b) acts (r, b')) :
    ∃ started inner ended, acts = [.asked .clock started] ++ inner ++
        [.asked .clock ended, .told (.elapsed (ended - started))] ∧ Course (body.run.run b) inner (r, b') := by
  obtain ⟨_, started, _, rfl, hstart, hbody⟩ := Control.course_session_bind.mp h
  obtain ⟨inner, v, b₁, _, rfl, hinner, hended⟩ := Control.course_outcome_bind.mp hbody
  obtain ⟨_, ended, _, rfl, hend, hnoted⟩ := Control.course_session_bind.mp hended
  obtain ⟨_, _, last, rfl, hnote, hreturn⟩ := Control.course_session_bind.mp hnoted
  obtain rfl := Session.course_request.mp hstart
  obtain rfl := Session.course_request.mp hend
  obtain rfl := Session.course_note.mp hnote
  have hlast : last = [] ∧ (r, b') = (v, b₁) := by
    cases v <;> exact Session.course_done.mp hreturn
  obtain ⟨rfl, hr⟩ := hlast
  cases hr
  exact ⟨started, inner, ended, by simp, hinner⟩

/-- Whatever is put together in this way is such an operation, and it raises what is raised in the dealing. -/
theorem operates_of_course {x : Attempt α} {deal : Except Fault α → Control Unit}
    {ending : Except Fault α → Control (Option α)} {finish : Option α → Control (Option α)}
    {r : Except Fault (Option α)}
    (h : Course ((timed (do ending (← (Control.attempt x).outcome)) >>= finish).run.run b) acts (r, b'))
    (hok : ∀ a, ending (.ok a) = pure (some a))
    (hfailed : ∀ fault, ending (.error fault) = do deal (.error fault); return none) (hnone : finish none = pure none)
    (hfinish : ∀ a, finish (some a) = do deal (.ok a); return some a) :
    ∃ v r', Operates x deal b acts v r' b' ∧ ∀ fault, r = .error fault ↔ r' = .error fault := by
  rcases Control.course_bind.mp h with ⟨fault, rfl, htimed⟩ | ⟨_, result, b₁, last, rfl, htimed, hlast⟩
  all_goals
    obtain ⟨started, inner, ended, rfl, hinner⟩ := timed_course htimed
    obtain ⟨own, v, b₂, rest, rfl, htried, hend⟩ := Control.course_outcome_bind.mp hinner
    obtain ⟨hattempt, rfl⟩ := Control.course_attempt.mp htried
    cases v
  · -- the operation raises, so it is the dealing with a failure that does
    rename_i first
    rw [hfailed] at hend
    rcases Control.course_bind.mp hend with ⟨_, hr, hdealt⟩ | ⟨_, _, _, _, rfl, -, hreturn⟩
    · cases hr
      exact ⟨_, _, by simpa using Operates.failed started ended hattempt hdealt, fun _ => by simp⟩
    · cases (Session.course_done.mp hreturn).2
  · rw [hok] at hend
    cases (Session.course_done.mp hend).2
  · rename_i first
    rw [hfailed] at hend
    rcases Control.course_bind.mp hend with ⟨_, hr, -⟩ | ⟨dealt, _, _, _, rfl, hdealt, hreturn⟩
    · cases hr
    · obtain ⟨rfl, hr⟩ := Session.course_done.mp hreturn
      cases hr
      rw [hnone] at hlast
      obtain ⟨rfl, hr⟩ := Session.course_done.mp hlast
      cases hr
      exact ⟨_, _, by simpa using Operates.failed started ended hattempt hdealt, by simp⟩
  · rename_i a
    rw [hok] at hend
    obtain ⟨rfl, hr⟩ := Session.course_done.mp hend
    cases hr
    rw [hfinish] at hlast
    rcases Control.course_bind.mp hlast with ⟨fault, rfl, hdealt⟩ | ⟨dealt, _, _, _, rfl, hdealt, hreturn⟩
    · exact ⟨_, _, by simpa using Operates.succeeded started ended hattempt hdealt, fun _ => by simp⟩
    · obtain ⟨rfl, hr⟩ := Session.course_done.mp hreturn
      cases hr
      exact ⟨_, _, by simpa using Operates.succeeded started ended hattempt hdealt, by simp⟩

/-- The attempt of a reconciliation. -/
def mapping (k : Controller) (d : DynaKube) : Attempt MappingResult :=
  k.withDeadline fun t => k.mapper.map d (some t)

/-- The attempt of an unmapping. -/
def unmapping (k : Controller) (name : Value) : Attempt MappingResult :=
  k.withDeadline fun t => k.mapper.unmap name (some t)

theorem withDeadline_within {body : Int → Attempt α} (h : ∀ limit, (body limit).run.Within Request.OfMapping) :
    (k.withDeadline body).run.Within Request.OfMapping := by
  refine Attempt.within_bind ⟨.clock, fun _ => trivial⟩ fun now => Attempt.within_bind ?_ h
  unfold later
  split <;> trivial

theorem mapping_within (k : Controller) (d : DynaKube) : (k.mapping d).run.Within Request.OfMapping :=
  withDeadline_within fun limit => Mapper.map_within k.mapper (some limit) d

theorem unmapping_within (k : Controller) (name : Value) : (k.unmapping name).run.Within Request.OfMapping :=
  withDeadline_within fun limit => Mapper.unmap_within k.mapper (some limit) name

/-- What is done about the outcome of a mapping. -/
def settleMapped (d : DynaKube) : Except Fault MappingResult → Control Unit
  | .ok result => do
    Session.count (.reconciles .mapped)
    reportStatus d.name .mapped result.summary
    clearRetry (.text d.name)
    observe (.text d.name) d.generation
  | .error fault => failed d fault

/-- What is done about the outcome of an unmapping. -/
def settleUnmapped (name : Value) : Except Fault MappingResult → Control Unit
  | .ok _ => do
    Session.count (.reconciles .unmapped)
    clearRetry name
    forget name
  | .error _ => do
    Session.error ("Failed to unmap dynakube " ++ name.shown)
    Session.count (.reconciles .error)
    repeatLater name

theorem reconcile_operates {r : Except Fault (Option MappingResult)}
    (h : Course ((k.reconcile d).run.run b) acts (r, b')) :
    ∃ v r', Operates (k.mapping d) (settleMapped d) b acts v r' b' ∧ ∀ fault, r = .error fault ↔ r' = .error fault :=
  operates_of_course h (fun _ => rfl) (fun _ => rfl) rfl fun _ => by simp only [settleMapped, bind_assoc]

theorem unmap_operates {r : Except Fault (Option MappingResult)}
    (h : Course ((k.unmap name).run.run b) acts (r, b')) :
    ∃ v r', Operates (k.unmapping name) (settleUnmapped name) b acts v r' b' ∧
      ∀ fault, r = .error fault ↔ r' = .error fault :=
  operates_of_course h (fun _ => rfl) (fun _ => by simp only [settleUnmapped, bind_assoc]) rfl
    fun _ => by simp only [settleUnmapped, bind_assoc]

/-- The state and the message that are reported of an outcome. -/
def statusOf : Except Fault MappingResult → MappingState × String
  | .ok result => (.mapped, result.summary)
  | .error (.selector error) => (.invalidSelector, error.message)
  | .error (.ownership conflict) => (.conflict, (Fault.ownership conflict).message)
  | .error fault => (.error, fault.summary)

/-- The mapping is not to be repeated: it succeeded, or only a new version of the DynaKube can mend it. -/
def isFinal : Except Fault MappingResult → Bool
  | .ok _ | .error (.selector _) => true
  | .error _ => false

/-- The result that is counted for an outcome. -/
def resultOf : Except Fault MappingResult → ReconcileResult
  | .ok _ => .mapped
  | .error (.selector _) => .invalid
  | .error (.ownership _) => .conflict
  | .error _ => .error

theorem failed_resultOf (v : Except Fault MappingResult) : (resultOf v).failed = !isFinal v := by
  cases v with
  | ok result => rfl
  | error fault => cases fault <;> rfl

/-- The outcome of a mapping is reported, and the mapping is repeated later unless the outcome is final. -/
def conclude (d : DynaKube) (v : Except Fault MappingResult) : Control Unit := do
  reportStatus d.name (statusOf v).1 (statusOf v).2
  if isFinal v then
    clearRetry (.text d.name)
    observe (.text d.name) d.generation
  else repeatLater (.text d.name)

/-- Once it is logged and counted, an outcome is dealt with like any other. -/
theorem settleMapped_eq (d : DynaKube) (v : Except Fault MappingResult) :
    settleMapped d v = (do
      Session.count (.reconciles (resultOf v))
      conclude d v) ∨
    ∃ level text, settleMapped d v = (do
      Session.log level text
      Session.count (.reconciles (resultOf v))
      conclude d v) := by
  cases v with
  | ok result => exact .inl rfl
  | error fault => cases fault <;> exact .inr ⟨_, _, rfl⟩

section Housekeeping

variable {P : ∀ {β : Type}, Control β → Prop} (hP : Control.Housekeeping P)

include hP

theorem conclude_housekeeping (d : DynaKube) (v : Except Fault MappingResult) : P (conclude d v) := by
  refine hP.bind (hP.reportStatus _ _ _) fun _ => ?_
  split
  · exact hP.bind (hP.clearRetry _) fun _ => hP.modify _ fun _ => rfl
  · exact hP.repeatLater _

theorem settleMapped_housekeeping (hresult : ∀ result, P (liftM (Session.count (.reconciles result)) : Control Unit))
    (d : DynaKube) (v : Except Fault MappingResult) : P (settleMapped d v) := by
  have hcounted : P (do
      Session.count (.reconciles (resultOf v))
      conclude d v) := hP.bind (hresult _) fun _ => conclude_housekeeping hP d v
  rcases settleMapped_eq d v with heq | ⟨level, text, heq⟩
  · rw [heq]
    exact hcounted
  · rw [heq]
    exact hP.bind (hP.note trivial) fun _ => hcounted

end Housekeeping

theorem settleMapped_course {v : Except Fault MappingResult} {r : Except Fault Unit}
    (h : Course ((settleMapped d v).run.run b) acts (r, b')) :
    ∃ logged rest, acts = logged ++ [.told (.count (.reconciles (resultOf v)))] ++ rest ∧ Routine logged ∧
      Course ((conclude d v).run.run b) rest (r, b') := by
  rcases settleMapped_eq d v with heq | ⟨level, text, heq⟩
  · rw [heq] at h
    obtain ⟨_, _, rest, rfl, hcount, hrest⟩ := Control.course_session_bind.mp h
    obtain rfl := Session.course_note.mp hcount
    exact ⟨[], rest, rfl, ⟨.nil, by simp⟩, hrest⟩
  · rw [heq] at h
    obtain ⟨_, _, _, rfl, hlog, hlogged⟩ := Control.course_session_bind.mp h
    obtain ⟨_, _, rest, rfl, hcount, hrest⟩ := Control.course_session_bind.mp hlogged
    obtain rfl := Session.course_note.mp hlog
    obtain rfl := Session.course_note.mp hcount
    exact ⟨[.told (.log level text)], rest, by simp, ⟨by simp [Aside, Note.Aside], by simp⟩, hrest⟩

end Controller
end NamespaceOwnership
