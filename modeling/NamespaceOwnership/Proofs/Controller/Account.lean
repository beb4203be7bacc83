import NamespaceOwnership.Proofs.Controller.Knowledge

/-!
# An account of what was done

A course of the controller falls into stretches, and in each of them one thing is done that bears on what is known of
a DynaKube: it is reconciled, its claims are dropped, it cannot be read, the DynaKubes are listed; or nothing of the
kind. A resync takes several stretches, and a `ResyncStage` says what it has still to do. An `Account` of a course keeps
what was done in its stretches in their order, and every course of tasks and of the control loop has one.
-/
namespace NamespaceOwnership

open Number (Binary64)
open Session (Course)

variable {α β : Type} {k : Controller} {b b' b₁ : Books} {acts acts' : List Act}

/-- Where a DynaKube that is reconciled comes from: from an event or another caller, from the reading that precedes a
repetition, or from the listing of a resync. -/
inductive Origin where
  | given | found | listed
  deriving DecidableEq

/-- What is done in a stretch of a course. -/
inductive Deed where
  | aside
  | reconciled (origin : Origin) (d : DynaKube) (outcome : Except Fault MappingResult)
  | unmapped (name : Value)
  /-- It was to be repeated, but it is not there; its claims are dropped. -/
  | missed (name : Value)
  /-- It was reported as deleted; its claims are dropped. -/
  | deleted (name : Value)
  /-- It was to be repeated, but reading it was refused. -/
  | unread (name : Value)
  | listed (ds : List DynaKube)
  | surveyed (records : List NamespaceRecord)
  /-- A resync that listed these DynaKubes and these namespaces has come to its end. -/
  | resynced (ds : List DynaKube) (records : List NamespaceRecord)

structure Entry where
  acts : List Act
  deed : Deed

def performed (log : List Entry) : List Act := log.flatMap Entry.acts

@[simp] theorem performed_nil : performed [] = [] := rfl

@[simp] theorem performed_append (log log' : List Entry) :
    performed (log ++ log') = performed log ++ performed log' := List.flatMap_append

@[simp] theorem performed_singleton (entry : Entry) : performed [entry] = entry.acts := by simp [performed]

/-- An entry of a log with one more is the last one or one of those before. -/
theorem cases_of_snoc {log pre post : List Entry} {entry other : Entry} (h : log ++ [entry] = pre ++ other :: post) :
    (pre = log ∧ other = entry) ∨ ∃ rest, log = pre ++ other :: rest := by
  rcases List.eq_nil_or_concat post with rfl | ⟨rest, last, rfl⟩
  · obtain ⟨rfl, hlast⟩ := List.append_inj' h rfl
    cases hlast
    exact .inl ⟨rfl, rfl⟩
  · rw [List.concat_eq_append, ← List.cons_append, ← List.append_assoc] at h
    exact .inr ⟨rest, (List.append_inj' h rfl).1⟩

/-- What a resync has still to do. -/
inductive ResyncStage where
  | free
  /-- Of the DynaKubes that it listed, these are still to be reconciled. -/
  | mapping (ds todo : List DynaKube)
  /-- Of the owners that were not listed, the claims of these are still to be dropped. -/
  | releasing (ds : List DynaKube) (records : List NamespaceRecord) (todo : List String)

/-- Where a DynaKube comes from, with the acts by which it is found there. -/
inductive Comes (d : DynaKube) : Origin → List Act → ResyncStage → ResyncStage → Prop where
  | given {stage : ResyncStage} : Comes d .given [] stage .free
  | found {stage : ResyncStage} {name object : Value} (h : DynaKube.ofObject object = .ok d) :
      Comes d .found [.asked (.api (.getDynaKube name)) (.ok object)] stage .free
  | listed {ds todo : List DynaKube} : Comes d .listed [] (.mapping ds (d :: todo)) (.mapping ds todo)

/-- A stretch of a course, with the books and the stage before and after it. -/
inductive Stretch (k : Controller) (b : Books) : ResyncStage → Entry → Books → ResyncStage → Prop where
  | aside {stage : ResyncStage} {acts : List Act} {b' : Books} (unmoved : b.Unmoved acts b')
      (remembers : b.Remembers acts b') : Stretch k b stage ⟨acts, .aside⟩ b' stage
  | reconciled {stage stage' : ResyncStage} {origin : Origin} {first acts : List Act} {d : DynaKube}
      {v : Except Fault MappingResult} {b' : Books} (comes : Comes d origin first stage stage')
      (h : k.Reconciles d b acts v b') : Stretch k b stage ⟨first ++ acts, .reconciled origin d v⟩ b' stage'
  | unmapped {stage : ResyncStage} {acts : List Act} {name : Value} {v : Except Fault MappingResult} {b' : Books}
      (h : k.Drops name b acts v b') : Stretch k b stage ⟨acts, .unmapped name⟩ b' .free
  | released {ds : List DynaKube} {records : List NamespaceRecord} {orphan : String} {todo : List String}
      {acts : List Act} {v : Except Fault MappingResult} {b' : Books} (h : k.Drops (.text orphan) b acts v b') :
      Stretch k b (.releasing ds records (orphan :: todo)) ⟨acts, .unmapped (.text orphan)⟩ b'
        (.releasing ds records todo)
  | missed {stage : ResyncStage} {acts : List Act} {name : Value} {failure : CallFailure}
      {v : Except Fault MappingResult} {b' : Books} (unknown : failure.status? = some 404)
      (h : k.Drops name b acts v b') :
      Stretch k b stage ⟨.asked (.api (.getDynaKube name)) (.error failure) :: acts, .missed name⟩ b' .free
  | deleted {stage : ResyncStage} {first acts : List Act} {name : Value} {text : String} {b₁ b' : Books}
      {v : Except Fault MappingResult} (cleared : Course ((Controller.clearRetry name).run.run b) first (.ok (), b₁))
      (h : k.Drops name b₁ acts v b') :
      Stretch k b stage ⟨.told (.log .info text) :: (first ++ acts), .deleted name⟩ b' .free
  | unread {stage : ResyncStage} {acts : List Act} {name : Value} {r : Except Fault Unit} {status : Option Int}
      {reason : Option String} {text : String} {b' : Books} (unknown : status ≠ some 404)
      (h : Course ((Controller.repeatLater name).run.run b) acts (r, b')) :
      Stretch k b stage ⟨.asked (.api (.getDynaKube name)) (.error (.refused status reason)) ::
        .told (.log .error text) :: acts, .unread name⟩ b' .free
  | listed {stage : ResyncStage} {acts : List Act} {ds : List DynaKube} {version : Value}
      (h : Course DynaKubes.list.run acts (.ok (ds, version))) :
      Stretch k b stage ⟨acts, .listed ds⟩ b (.mapping ds ds)
  | surveyed {ds : List DynaKube} {records : List NamespaceRecord} {acts : List Act}
      (h : Course k.mapper.ledger.list.run acts (.ok records)) :
      Stretch k b (.mapping ds []) ⟨acts, .surveyed records⟩ b
        (.releasing ds records (Controller.orphans (ds.map (·.name)) records))
  | resynced {ds : List DynaKube} {records : List NamespaceRecord} {acts : List Act} {b' : Books}
      (h : Course (k.planResync.run.run b) acts (.ok ⟨⟩, b')) :
      Stretch k b (.releasing ds records []) ⟨acts, .resynced ds records⟩ b' .free

/-- One stretch after another. -/
inductive Account (k : Controller) (b : Books) (stage : ResyncStage) : List Entry → Books → ResyncStage → Prop where
  | start : Account k b stage [] b stage
  | snoc {log : List Entry} {entry : Entry} {b₁ b' : Books} {stage₁ stage' : ResyncStage}
      (h : Account k b stage log b₁ stage₁) (last : Stretch k b₁ stage₁ entry b' stage') :
      Account k b stage (log ++ [entry]) b' stage'

namespace Account

variable {stage stage' stage₁ : ResyncStage} {log log' : List Entry} {entry : Entry}

theorem single (h : Stretch k b stage entry b' stage') : Account k b stage [entry] b' stage' := start.snoc h

theorem trans (h : Account k b stage log b₁ stage₁) (h' : Account k b₁ stage₁ log' b' stage') :
    Account k b stage (log ++ log') b' stage' := by
  induction h' with
  | start => simpa using h
  | snoc _ last ih =>
    rw [← List.append_assoc]
    exact ih.snoc last

/-- An entry stands for a stretch between what was accounted for before it and after it. -/
theorem exists_stretch {pre post : List Entry} (h : Account k b stage (pre ++ entry :: post) b' stage') :
    ∃ b₁ stage₁ b₂ stage₂, Account k b stage pre b₁ stage₁ ∧ Stretch k b₁ stage₁ entry b₂ stage₂ := by
  generalize hlog : pre ++ entry :: post = log at h
  induction h generalizing post with
  | start => simp at hlog
  | snoc hbefore last ih =>
    rcases cases_of_snoc hlog.symm with ⟨rfl, rfl⟩ | ⟨rest, hrest⟩
    · exact ⟨_, _, _, _, hbefore, last⟩
    · exact ih hrest.symm

end Account

namespace Control

variable {x : Control α} {f : α → Control β} {stage : ResyncStage} {mid : α → ResyncStage → Prop}
  {post : β → ResyncStage → Prop}

/-- From this stage on each of its courses has an account; a course that returns has this stage at its end. -/
def Guides (k : Controller) (stage : ResyncStage) (x : Control α) (post : α → ResyncStage → Prop) : Prop :=
  ∀ b acts r b', Course (x.run.run b) acts (r, b') → ∃ log stage', performed log = acts ∧
    Account k b stage log b' stage' ∧ ∀ a, r = .ok a → post a stage'

/-- Each of its courses has an account, whatever stage a resync was at before. -/
def Accounted (k : Controller) (x : Control α) : Prop := ∀ stage, Guides k stage x fun _ _ => True

namespace Guides

theorem mono {post : α → ResyncStage → Prop} (hx : Guides k stage x mid) (h : ∀ a s, mid a s → post a s) :
    Guides k stage x post := by
  intro b acts r b' hcourse
  obtain ⟨log, stage', hlog, haccount, hmid⟩ := hx b acts r b' hcourse
  exact ⟨log, stage', hlog, haccount, fun a hr => h a stage' (hmid a hr)⟩

/-- What leaves alone what is to be repeated and what is known of each name leaves the stage as it is, too. -/
theorem aside (hx : Neutral x) (hx' : Sustains Books.Remembers x) : Guides k stage x fun _ s => s = stage := by
  intro b acts r b' h
  exact ⟨_, stage, performed_singleton ⟨acts, .aside⟩, .single (.aside (hx b acts r b' h) (hx' b acts r b' h)),
    fun _ _ => rfl⟩

theorem note {n : Note} (hn : n.Aside) :
    Guides k stage (liftM (Session.note n) : Control Unit) fun _ s => s = stage :=
  aside (.note hn) (note_remembers n)

theorem pure {a : α} (h : mid a stage) : Guides k stage (pure a : Control α) mid := by
  intro b acts r b' hcourse
  obtain ⟨rfl, hr⟩ := Session.course_done.mp hcourse
  cases hr
  exact ⟨[], stage, rfl, .start, fun a hr => by cases hr; exact h⟩

theorem bind (hx : Guides k stage x mid) (hf : ∀ a stage₁, mid a stage₁ → Guides k stage₁ (f a) post) :
    Guides k stage (x >>= f) post := by
  intro b acts r b' hcourse
  rcases course_bind.mp hcourse with ⟨fault, rfl, hfirst⟩ | ⟨first, a, b₁, rest, rfl, h₁, h₂⟩
  · obtain ⟨log, stage', hlog, haccount, -⟩ := hx _ _ _ _ hfirst
    exact ⟨log, stage', hlog, haccount, by simp⟩
  · obtain ⟨log, stage₁, rfl, haccount, hmid⟩ := hx _ _ _ _ h₁
    obtain ⟨log', stage', rfl, haccount', hpost⟩ := hf a stage₁ (hmid a rfl) _ _ _ _ h₂
    exact ⟨log ++ log', stage', performed_append log log', haccount.trans haccount', hpost⟩

/-- Where the stage at the end of the first part is known, the second part goes on from it. -/
theorem andThen {next : α → ResyncStage} (hx : Guides k stage x fun a s => s = next a)
    (hf : ∀ a, Guides k (next a) (f a) post) : Guides k stage (x >>= f) post :=
  hx.bind fun a _ hstage => hstage ▸ hf a

/-- Where it is told whether a course returned or failed, the account tells it in one entry. -/
theorem attempt {a : Attempt α} {allowed : Request → Prop} {deed : α → Deed} {next : α → ResyncStage}
    (ha : a.run.Within allowed) (hsilent : ∀ text report, ¬allowed (.api (.patchStatus (.text text) report)))
    (hreturns : ∀ b acts v, Course a.run acts (.ok v) → Stretch k b stage ⟨acts, deed v⟩ b (next v)) :
    Guides k stage (Control.attempt a) fun v s => s = next v := by
  intro b acts r b' h
  cases r with
  | ok v =>
    obtain ⟨hcourse, rfl⟩ := Control.course_attempt.mp h
    refine ⟨_, _, performed_singleton _, .single (hreturns _ acts v hcourse), fun _ hr => ?_⟩
    cases hr
    rfl
  | error fault =>
    have hneutral : Neutral (Control.attempt a) := .attempt ha
    refine ⟨_, _, performed_singleton ⟨acts, .aside⟩, .single (.aside (hneutral _ _ _ _ h) ?_), by simp⟩
    exact attempt_remembers ha hsilent _ _ _ _ h

end Guides

namespace Accounted

/-- What leaves alone what is to be repeated and what is known of each name. -/
theorem aside (hx : Neutral x) (hx' : Sustains Books.Remembers x) : Accounted k x :=
  fun _ => (Guides.aside hx hx').mono fun _ _ _ => trivial

theorem pure {a : α} : Accounted k (pure a : Control α) := fun _ => Guides.pure trivial

theorem bind (hx : Accounted k x) (hf : ∀ a, Accounted k (f a)) : Accounted k (x >>= f) := fun stage =>
  (hx stage).bind fun a later _ => hf a later

theorem outcome_bind {f : Except Fault α → Control β} (hx : Accounted k x) (hf : ∀ r, Accounted k (f r)) :
    Accounted k (x.outcome >>= f) := by
  intro stage b acts r b' h
  obtain ⟨first, v, b₁, rest, rfl, h₁, h₂⟩ := course_outcome_bind.mp h
  obtain ⟨log, stage₁, rfl, haccount, -⟩ := hx stage _ _ _ _ h₁
  obtain ⟨log', stage', rfl, haccount', hpost⟩ := hf v stage₁ _ _ _ _ h₂
  exact ⟨log ++ log', stage', performed_append log log', haccount.trans haccount', hpost⟩

theorem throw {fault : Fault} : Accounted k (throw fault : Control α) :=
  aside .throw (.throw Books.remembers_composes)

theorem note {n : Note} (hn : n.Aside) : Accounted k (liftM (Session.note n) : Control Unit) :=
  fun _ => (Guides.note hn).mono fun _ _ _ => trivial

theorem request {q : Request} (hq : ∀ text report, q ≠ .api (.patchStatus (.text text) report)) :
    Accounted k (liftM (Session.request q) : Control q.Answer) :=
  aside .request (request_remembers hq)

theorem closed : Closed fun x => Accounted k x where
  pure _ := pure
  throw _ := throw
  get := aside .get (.get Books.remembers_composes)
  note hn := note hn.quiet.aside
  bind := bind
  outcome_bind := outcome_bind

end Accounted
end Control

namespace DynaKubes

/-- Reading a DynaKube takes one call. It is not there where this is answered with status 404. -/
theorem get?_course {name : Value} {r : Except Fault (Option DynaKube)} (h : Course (get? name).run acts r) :
    (∃ failure : CallFailure, acts = [.asked (.api (.getDynaKube name)) (.error failure)] ∧
      (failure.status? = some 404 ∧ r = .ok none ∨ failure.status? ≠ some 404 ∧ r = .error (.call failure))) ∨
    ∃ object, acts = [.asked (.api (.getDynaKube name)) (.ok object)] ∧
      ((∃ d, DynaKube.ofObject object = .ok d ∧ r = .ok (some d)) ∨ ∃ e, r = .error (.object e)) := by
  obtain ⟨_, reply, rest, rfl, hcall, hend⟩ := Attempt.course_lift_bind.mp h
  obtain rfl := Session.course_request.mp hcall
  cases reply with
  | error failure =>
    by_cases h404 : failure.status? = some 404
    · simp only [h404, if_true] at hend
      obtain ⟨rfl, rfl⟩ := Attempt.course_pure.mp hend
      exact .inl ⟨failure, rfl, .inl ⟨h404, rfl⟩⟩
    · simp only [h404, if_false] at hend
      obtain ⟨rfl, rfl⟩ := Attempt.course_throw.mp hend
      exact .inl ⟨failure, rfl, .inr ⟨h404, rfl⟩⟩
  | ok object =>
    cases hobject : DynaKube.ofObject object with
    | ok d =>
      simp only [read, hobject] at hend
      obtain ⟨rfl, rfl⟩ := Attempt.course_pure.mp hend
      exact .inr ⟨object, rfl, .inl ⟨d, hobject, rfl⟩⟩
    | error e =>
      simp only [read, hobject] at hend
      obtain ⟨rfl, rfl⟩ := Attempt.course_throw.mp hend
      exact .inr ⟨object, rfl, .inr ⟨e, rfl⟩⟩

end DynaKubes

namespace Controller

open Books (Remembers remembers_composes)
open Control (Neutral Accounted Guides attempt_remembers)

theorem reconcile_guides (d : DynaKube) {origin : Origin} {stage stage' : ResyncStage}
    (comes : Comes d origin [] stage stage') : Guides k stage (k.reconcile d) fun _ s => s = stage' := by
  intro b acts r b' h
  obtain ⟨v, hreconciles⟩ := exists_reconciles h
  exact ⟨_, stage', by simp, .single (.reconciled comes hreconciles), fun _ _ => rfl⟩

theorem reconcile_accounted (d : DynaKube) : Accounted k (k.reconcile d) := by
  intro stage b acts r b' h
  obtain ⟨log, stage', hlog, haccount, -⟩ := reconcile_guides d .given _ _ _ _ h
  exact ⟨log, stage', hlog, haccount, fun _ _ => trivial⟩

theorem unmap_accounted (name : Value) : Accounted k (k.unmap name) := by
  intro stage b acts r b' h
  obtain ⟨v, hdrops⟩ := exists_drops h
  exact ⟨_, _, by simp, .single (.unmapped hdrops), fun _ _ => trivial⟩

theorem planResync_neutral (k : Controller) : Neutral k.planResync :=
  .bind .request fun _ => .bind (.attempt (plus_sparing _ _)) fun _ => .modify fun _ => ⟨rfl, rfl⟩

theorem planResync_accounted (k : Controller) : Accounted k k.planResync :=
  .aside (planResync_neutral k) k.planResync_remembers

section Resync

variable {ds : List DynaKube} {records : List NamespaceRecord}

theorem list_guides (stage : ResyncStage) : Guides k stage (Control.attempt DynaKubes.list) fun listed s =>
    s = .mapping listed.1 listed.1 :=
  .attempt DynaKubes.list_within (by simp) fun _ _ _ hlist => .listed hlist

theorem reconcileAll_guides (todo : List DynaKube) :
    Guides k (.mapping ds todo) (k.reconcileAll todo) fun _ s => s = .mapping ds [] := by
  induction todo with
  | nil => exact .pure rfl
  | cons d rest ih => exact (reconcile_guides d .listed).andThen fun _ => ih

theorem survey_guides : Guides k (.mapping ds []) (Control.attempt k.mapper.ledger.list) fun records s =>
    s = .releasing ds records (orphans (ds.map (·.name)) records) :=
  .attempt (Mapper.list_within k.mapper) (fun _ _ h => nomatch h) fun _ _ _ hlist => .surveyed hlist

theorem unmapOrphans_guides (todo : List String) :
    Guides k (.releasing ds records todo) (k.unmapOrphans todo) fun _ s => s = .releasing ds records [] := by
  induction todo with
  | nil => exact .pure rfl
  | cons orphan rest ih =>
    have hunmap : Guides k (.releasing ds records (orphan :: rest)) (k.unmap (.text orphan)) fun _ s =>
        s = .releasing ds records rest := by
      intro b acts r b' h
      obtain ⟨v, hdrops⟩ := exists_drops h
      exact ⟨_, _, by simp, .single (.released hdrops), fun _ _ => rfl⟩
    exact Guides.andThen (.note trivial) fun _ => hunmap.andThen fun _ => ih

theorem planResync_guides : Guides k (.releasing ds records []) k.planResync fun _ s => s = .free := by
  intro b acts r b' h
  cases r with
  | ok _ => exact ⟨_, _, performed_singleton _, .single (.resynced h), fun _ _ => rfl⟩
  | error fault =>
    refine ⟨_, _, performed_singleton ⟨acts, .aside⟩, .single (.aside ?_ ?_), by simp⟩
    · exact k.planResync_neutral _ _ _ _ h
    · exact k.planResync_remembers _ _ _ _ h

theorem resync_accounted (k : Controller) : Accounted k k.resync := by
  intro stage
  refine (list_guides stage).andThen fun listed => (reconcileAll_guides listed.1).andThen fun _ => ?_
  refine survey_guides.andThen fun records => (unmapOrphans_guides _).andThen fun _ => ?_
  exact planResync_guides.bind fun _ _ _ => .pure trivial

end Resync

/-- A retry fails with a failure of a call only where reading the DynaKube does, and then nothing else is done. -/
theorem retry_course {name : Value} {r : Except Fault Unit} (stage : ResyncStage)
    (h : Course ((k.retry name).run.run b) acts (r, b')) :
    (∃ failure, r = .error (.call failure) ∧ failure.status? ≠ some 404 ∧
      acts = [.asked (.api (.getDynaKube name)) (.error failure)] ∧ b' = b) ∨
    (∀ failure, r ≠ .error (.call failure)) ∧
      ∃ log stage', performed log = acts ∧ Account k b stage log b' stage' := by
  rcases Control.course_bind.mp h with ⟨fault, rfl, hread⟩ | ⟨first, found, b₁, rest, rfl, hread, hrest⟩
  · obtain ⟨hget, rfl⟩ := Control.course_attempt.mp hread
    rcases DynaKubes.get?_course hget with ⟨failure, rfl, ⟨-, hr⟩ | ⟨hunknown, hr⟩⟩ |
      ⟨object, rfl, ⟨d, -, hr⟩ | ⟨e, hr⟩⟩ <;> cases hr
    · exact .inl ⟨failure, rfl, hunknown, rfl, rfl⟩
    · refine .inr ⟨by simp, _, _, performed_singleton ⟨_, .aside⟩, .single (.aside ?_ ?_)⟩
      · exact ⟨rfl, rfl, by simp [Aside]⟩
      · exact ⟨rfl, rfl, by simp [Unreported]⟩
  · obtain ⟨hget, rfl⟩ := Control.course_attempt.mp hread
    rcases DynaKubes.get?_course hget with ⟨failure, rfl, ⟨hmissing, hr⟩ | ⟨-, hr⟩⟩ |
      ⟨object, rfl, ⟨d, hobject, hr⟩ | ⟨e, hr⟩⟩ <;> cases hr
    · have hraised := ((unmap_concluding name).bind (fun _ => .pure) _ _ _ _ hrest).raised
      obtain ⟨r', hcourse⟩ := Control.course_of_discard hrest
      obtain ⟨v, hdrops⟩ := exists_drops hcourse
      exact .inr ⟨hraised, _, _, performed_singleton _, .single (.missed hmissing hdrops)⟩
    · have hraised := ((reconcile_concluding d).bind (fun _ => .pure) _ _ _ _ hrest).raised
      obtain ⟨r', hcourse⟩ := Control.course_of_discard hrest
      obtain ⟨v, hreconciles⟩ := exists_reconciles hcourse
      exact .inr ⟨hraised, _, _, performed_singleton _, .single (.reconciled (.found hobject) hreconciles)⟩

/-- A refused reading and what is noted because of it make one stretch, which no operation contains. -/
theorem unread_account {name : Value} {status : Option Int} {reason : Option String} {text : String}
    {rest : Control Unit} {r : Except Fault Unit} (stage : ResyncStage) (hunknown : status ≠ some 404)
    (hrest : Accounted k rest) (h : Course ((do
      Session.error text
      repeatLater name
      rest : Control Unit).run.run b) acts (r, b')) : ∃ log stage',
        performed log = .asked (.api (.getDynaKube name)) (.error (.refused status reason)) :: acts ∧
        Account k b stage log b' stage' := by
  obtain ⟨_, _, last, rfl, hnote, hlast⟩ := Control.course_session_bind.mp h
  obtain rfl := Session.course_note.mp hnote
  rcases Control.course_bind.mp hlast with ⟨fault, -, hrepeat⟩ | ⟨again, _, b₁, others, rfl, hrepeat, hothers⟩
  · exact ⟨_, _, performed_singleton _, .single (.unread hunknown hrepeat)⟩
  · obtain ⟨log, stage', rfl, haccount, -⟩ := hrest _ _ _ _ _ hothers
    have hunread : Stretch k b stage ⟨.asked (.api (.getDynaKube name)) (.error (.refused status reason)) ::
        .told (.log .error text) :: again, .unread name⟩ b₁ .free := .unread hunknown hrepeat
    exact ⟨_, _, by simp [performed], (Account.single hunread).trans haccount⟩

theorem retryAll_accounted (names : List Value) : Accounted k (k.retryAll names) := by
  induction names with
  | nil => exact .pure
  | cons name rest ih =>
    refine .bind (.note trivial) fun _ => ?_
    intro stage b acts r b' h
    obtain ⟨first, v, b₁, later, rfl, hretry, hlater⟩ := Control.course_outcome_bind.mp h
    rcases retry_course stage hretry with ⟨failure, rfl, hunknown, rfl, rfl⟩ | ⟨hraised, log, stage₁, rfl, haccount⟩
    · cases failure with
      | refused status reason =>
        obtain ⟨log, stage', hlog, haccount⟩ := unread_account stage hunknown ih hlater
        exact ⟨log, stage', hlog, haccount, fun _ _ => trivial⟩
      | _ =>
        obtain ⟨rfl, hr⟩ := Session.course_done.mp hlater
        cases hr
        refine ⟨_, stage, performed_singleton ⟨_, .aside⟩, .single (.aside ?_ ?_), fun _ _ => trivial⟩
        · exact ⟨rfl, rfl, by simp [Aside]⟩
        · exact ⟨rfl, rfl, by simp [Unreported]⟩
    · -- nothing else is caught
      have hrest : ∃ log stage', performed log = later ∧ Account k b₁ stage₁ log b' stage' := by
        cases v with
        | ok _ =>
          obtain ⟨log, stage', hlog, haccount, -⟩ := ih _ _ _ _ _ hlater
          exact ⟨log, stage', hlog, haccount⟩
        | error fault =>
          cases fault with
          | call failure => exact absurd rfl (hraised failure)
          | _ =>
            obtain ⟨log, stage', hlog, haccount, -⟩ := Accounted.bind .throw (fun _ => ih) _ _ _ _ _ hlater
            exact ⟨log, stage', hlog, haccount⟩
      obtain ⟨log', stage', rfl, haccount'⟩ := hrest
      exact ⟨_, _, performed_append log log', haccount.trans haccount', fun _ _ => trivial⟩

theorem drain_accounted (now : Binary64) : Accounted k (k.drain now) :=
  Accounted.closed.drain retryAll_accounted k.resync_accounted k.planResync_accounted now

theorem handleObject_accounted (change : Change) (name object : Value) :
    Accounted k (k.handleObject change name object) :=
  Accounted.closed.handleObject change name fun d _ => reconcile_accounted d

/-- Crossing out a name that was deleted and dropping its claims makes one stretch. -/
theorem deletion_accounted (name : Value) (text : String) : Accounted k (do
    Session.info text
    clearRetry name
    k.unmap name) := by
  intro stage b acts r b' h
  obtain ⟨_, _, rest, rfl, hnote, hrest⟩ := Control.course_session_bind.mp h
  obtain rfl := Session.course_note.mp hnote
  rcases Control.course_bind.mp hrest with ⟨fault, -, hclear⟩ | ⟨first, _, b₁, last, rfl, hclear, hunmap⟩
  · have htold : b.Unmoved [.told (.log .info text)] b := ⟨rfl, rfl, by simp [Aside, Note.Aside]⟩
    have hsilent : b.Remembers [.told (.log .info text)] b := ⟨rfl, rfl, by simp [Unreported]⟩
    refine ⟨_, stage, performed_singleton ⟨_, .aside⟩, .single (.aside ?_ ?_), fun _ _ => trivial⟩
    · exact htold.trans (clearRetry_raises hclear)
    · exact hsilent.trans (clearRetry_remembers name _ _ _ _ hclear)
  · obtain ⟨v, hdrops⟩ := exists_drops hunmap
    have hdeleted : Stretch k b stage ⟨.told (.log .info text) :: (first ++ last), .deleted name⟩ b' .free :=
      .deleted hclear hdrops
    exact ⟨_, _, performed_singleton _, .single hdeleted, fun _ _ => trivial⟩

theorem fieldsOf_accounted (v : Value) : Accounted k (fieldsOf v) := by
  have hnothing : (DynaKubes.fieldsOf v).run.Within fun _ => False := DynaKubes.fieldsOf_within v
  exact .aside (.attempt hnothing) (attempt_remembers hnothing (by simp))

theorem handleEvent_accounted (type : String) (object : Value) : Accounted k (k.handleEvent type object) :=
  Accounted.closed.handleEvent fieldsOf_accounted deletion_accounted handleObject_accounted type object

theorem perform_accounted (task : Task) : Accounted k (k.perform task) := by
  cases task with
  | event type object => exact .bind (handleEvent_accounted type object) fun _ => .pure
  | reconcile d => exact .bind (reconcile_accounted d) fun _ => .pure
  | unmap name => exact .bind (unmap_accounted name) fun _ => .pure
  | resync => exact .bind k.resync_accounted fun _ => .pure
  | drain now => exact drain_accounted now

/-- Whatever becomes of one task, the others are performed after it. -/
theorem performAll_cons {task : Task} {tasks : List Task} {r r' : Except Fault Unit} {first rest : List Act}
    (h : Course ((k.perform task).run.run b) first (r, b₁))
    (h' : Course ((k.performAll tasks).run.run b₁) rest (r', b')) :
    Course ((k.performAll (task :: tasks)).run.run b) (first ++ rest) (r', b') :=
  Control.course_outcome_bind.mpr ⟨first, r, b₁, rest, rfl, h, h'⟩

theorem performAll_single {task : Task} {r : Except Fault Unit} (h : Course ((k.perform task).run.run b) acts (r, b')) :
    Course ((k.performAll [task]).run.run b) acts (.ok ⟨⟩, b') := by
  have hnone : Course ((k.performAll []).run.run b') [] (.ok ⟨⟩, b') := .done _
  simpa using performAll_cons h hnone

theorem performAll_accounted (tasks : List Task) : Accounted k (k.performAll tasks) :=
  Accounted.closed.performAll fun task _ => perform_accounted task

theorem runFor_accounted (k : Controller) (n : Nat) : Accounted k (k.runFor n) := by
  refine Accounted.closed.runFor (fun q hq => .request ?_) (fun ready => ?_) k.resync_accounted drain_accounted
    handleEvent_accounted n
  · rintro text report rfl
    cases hq
  · exact .aside (.modify fun _ => ⟨rfl, rfl⟩) (.modify fun _ => ⟨rfl, rfl, fun _ _ _ => List.not_mem_nil⟩)

/-- What may happen while the controller is at work: any tasks are performed, or the control loop takes some steps. -/
inductive Proceeds (k : Controller) (b : Books) : List Act → Books → Prop where
  | tasks {tasks : List Task} {acts : List Act} {r : Except Fault Unit} {b' : Books}
      (h : Course ((k.performAll tasks).run.run b) acts (r, b')) : Proceeds k b acts b'
  | loop {n : Nat} {acts : List Act} {r : Except Fault Phase} {b' : Books}
      (h : Course ((k.runFor n).run.run b) acts (r, b')) : Proceeds k b acts b'

theorem Proceeds.exists_account (h : k.Proceeds b acts b') :
    ∃ log stage, Account k b .free log b' stage ∧ performed log = acts := by
  cases h with
  | tasks h =>
    obtain ⟨log, stage, hlog, haccount, -⟩ := performAll_accounted _ .free _ _ _ _ h
    exact ⟨log, stage, haccount, hlog⟩
  | loop h =>
    obtain ⟨log, stage, hlog, haccount, -⟩ := runFor_accounted k _ .free _ _ _ _ h
    exact ⟨log, stage, haccount, hlog⟩

end Controller
end NamespaceOwnership
