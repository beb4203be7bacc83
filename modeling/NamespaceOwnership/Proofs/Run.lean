import NamespaceOwnership.Proofs.Cluster

/-!
# Runs of a session among other parties

A session is played against a cluster that others change between any two of its requests. `Session.Runs` holds
of every way in which this may go; the trace of a run has every note and every exchange in their order, and an
exchange has the cluster right before and right after it. What a run of a program composed of parts may look
like is found from its parts by `Session.runs_bind` and, where a part may fail, by `Attempt.runs_bind`.
-/
namespace NamespaceOwnership

/-- What others do between two requests, which calls may fail, and what may be answered to the requests that
do not go to the API. -/
structure Interference where
  moves : Cluster → Cluster → Prop
  evolves : ∀ {c c'}, moves c c' → Cluster.Evolves c c'
  fails : Cluster → ApiCall → CallFailure → Prop
  permits : (request : Request) → request.Answer → Prop

namespace Interference

/-- Others change anything at any time, and every call may fail. -/
def any : Interference where
  moves := Cluster.Evolves
  evolves h := h
  fails _ _ _ := True
  permits _ _ := True

/-- Others change anything at any time, and every call may fail, but only what does not exist is missed. -/
def honest : Interference where
  moves := Cluster.Evolves
  evolves h := h
  fails c call failure := failure.status? = some 404 → match call with
    | .readNamespace name | .patchNamespace name _ => c.spaces name = none
    | .getDynaKube (.text name) => c.dynakubes name = none
    | _ => True
  permits _ _ := True

/-- Nobody else is there and nothing goes wrong: a call fails only where it misses its object, or a patch its
version. -/
def calm : Interference where
  moves := Eq
  evolves h := h ▸ .refl
  fails c call failure := match call with
    | .readNamespace name => c.spaces name = none ∧ failure.status? = some 404
    | .patchNamespace name patch =>
      c.spaces name = none ∧ failure.status? = some 404 ∨
        ∃ s pin, c.spaces name = some s ∧ patch.pinned = some pin ∧ pin ≠ s.version ∧
          failure.status? = some 409
    | .getDynaKube name =>
      (∀ text, name = .text text → c.dynakubes text = none) ∧ failure.status? = some 404
    | _ => False
  permits request answer := match request, answer with
    | .wallTime, .error _ => False
    | _, _ => True

def Answers (i : Interference) (c : Cluster) :
    (request : Request) → request.Answer → Cluster → Prop
  | .api call, reply, c' => c.Replies i.fails call reply c'
  | request, answer, c' => i.permits request answer ∧ c' = c

theorem Answers.mono {i i' : Interference} {c c' : Cluster} {request : Request}
    {answer : request.Answer} (h : i.Answers c request answer c')
    (hf : ∀ c call failure, i.fails c call failure → i'.fails c call failure)
    (hp : ∀ request answer, i.permits request answer → i'.permits request answer) :
    i'.Answers c request answer c' := by
  cases request with
  | api call =>
    cases answer with
    | error failure => exact ⟨hf c call failure h.1, h.2⟩
    | ok reply => cases call <;> exact h
  | _ => exact ⟨hp _ _ h.1, h.2⟩

theorem Answers.evolves {i : Interference} {c c' : Cluster} {request : Request}
    {answer : request.Answer} (h : i.Answers c request answer c') : Cluster.Evolves c c' := by
  cases request with
  | api call => exact Cluster.Replies.evolves h
  | nextEvent => exact h.2 ▸ .refl
  | closeWatch => exact h.2 ▸ .refl
  | clock => exact h.2 ▸ .refl
  | wallTime => exact h.2 ▸ .refl
  | pause milliseconds => exact h.2 ▸ .refl
  | jitter => exact h.2 ▸ .refl
  | stopRequested => exact h.2 ▸ .refl
  | withdrawStop => exact h.2 ▸ .refl
  | startedLeading => exact h.2 ▸ .refl
  | stoppedLeading => exact h.2 ▸ .refl

/-- No request of a session touches a DynaKube. -/
theorem Answers.dynakubes {i : Interference} {c c' : Cluster} {request : Request}
    {answer : request.Answer} (h : i.Answers c request answer c') : c'.dynakubes = c.dynakubes := by
  cases request with
  | api call =>
    cases answer with
    | error failure => rw [h.2]
    | ok reply =>
      cases call with
      | patchNamespace name patch =>
        obtain ⟨s, version, -, -, -, rfl⟩ := h
        rfl
      | readNamespace name => rw [h.1]
      | listNamespaces selector => rw [h.1]
      | getDynaKube name => rw [h.1]
      | listDynaKubes => rw [h.1]
      | _ => rw [show c' = c from h]
  | _ => rw [h.2]

end Interference

/-- A request and its answer, with the cluster right before and right after. -/
structure Exchange where
  before : Cluster
  request : Request
  answer : request.Answer
  after : Cluster

/-- A call to the API with its reply. -/
def Exchange.call (before : Cluster) (call : ApiCall) (reply : Except CallFailure call.Reply)
    (after : Cluster) : Exchange := ⟨before, .api call, reply, after⟩

inductive Event where
  | told (note : Note)
  | asked (exchange : Exchange)

/-- Any note but those that the controller leaves of its operations: how long one took, how it ended, and how much is
to be repeated. -/
def Note.Quiet : Note → Prop
  | .elapsed _ | .count (.reconciles _) | .pending _ => False
  | _ => True

namespace Session

variable {α β : Type} {i : Interference} {c c' : Cluster} {tr : List Event}

inductive Runs (i : Interference) : Session α → Cluster → List Event → α → Cluster → Prop where
  | done (a : α) (c : Cluster) : Runs i (.done a) c [] a c
  | tell {note : Note} {next : Session α} {c c' : Cluster} {tr : List Event} {a : α}
      (rest : Runs i next c tr a c') : Runs i (.tell note next) c (.told note :: tr) a c'
  | ask {request : Request} {next : request.Answer → Session α} {c c₁ c₂ c' : Cluster}
      {answer : request.Answer} {tr : List Event} {a : α} (moved : i.moves c c₁)
      (answered : i.Answers c₁ request answer c₂) (rest : Runs i (next answer) c₂ tr a c') :
      Runs i (.ask request next) c (.asked ⟨c₁, request, answer, c₂⟩ :: tr) a c'

@[simp] theorem runs_done {a b : α} : Runs i (.done a) c tr b c' ↔ tr = [] ∧ b = a ∧ c' = c := by
  constructor
  · rintro ⟨⟩
    exact ⟨rfl, rfl, rfl⟩
  · rintro ⟨rfl, rfl, rfl⟩
    exact .done _ _

@[simp] theorem runs_tell {note : Note} {next : Session α} {a : α} :
    Runs i (.tell note next) c tr a c' ↔
      ∃ rest, tr = .told note :: rest ∧ Runs i next c rest a c' := by
  constructor
  · rintro ⟨⟩
    exact ⟨_, rfl, ‹_›⟩
  · rintro ⟨rest, rfl, h⟩
    exact .tell h

theorem runs_ask {request : Request} {next : request.Answer → Session α} {a : α} :
    Runs i (.ask request next) c tr a c' ↔
      ∃ c₁ answer c₂ rest, i.moves c c₁ ∧ i.Answers c₁ request answer c₂ ∧
        tr = .asked ⟨c₁, request, answer, c₂⟩ :: rest ∧ Runs i (next answer) c₂ rest a c' := by
  constructor
  · rintro ⟨⟩
    exact ⟨_, _, _, _, ‹_›, ‹_›, rfl, ‹_›⟩
  · rintro ⟨c₁, answer, c₂, rest, hm, ha, rfl, h⟩
    exact .ask hm ha h

/-- A run of one session after another is a run of the first and then one of the second. -/
theorem runs_bind {s : Session α} {f : α → Session β} {b : β} :
    Runs i (s >>= f) c tr b c' ↔
      ∃ tr₁ a c₁ tr₂, tr = tr₁ ++ tr₂ ∧ Runs i s c tr₁ a c₁ ∧ Runs i (f a) c₁ tr₂ b c' := by
  constructor
  · intro h
    induction s generalizing c tr with
    | done a => exact ⟨[], a, c, tr, rfl, .done a c, h⟩
    | tell note next ih =>
      obtain ⟨rest, rfl, hrest⟩ := runs_tell.mp h
      obtain ⟨tr₁, a, c₁, tr₂, rfl, h₁, h₂⟩ := ih hrest
      exact ⟨_, a, c₁, tr₂, rfl, .tell h₁, h₂⟩
    | ask request next ih =>
      obtain ⟨c₁, answer, c₂, rest, hm, ha, rfl, hrest⟩ := runs_ask.mp h
      obtain ⟨tr₁, a, c₃, tr₂, rfl, h₁, h₂⟩ := ih answer hrest
      exact ⟨_, a, c₃, tr₂, rfl, .ask hm ha h₁, h₂⟩
  · rintro ⟨tr₁, a, c₁, tr₂, rfl, h₁, h₂⟩
    induction h₁ with
    | done a c => exact h₂
    | tell _ ih => exact .tell (ih h₂)
    | ask hm ha _ ih => exact .ask hm ha (ih h₂)

theorem runs_request {request : Request} {answer : request.Answer} :
    Runs i (Session.request request) c tr answer c' ↔
      ∃ c₁, i.moves c c₁ ∧ i.Answers c₁ request answer c' ∧
        tr = [.asked ⟨c₁, request, answer, c'⟩] := by
  rw [Session.request, runs_ask]
  constructor
  · rintro ⟨c₁, x, c₂, rest, hm, ha, rfl, h⟩
    obtain ⟨rfl, rfl, rfl⟩ := runs_done.mp h
    exact ⟨c₁, hm, ha, rfl⟩
  · rintro ⟨c₁, hm, ha, rfl⟩
    exact ⟨c₁, answer, c', [], hm, ha, rfl, .done _ _⟩

theorem runs_call {call : ApiCall} {reply : Except CallFailure call.Reply} :
    Runs i (Session.call call) c tr reply c' ↔
      ∃ c₁, i.moves c c₁ ∧ c₁.Replies i.fails call reply c' ∧
        tr = [.asked (.call c₁ call reply c')] := runs_request

theorem runs_note {note : Note} {u : Unit} :
    Runs i (Session.note note) c tr u c' ↔ tr = [.told note] ∧ c' = c := by
  simp only [Session.note, runs_tell, runs_done]
  constructor
  · rintro ⟨rest, rfl, rfl, -, rfl⟩
    exact ⟨rfl, rfl⟩
  · rintro ⟨rfl, rfl⟩
    exact ⟨[], rfl, rfl, trivial, rfl⟩

theorem Runs.evolves {s : Session α} {a : α} (h : Runs i s c tr a c') : Cluster.Evolves c c' := by
  induction h with
  | done => exact .refl
  | tell _ ih => exact ih
  | ask hm ha _ ih => exact ((i.evolves hm).trans ha.evolves).trans ih

/-- Whatever it is answered, the session makes no requests but those, and its notes are quiet. -/
def Within (allowed : Request → Prop) : Session α → Prop
  | .done _ => True
  | .tell note next => note.Quiet ∧ next.Within allowed
  | .ask request next => allowed request ∧ ∀ answer, (next answer).Within allowed

theorem Within.bind {allowed : Request → Prop} {s : Session α} {f : α → Session β}
    (hs : s.Within allowed) (hf : ∀ a, (f a).Within allowed) : (s >>= f).Within allowed := by
  induction s with
  | done a => exact hf a
  | tell note next ih => exact ⟨hs.1, ih hs.2⟩
  | ask request next ih => exact ⟨hs.1, fun answer => ih answer (hs.2 answer)⟩

theorem Within.mono {allowed allowed' : Request → Prop} {s : Session α} (hs : s.Within allowed)
    (h : ∀ request, allowed request → allowed' request) : s.Within allowed' := by
  induction s with
  | done a => trivial
  | tell note next ih => exact ⟨hs.1, ih hs.2⟩
  | ask request next ih => exact ⟨h request hs.1, fun answer => ih answer (hs.2 answer)⟩

theorem Runs.within {allowed : Request → Prop} {s : Session α} {a : α} (h : Runs i s c tr a c')
    (hs : s.Within allowed) {x : Exchange} (hx : .asked x ∈ tr) : allowed x.request := by
  induction h with
  | done => cases hx
  | tell _ ih =>
    rcases List.mem_cons.mp hx with hx | hx
    · cases hx
    · exact ih hs.2 hx
  | ask _ _ _ ih =>
    rcases List.mem_cons.mp hx with hx | hx
    · cases hx
      exact hs.1
    · exact ih (hs.2 _) hx

theorem Runs.not_elapsed {allowed : Request → Prop} {s : Session α} {a : α} (h : Runs i s c tr a c')
    (hs : s.Within allowed) (milliseconds : Int) : .told (.elapsed milliseconds) ∉ tr := by
  intro hm
  induction h with
  | done => cases hm
  | tell _ ih =>
    rcases List.mem_cons.mp hm with hm | hm
    · cases hm
      exact hs.1
    · exact ih hs.2 hm
  | ask _ _ _ ih =>
    rcases List.mem_cons.mp hm with hm | hm
    · cases hm
    · exact ih (hs.2 _) hm

end Session

namespace Attempt

open Session (Runs)

variable {α β σ : Type} {i : Interference} {c c' : Cluster} {tr : List Event}

@[simp] theorem runs_pure {a : α} {r : Except Fault α} :
    Runs i (pure a : Attempt α).run c tr r c' ↔ tr = [] ∧ r = .ok a ∧ c' = c := Session.runs_done

@[simp] theorem runs_throw {fault : Fault} {r : Except Fault α} :
    Runs i (throw fault : Attempt α).run c tr r c' ↔ tr = [] ∧ r = .error fault ∧ c' = c :=
  Session.runs_done

/-- The first part fails, or it returns and the second part follows. -/
theorem runs_bind {x : Attempt α} {f : α → Attempt β} {r : Except Fault β} :
    Runs i (x >>= f).run c tr r c' ↔
      (∃ fault, r = .error fault ∧ Runs i x.run c tr (.error fault) c') ∨
        ∃ tr₁ a c₁ tr₂, tr = tr₁ ++ tr₂ ∧ Runs i x.run c tr₁ (.ok a) c₁ ∧
          Runs i (f a).run c₁ tr₂ r c' := by
  rw [ExceptT.run_bind, Session.runs_bind]
  constructor
  · rintro ⟨tr₁, a | a, c₁, tr₂, rfl, h₁, h₂⟩
    · obtain ⟨rfl, rfl, rfl⟩ := Session.runs_done.mp h₂
      exact .inl ⟨a, rfl, by simpa using h₁⟩
    · exact .inr ⟨tr₁, a, c₁, tr₂, rfl, h₁, h₂⟩
  · rintro (⟨fault, rfl, h⟩ | ⟨tr₁, a, c₁, tr₂, rfl, h₁, h₂⟩)
    · exact ⟨tr, .error fault, c', [], by simp, h, .done _ _⟩
    · exact ⟨tr₁, .ok a, c₁, tr₂, rfl, h₁, h₂⟩

@[simp] theorem runs_lift {s : Session α} {r : Except Fault α} :
    Runs i (liftM s : Attempt α).run c tr r c' ↔ ∃ a, r = .ok a ∧ Runs i s c tr a c' := by
  change Runs i (s >>= fun a => .done (.ok a)) c tr r c' ↔ _
  rw [Session.runs_bind]
  constructor
  · rintro ⟨tr₁, a, c₁, tr₂, rfl, h₁, h₂⟩
    obtain ⟨rfl, rfl, rfl⟩ := Session.runs_done.mp h₂
    exact ⟨a, rfl, by simpa using h₁⟩
  · rintro ⟨a, rfl, h⟩
    exact ⟨tr, a, c', [], by simp, h, .done _ _⟩

/-- A session as the first part cannot fail. -/
theorem runs_lift_bind {s : Session α} {f : α → Attempt β} {r : Except Fault β} :
    Runs i (liftM s >>= f).run c tr r c' ↔
      ∃ tr₁ a c₁ tr₂, tr = tr₁ ++ tr₂ ∧ Runs i s c tr₁ a c₁ ∧ Runs i (f a).run c₁ tr₂ r c' := by
  rw [runs_bind]
  constructor
  · rintro (⟨fault, rfl, h⟩ | ⟨tr₁, a, c₁, tr₂, rfl, h₁, h₂⟩)
    · obtain ⟨a, ha, -⟩ := runs_lift.mp h
      cases ha
    · obtain ⟨b, hb, hs⟩ := runs_lift.mp h₁
      cases hb
      exact ⟨tr₁, a, c₁, tr₂, rfl, hs, h₂⟩
  · rintro ⟨tr₁, a, c₁, tr₂, rfl, hs, h₂⟩
    exact .inr ⟨tr₁, a, c₁, tr₂, rfl, runs_lift.mpr ⟨a, rfl, hs⟩, h₂⟩

theorem within_bind {allowed : Request → Prop} {x : Attempt α} {f : α → Attempt β}
    (hx : x.run.Within allowed) (hf : ∀ a, (f a).run.Within allowed) : (x >>= f).run.Within allowed := by
  rw [ExceptT.run_bind]
  refine hx.bind fun v => ?_
  cases v with
  | error fault => trivial
  | ok a => exact hf a

theorem within_lift {allowed : Request → Prop} {s : Session α} (hs : s.Within allowed) :
    (liftM s : Attempt α).run.Within allowed := hs.bind fun _ => trivial

theorem within_wallTime {allowed : Request → Prop} (h : allowed .wallTime) : wallTime.run.Within allowed := by
  refine within_bind ⟨h, fun _ => trivial⟩ fun answer => ?_
  cases answer <;> trivial

theorem runs_except {x : Except Fault α} {r : Except Fault α} :
    Runs i (liftM x : Attempt α).run c tr r c' ↔ tr = [] ∧ r = x ∧ c' = c := by
  cases x with
  | error fault => exact runs_throw
  | ok a => exact runs_pure

theorem runs_call {call : ApiCall} {r : Except Fault call.Reply} :
    Runs i (Attempt.call call).run c tr r c' ↔
      ∃ c₁ reply, i.moves c c₁ ∧ c₁.Replies i.fails call reply c' ∧
        tr = [.asked (.call c₁ call reply c')] ∧ r = reply.mapError .call := by
  rw [Attempt.call, runs_lift_bind]
  constructor
  · rintro ⟨tr₁, reply, c₁, tr₂, rfl, hcall, hend⟩
    obtain ⟨c₀, hm, hr, rfl⟩ := Session.runs_call.mp hcall
    cases reply with
    | ok a =>
      obtain ⟨rfl, rfl, rfl⟩ := runs_pure.mp hend
      exact ⟨c₀, .ok a, hm, hr, rfl, rfl⟩
    | error failure =>
      obtain ⟨rfl, rfl, rfl⟩ := runs_throw.mp hend
      exact ⟨c₀, .error failure, hm, hr, rfl, rfl⟩
  · rintro ⟨c₁, reply, hm, hr, rfl, rfl⟩
    refine ⟨_, reply, c', [], rfl, Session.runs_call.mpr ⟨c₁, hm, hr, rfl⟩, ?_⟩
    cases reply with
    | ok a => exact runs_pure.mpr ⟨rfl, rfl, rfl⟩
    | error failure => exact runs_throw.mpr ⟨rfl, rfl, rfl⟩

section State

variable {st : σ}

@[simp] theorem runs_state_pure {a : α} {r : Except Fault (α × σ)} :
    Runs i ((pure a : StateT σ Attempt α).run st).run c tr r c' ↔
      tr = [] ∧ r = .ok (a, st) ∧ c' = c := runs_pure

@[simp] theorem runs_state_throw {fault : Fault} {r : Except Fault (α × σ)} :
    Runs i ((throw fault : StateT σ Attempt α).run st).run c tr r c' ↔
      tr = [] ∧ r = .error fault ∧ c' = c := by
  change Runs i ((throw fault : Attempt α) >>= fun a => pure (a, st)).run c tr r c' ↔ _
  rw [runs_bind]
  simp only [runs_throw, Except.error.injEq, reduceCtorEq]
  constructor
  · rintro (⟨fault', rfl, rfl, rfl, rfl⟩ | ⟨_, _, _, _, _, ⟨_, h, _⟩, _⟩)
    · exact ⟨rfl, rfl, rfl⟩
    · exact h.elim
  · rintro ⟨rfl, rfl, rfl⟩
    exact .inl ⟨fault, rfl, rfl, rfl, rfl⟩

theorem runs_state_get_bind {f : σ → StateT σ Attempt β} {r : Except Fault (β × σ)} :
    Runs i ((get >>= f).run st).run c tr r c' ↔ Runs i ((f st).run st).run c tr r c' := Iff.rfl

@[simp] theorem runs_state_modify {g : σ → σ} {r : Except Fault (PUnit × σ)} :
    Runs i ((modify g : StateT σ Attempt PUnit).run st).run c tr r c' ↔
      tr = [] ∧ r = .ok (⟨⟩, g st) ∧ c' = c := runs_pure

theorem runs_state_bind {x : StateT σ Attempt α} {f : α → StateT σ Attempt β}
    {r : Except Fault (β × σ)} :
    Runs i ((x >>= f).run st).run c tr r c' ↔
      (∃ fault, r = .error fault ∧ Runs i (x.run st).run c tr (.error fault) c') ∨
        ∃ tr₁ a st₁ c₁ tr₂, tr = tr₁ ++ tr₂ ∧ Runs i (x.run st).run c tr₁ (.ok (a, st₁)) c₁ ∧
          Runs i ((f a).run st₁).run c₁ tr₂ r c' := by
  rw [StateT.run_bind, runs_bind]
  simp only [Prod.exists]

theorem within_state_bind {allowed : Request → Prop} {x : StateT σ Attempt α}
    {f : α → StateT σ Attempt β} (hx : (x.run st).run.Within allowed)
    (hf : ∀ a st, ((f a).run st).run.Within allowed) : ((x >>= f).run st).run.Within allowed := by
  rw [StateT.run_bind]
  exact within_bind hx fun p => hf p.1 p.2

theorem within_state_lift {allowed : Request → Prop} {x : Attempt α} (hx : x.run.Within allowed) :
    ((liftM x : StateT σ Attempt α).run st).run.Within allowed := within_bind hx fun _ => trivial

theorem within_state_forget {allowed : Request → Prop} {x : StateT σ Attempt α}
    (hx : (x.run st).run.Within allowed) : (x.run' st).run.Within allowed := by
  change (Prod.fst <$> x.run st).run.Within allowed
  rw [← bind_pure_comp]
  exact within_bind hx fun _ => trivial

theorem runs_state_lift {x : Attempt α} {r : Except Fault (α × σ)} :
    Runs i ((liftM x : StateT σ Attempt α).run st).run c tr r c' ↔
      ∃ v, Runs i x.run c tr v c' ∧ r = v.map (·, st) := by
  change Runs i (x >>= fun a => pure (a, st)).run c tr r c' ↔ _
  rw [runs_bind]
  constructor
  · rintro (⟨fault, rfl, h⟩ | ⟨tr₁, a, c₁, tr₂, rfl, h₁, h₂⟩)
    · exact ⟨.error fault, h, rfl⟩
    · obtain ⟨rfl, rfl, rfl⟩ := runs_pure.mp h₂
      exact ⟨.ok a, by simpa using h₁, rfl⟩
  · rintro ⟨fault | a, h, rfl⟩
    · exact .inl ⟨fault, rfl, h⟩
    · exact .inr ⟨tr, a, c', [], by simp, h, runs_pure.mpr ⟨rfl, rfl, rfl⟩⟩

theorem runs_state_session {s : Session α} {r : Except Fault (α × σ)} :
    Runs i ((liftM s : StateT σ Attempt α).run st).run c tr r c' ↔
      ∃ a, r = .ok (a, st) ∧ Runs i s c tr a c' := by
  change Runs i ((liftM (liftM s : Attempt α) : StateT σ Attempt α).run st).run c tr r c' ↔ _
  rw [runs_state_lift]
  constructor
  · rintro ⟨v, h, rfl⟩
    obtain ⟨a, rfl, hs⟩ := runs_lift.mp h
    exact ⟨a, rfl, hs⟩
  · rintro ⟨a, rfl, h⟩
    exact ⟨.ok a, runs_lift.mpr ⟨a, rfl, h⟩, rfl⟩

/-- Where the first part keeps no state, only what follows it has any. -/
theorem runs_state_lift_bind {x : Attempt α} {f : α → StateT σ Attempt β}
    {r : Except Fault (β × σ)} :
    Runs i ((liftM x >>= f).run st).run c tr r c' ↔
      (∃ fault, r = .error fault ∧ Runs i x.run c tr (.error fault) c') ∨
        ∃ tr₁ a c₁ tr₂, tr = tr₁ ++ tr₂ ∧ Runs i x.run c tr₁ (.ok a) c₁ ∧
          Runs i ((f a).run st).run c₁ tr₂ r c' := by
  rw [runs_state_bind]
  constructor
  · rintro (⟨fault, rfl, h⟩ | ⟨tr₁, a, st₁, c₁, tr₂, rfl, h₁, h₂⟩)
    · obtain ⟨fault' | a, hx, hv⟩ := runs_state_lift.mp h
      · cases hv
        exact .inl ⟨fault, rfl, hx⟩
      · cases hv
    · obtain ⟨fault' | a, hx, hv⟩ := runs_state_lift.mp h₁
      · cases hv
      · cases hv
        exact .inr ⟨tr₁, a, c₁, tr₂, rfl, hx, h₂⟩
  · rintro (⟨fault, rfl, h⟩ | ⟨tr₁, a, c₁, tr₂, rfl, h₁, h₂⟩)
    · exact .inl ⟨fault, rfl, runs_state_lift.mpr ⟨_, h, rfl⟩⟩
    · exact .inr ⟨tr₁, a, st, c₁, tr₂, rfl, runs_state_lift.mpr ⟨_, h₁, rfl⟩, h₂⟩

theorem runs_state_session_bind {s : Session α} {f : α → StateT σ Attempt β}
    {r : Except Fault (β × σ)} :
    Runs i ((liftM s >>= f).run st).run c tr r c' ↔
      ∃ tr₁ a c₁ tr₂, tr = tr₁ ++ tr₂ ∧ Runs i s c tr₁ a c₁ ∧
        Runs i ((f a).run st).run c₁ tr₂ r c' := by
  change Runs i ((liftM (liftM s : Attempt α) >>= f).run st).run c tr r c' ↔ _
  rw [runs_state_lift_bind]
  constructor
  · rintro (⟨fault, rfl, h⟩ | ⟨tr₁, a, c₁, tr₂, rfl, h₁, h₂⟩)
    · obtain ⟨a, ha, -⟩ := runs_lift.mp h
      cases ha
    · obtain ⟨b, hb, hs⟩ := runs_lift.mp h₁
      cases hb
      exact ⟨tr₁, a, c₁, tr₂, rfl, hs, h₂⟩
  · rintro ⟨tr₁, a, c₁, tr₂, rfl, hs, h₂⟩
    exact .inr ⟨tr₁, a, c₁, tr₂, rfl, runs_lift.mpr ⟨a, rfl, hs⟩, h₂⟩

/-- What follows an outcome follows it whether it is a failure or not. -/
theorem runs_state_outcome_bind {x : Attempt α} {f : Except Fault α → StateT σ Attempt β}
    {r : Except Fault (β × σ)} :
    Runs i ((liftM x.outcome >>= f).run st).run c tr r c' ↔
      ∃ tr₁ v c₁ tr₂, tr = tr₁ ++ tr₂ ∧ Runs i x.run c tr₁ v c₁ ∧
        Runs i ((f v).run st).run c₁ tr₂ r c' :=
  runs_state_session_bind (s := x.run)

/-- The last state may be forgotten. -/
theorem runs_state_forget {x : StateT σ Attempt α} {r : Except Fault α} :
    Runs i (x.run' st).run c tr r c' ↔ ∃ v, Runs i (x.run st).run c tr v c' ∧ r = v.map Prod.fst := by
  change Runs i (Prod.fst <$> x.run st).run c tr r c' ↔ _
  rw [← bind_pure_comp, runs_bind]
  constructor
  · rintro (⟨fault, rfl, h⟩ | ⟨tr₁, a, c₁, tr₂, rfl, h₁, h₂⟩)
    · exact ⟨.error fault, h, rfl⟩
    · obtain ⟨rfl, rfl, rfl⟩ := runs_pure.mp h₂
      exact ⟨.ok a, by simpa using h₁, rfl⟩
  · rintro ⟨fault | a, h, rfl⟩
    · exact .inl ⟨fault, rfl, h⟩
    · exact .inr ⟨tr, a, c', [], by simp, h, runs_pure.mpr ⟨rfl, rfl, rfl⟩⟩

end State

end Attempt
end NamespaceOwnership
