import NamespaceOwnership.Proofs.Control

/-!
# Courses of a session

`Session.Course` holds of everything that may happen in a session when any request may be answered with anything at
all, so of more than what may happen among other parties in a cluster. `Session.Obeys` says of a session that each
of its requests is lawful after what happened before; it is found part by part, and a part may count on what happened
in the parts before it.
-/
namespace NamespaceOwnership

variable {α β σ : Type}

/-- A note that is left, or a request with what is answered to it. -/
inductive Act where
  | told (note : Note)
  | asked (request : Request) (answer : request.Answer)

def Event.act : Event → Act
  | .told note => .told note
  | .asked x => .asked x.request x.answer

namespace Session

inductive Course : Session α → List Act → α → Prop where
  | done (a : α) : Course (.done a) [] a
  | tell {note : Note} {next : Session α} {acts : List Act} {a : α} (rest : Course next acts a) :
      Course (.tell note next) (.told note :: acts) a
  | ask {request : Request} {next : request.Answer → Session α} {answer : request.Answer} {acts : List Act} {a : α}
      (rest : Course (next answer) acts a) : Course (.ask request next) (.asked request answer :: acts) a

variable {s : Session α} {f : α → Session β} {acts : List Act} {a : α} {b : β}

/-- A run among other parties is a course. -/
theorem Runs.course {i : Interference} {c c' : Cluster} {tr : List Event} (h : Runs i s c tr a c') :
    Course s (tr.map Event.act) a := by
  induction h with
  | done a => exact .done a
  | tell _ ih => exact .tell ih
  | ask _ _ _ ih => exact .ask ih

@[simp] theorem course_done {a' : α} : Course (.done a') acts a ↔ acts = [] ∧ a = a' := by
  constructor
  · rintro ⟨⟩
    exact ⟨rfl, rfl⟩
  · rintro ⟨rfl, rfl⟩
    exact .done _

theorem course_tell {note : Note} {next : Session α} :
    Course (.tell note next) acts a ↔ ∃ rest, acts = .told note :: rest ∧ Course next rest a := by
  constructor
  · rintro ⟨⟩
    exact ⟨_, rfl, ‹_›⟩
  · rintro ⟨rest, rfl, h⟩
    exact .tell h

theorem course_ask {request : Request} {next : request.Answer → Session α} : Course (.ask request next) acts a ↔
    ∃ answer rest, acts = .asked request answer :: rest ∧ Course (next answer) rest a := by
  constructor
  · rintro ⟨⟩
    exact ⟨_, _, rfl, ‹_›⟩
  · rintro ⟨answer, rest, rfl, h⟩
    exact .ask h

/-- A course of one session after another is a course of the first and then one of the second. -/
theorem course_bind : Course (s >>= f) acts b ↔
    ∃ first a rest, acts = first ++ rest ∧ Course s first a ∧ Course (f a) rest b := by
  constructor
  · intro h
    induction s generalizing acts with
    | done a => exact ⟨[], a, acts, rfl, .done a, h⟩
    | tell note next ih =>
      obtain ⟨later, rfl, hlater⟩ := course_tell.mp h
      obtain ⟨first, a, rest, rfl, h₁, h₂⟩ := ih hlater
      exact ⟨_, a, rest, rfl, .tell h₁, h₂⟩
    | ask request next ih =>
      obtain ⟨answer, later, rfl, hlater⟩ := course_ask.mp h
      obtain ⟨first, a, rest, rfl, h₁, h₂⟩ := ih answer hlater
      exact ⟨_, a, rest, rfl, .ask h₁, h₂⟩
  · rintro ⟨first, a, rest, rfl, h₁, h₂⟩
    induction h₁ with
    | done => exact h₂
    | tell _ ih => exact .tell (ih h₂)
    | ask _ ih => exact .ask (ih h₂)

/-- What follows a session counts only for the results that it can have. -/
theorem bind_congr {g : α → Session β} (h : ∀ acts a, Course s acts a → f a = g a) : s >>= f = s >>= g := by
  induction s with
  | done a => exact h [] a (.done a)
  | tell note next ih => rw [tell_bind, tell_bind, ih fun acts a hnext => h _ a (.tell hnext)]
  | ask request next ih =>
    rw [ask_bind, ask_bind]
    congr 1
    funext answer
    exact ih answer fun acts a hnext => h _ a (.ask hnext)

theorem course_note {note : Note} {u : Unit} : Course (Session.note note) acts u ↔ acts = [.told note] := by
  simp [Session.note, course_tell]

theorem course_request {request : Request} {answer : request.Answer} :
    Course (Session.request request) acts answer ↔ acts = [.asked request answer] := by
  rw [Session.request, course_ask]
  constructor
  · rintro ⟨answer', rest, rfl, h⟩
    obtain ⟨rfl, rfl⟩ := course_done.mp h
    rfl
  · rintro rfl
    exact ⟨answer, [], rfl, .done answer⟩

theorem Course.within {allowed : Request → Prop} (h : Course s acts a) (hs : s.Within allowed) {request : Request}
    {answer : request.Answer} (hmem : .asked request answer ∈ acts) : allowed request := by
  induction h with
  | done => cases hmem
  | tell _ ih =>
    rcases List.mem_cons.mp hmem with hmem | hmem
    · cases hmem
    · exact ih hs.2 hmem
  | ask _ ih =>
    rcases List.mem_cons.mp hmem with hmem | hmem
    · cases hmem
      exact hs.1
    · exact ih (hs.2 _) hmem

theorem Course.quiet {allowed : Request → Prop} (h : Course s acts a) (hs : s.Within allowed) {note : Note}
    (hmem : .told note ∈ acts) : note.Quiet := by
  induction h with
  | done => cases hmem
  | tell _ ih =>
    rcases List.mem_cons.mp hmem with hmem | hmem
    · cases hmem
      exact hs.1
    · exact ih hs.2 hmem
  | ask _ ih =>
    rcases List.mem_cons.mp hmem with hmem | hmem
    · cases hmem
    · exact ih (hs.2 _) hmem

/-- The course in which each request is answered in its own way every time, and its result. -/
def answeredBy (answer : (request : Request) → request.Answer) : Session α → List Act × α
  | .done a => ([], a)
  | .tell note next => (.told note :: (next.answeredBy answer).1, (next.answeredBy answer).2)
  | .ask request next =>
    let rest := (next (answer request)).answeredBy answer
    (.asked request (answer request) :: rest.1, rest.2)

theorem course_answeredBy (answer : (request : Request) → request.Answer) (s : Session α) :
    Course s (s.answeredBy answer).1 (s.answeredBy answer).2 := by
  induction s with
  | done a => exact .done a
  | tell note next ih => exact .tell ih
  | ask request next ih => exact .ask (ih _)

theorem answer_of_mem_answeredBy {answer : (request : Request) → request.Answer} {request : Request}
    {given : request.Answer} (h : .asked request given ∈ (s.answeredBy answer).1) : given = answer request := by
  induction s with
  | done a => cases h
  | tell note next ih =>
    rcases List.mem_cons.mp h with h | h
    · cases h
    · exact ih h
  | ask request next ih =>
    rcases List.mem_cons.mp h with h | h
    · cases h
      rfl
    · exact ih _ h

/-- The API refuses every call, and it is always the same time. -/
def refusing : (request : Request) → request.Answer
  | .api _ => .error (.refused (some 500) none)
  | .nextEvent => .ended
  | .clock | .jitter => (0 : Int)
  | .wallTime => .ok 0
  | .stopRequested => true
  | .closeWatch | .pause _ | .withdrawStop | .startedLeading | .stoppedLeading => ()

/-- Whatever it is answered, each request of the session is lawful after all that happened before. -/
def Obeys (law : List Act → Request → Prop) : List Act → Session α → Prop
  | _, .done _ => True
  | past, .tell note next => next.Obeys law (past ++ [.told note])
  | past, .ask request next =>
    law past request ∧ ∀ answer, (next answer).Obeys law (past ++ [.asked request answer])

variable {law : List Act → Request → Prop} {past : List Act}

theorem Obeys.bind (hs : s.Obeys law past) (hf : ∀ acts a, Course s acts a → (f a).Obeys law (past ++ acts)) :
    (s >>= f).Obeys law past := by
  induction s generalizing past with
  | done a => simpa using hf [] a (.done a)
  | tell note next ih =>
    refine ih hs fun acts a hnext => ?_
    simpa using hf _ a (.tell hnext)
  | ask request next ih =>
    refine ⟨hs.1, fun answer => ih answer (hs.2 answer) fun acts a hnext => ?_⟩
    simpa using hf _ a (.ask hnext)

theorem Within.obeys {allowed : Request → Prop} (hs : s.Within allowed)
    (h : ∀ past request, allowed request → law past request) : s.Obeys law past := by
  induction s generalizing past with
  | done => trivial
  | tell note next ih => exact ih hs.2
  | ask request next ih => exact ⟨h past request hs.1, fun answer => ih answer (hs.2 answer)⟩

/-- In a course every request is lawful where it is made. -/
theorem Obeys.of_mem {pre post : List Act} {request : Request} {answer : request.Answer} (hs : s.Obeys law past)
    (h : Course s (pre ++ .asked request answer :: post) a) : law (past ++ pre) request := by
  generalize hacts : pre ++ .asked request answer :: post = acts at h
  induction h generalizing pre past with
  | done => simp at hacts
  | tell _ ih =>
    cases pre with
    | nil => cases hacts
    | cons first pre =>
      cases hacts
      simpa using ih hs rfl
  | ask _ ih =>
    cases pre with
    | nil =>
      cases hacts
      simpa using hs.1
    | cons first pre =>
      cases hacts
      simpa using ih (hs.2 _) rfl

end Session

open Session (Course)

variable {acts past : List Act} {law : List Act → Request → Prop}

namespace Attempt

variable {x : Attempt α} {f : α → Attempt β}

@[simp] theorem course_pure {a : α} {r : Except Fault α} :
    Course (pure a : Attempt α).run acts r ↔ acts = [] ∧ r = .ok a := Session.course_done

@[simp] theorem course_throw {fault : Fault} {r : Except Fault α} :
    Course (throw fault : Attempt α).run acts r ↔ acts = [] ∧ r = .error fault := Session.course_done

theorem course_except {v r : Except Fault α} : Course (liftM v : Attempt α).run acts r ↔ acts = [] ∧ r = v := by
  cases v with
  | error fault => exact course_throw
  | ok a => exact course_pure

/-- The first part fails, or it returns and the second part follows. -/
theorem course_bind {r : Except Fault β} : Course (x >>= f).run acts r ↔
    (∃ fault, r = .error fault ∧ Course x.run acts (.error fault)) ∨
      ∃ first a rest, acts = first ++ rest ∧ Course x.run first (.ok a) ∧ Course (f a).run rest r := by
  rw [ExceptT.run_bind, Session.course_bind]
  constructor
  · rintro ⟨first, fault | a, rest, rfl, h₁, h₂⟩
    · obtain ⟨rfl, rfl⟩ := Session.course_done.mp h₂
      exact .inl ⟨fault, rfl, by simpa using h₁⟩
    · exact .inr ⟨first, a, rest, rfl, h₁, h₂⟩
  · rintro (⟨fault, rfl, h⟩ | ⟨first, a, rest, rfl, h₁, h₂⟩)
    · exact ⟨acts, .error fault, [], by simp, h, .done _⟩
    · exact ⟨first, .ok a, rest, rfl, h₁, h₂⟩

@[simp] theorem course_lift {s : Session α} {r : Except Fault α} :
    Course (liftM s : Attempt α).run acts r ↔ ∃ a, r = .ok a ∧ Course s acts a := by
  change Course (s >>= fun a => .done (.ok a)) acts r ↔ _
  rw [Session.course_bind]
  constructor
  · rintro ⟨first, a, rest, rfl, h, hend⟩
    obtain ⟨rfl, rfl⟩ := Session.course_done.mp hend
    exact ⟨a, rfl, by simpa using h⟩
  · rintro ⟨a, rfl, h⟩
    exact ⟨acts, a, [], by simp, h, .done _⟩

/-- A session as the first part cannot fail. -/
theorem course_lift_bind {s : Session α} {r : Except Fault β} : Course (liftM s >>= f).run acts r ↔
    ∃ first a rest, acts = first ++ rest ∧ Course s first a ∧ Course (f a).run rest r := by
  have hrun : (liftM s >>= f).run = s >>= fun a => (f a).run := by
    rw [ExceptT.run_bind]
    exact bind_assoc _ _ _
  rw [hrun, Session.course_bind]

theorem course_call {call : ApiCall} {r : Except Fault call.Reply} :
    Course (Attempt.call call).run acts r ↔
      ∃ reply, acts = [.asked (.api call) reply] ∧ r = reply.mapError .call := by
  rw [Attempt.call, course_lift_bind]
  constructor
  · rintro ⟨first, reply, rest, rfl, hcall, hend⟩
    obtain rfl := Session.course_request.mp hcall
    cases reply with
    | ok a =>
      obtain ⟨rfl, rfl⟩ := course_pure.mp hend
      exact ⟨.ok a, rfl, rfl⟩
    | error failure =>
      obtain ⟨rfl, rfl⟩ := course_throw.mp hend
      exact ⟨.error failure, rfl, rfl⟩
  · rintro ⟨reply, rfl, rfl⟩
    refine ⟨_, reply, [], (List.append_nil _).symm, Session.course_request.mpr rfl, ?_⟩
    cases reply with
    | ok a => exact .done _
    | error failure => exact .done _

theorem obeys_bind (hx : x.run.Obeys law past)
    (hf : ∀ acts a, Course x.run acts (.ok a) → (f a).run.Obeys law (past ++ acts)) :
    (x >>= f).run.Obeys law past := by
  rw [ExceptT.run_bind]
  refine hx.bind fun acts r h => ?_
  cases r with
  | error fault => trivial
  | ok a => exact hf acts a h

section State

variable {st : σ}

@[simp] theorem course_state_pure {a : α} {r : Except Fault (α × σ)} :
    Course ((pure a : StateT σ Attempt α).run st).run acts r ↔ acts = [] ∧ r = .ok (a, st) := course_pure

theorem course_state_bind {x : StateT σ Attempt α} {f : α → StateT σ Attempt β} {r : Except Fault (β × σ)} :
    Course ((x >>= f).run st).run acts r ↔
      (∃ fault, r = .error fault ∧ Course (x.run st).run acts (.error fault)) ∨
        ∃ first a st₁ rest, acts = first ++ rest ∧ Course (x.run st).run first (.ok (a, st₁)) ∧
          Course ((f a).run st₁).run rest r := by
  rw [StateT.run_bind, course_bind]
  simp only [Prod.exists]

@[simp] theorem course_state_throw {fault : Fault} {r : Except Fault (α × σ)} :
    Course ((throw fault : StateT σ Attempt α).run st).run acts r ↔ acts = [] ∧ r = .error fault := by
  change Course ((throw fault : Attempt α) >>= fun a => pure (a, st)).run acts r ↔ _
  rw [course_bind]
  constructor
  · rintro (⟨fault', rfl, h⟩ | ⟨_, _, _, _, h, _⟩)
    · obtain ⟨rfl, hr⟩ := course_throw.mp h
      cases hr
      exact ⟨rfl, rfl⟩
    · cases (course_throw.mp h).2
  · rintro ⟨rfl, rfl⟩
    exact .inl ⟨fault, rfl, course_throw.mpr ⟨rfl, rfl⟩⟩

private theorem run_lift_bind {x : Attempt α} {f : α → StateT σ Attempt β} :
    (liftM x >>= f).run st = x >>= fun a => (f a).run st := by
  rw [StateT.run_bind]
  exact bind_assoc x _ _

/-- Where the first part keeps no state, only what follows it has any. -/
theorem course_state_lift_bind {x : Attempt α} {f : α → StateT σ Attempt β} {r : Except Fault (β × σ)} :
    Course ((liftM x >>= f).run st).run acts r ↔
      (∃ fault, r = .error fault ∧ Course x.run acts (.error fault)) ∨
        ∃ first a rest, acts = first ++ rest ∧ Course x.run first (.ok a) ∧ Course ((f a).run st).run rest r := by
  rw [run_lift_bind, course_bind]

theorem course_state_session_bind {s : Session α} {f : α → StateT σ Attempt β} {r : Except Fault (β × σ)} :
    Course ((liftM s >>= f).run st).run acts r ↔
      ∃ first a rest, acts = first ++ rest ∧ Course s first a ∧ Course ((f a).run st).run rest r := by
  change Course ((liftM (liftM s : Attempt α) >>= f).run st).run acts r ↔ _
  rw [course_state_lift_bind]
  constructor
  · rintro (⟨fault, rfl, h⟩ | ⟨first, a, rest, rfl, h₁, h₂⟩)
    · obtain ⟨a, ha, -⟩ := course_lift.mp h
      cases ha
    · obtain ⟨b, hb, hs⟩ := course_lift.mp h₁
      cases hb
      exact ⟨first, a, rest, rfl, hs, h₂⟩
  · rintro ⟨first, a, rest, rfl, hs, h₂⟩
    exact .inr ⟨first, a, rest, rfl, course_lift.mpr ⟨a, rfl, hs⟩, h₂⟩

/-- What follows an outcome follows it whether it is a failure or not. -/
theorem course_state_outcome_bind {x : Attempt α} {f : Except Fault α → StateT σ Attempt β}
    {r : Except Fault (β × σ)} : Course ((liftM x.outcome >>= f).run st).run acts r ↔
      ∃ first v rest, acts = first ++ rest ∧ Course x.run first v ∧ Course ((f v).run st).run rest r :=
  course_state_session_bind (s := x.run)

/-- The last state may be forgotten. -/
theorem course_state_forget {x : StateT σ Attempt α} {r : Except Fault α} :
    Course (x.run' st).run acts r ↔ ∃ v, Course (x.run st).run acts v ∧ r = v.map Prod.fst := by
  change Course (Prod.fst <$> x.run st).run acts r ↔ _
  rw [← bind_pure_comp, course_bind]
  constructor
  · rintro (⟨fault, rfl, h⟩ | ⟨first, p, rest, rfl, h₁, h₂⟩)
    · exact ⟨_, h, rfl⟩
    · obtain ⟨rfl, rfl⟩ := course_pure.mp h₂
      exact ⟨.ok p, by simpa using h₁, rfl⟩
  · rintro ⟨fault | p, h, rfl⟩
    · exact .inl ⟨fault, rfl, h⟩
    · exact .inr ⟨acts, p, [], by simp, h, .done _⟩

theorem obeys_state_bind {x : StateT σ Attempt α} {f : α → StateT σ Attempt β} (hx : (x.run st).run.Obeys law past)
    (hf : ∀ acts a st₁, Course (x.run st).run acts (.ok (a, st₁)) → ((f a).run st₁).run.Obeys law (past ++ acts)) :
    ((x >>= f).run st).run.Obeys law past := by
  rw [StateT.run_bind]
  exact obeys_bind hx fun acts p h => hf acts p.1 p.2 h

/-- Where the first part keeps no state, what follows it has the state from before. -/
theorem obeys_state_lift_bind {x : Attempt α} {f : α → StateT σ Attempt β} (hx : x.run.Obeys law past)
    (hf : ∀ acts a, Course x.run acts (.ok a) → ((f a).run st).run.Obeys law (past ++ acts)) :
    ((liftM x >>= f).run st).run.Obeys law past := by
  rw [run_lift_bind]
  exact obeys_bind hx hf

/-- What follows an outcome follows it whether it is a failure or not. -/
theorem obeys_state_outcome_bind {x : Attempt α} {f : Except Fault α → StateT σ Attempt β}
    (hx : x.run.Obeys law past)
    (hf : ∀ acts r, Course x.run acts r → ((f r).run st).run.Obeys law (past ++ acts)) :
    ((liftM x.outcome >>= f).run st).run.Obeys law past := by
  have hrun : x.outcome.run = x.run >>= fun r => .done (.ok r) := rfl
  refine obeys_state_lift_bind (hrun ▸ hx.bind fun _ _ _ => trivial) fun acts r h => ?_
  obtain ⟨first, r', rest, rfl, h₁, h₂⟩ := Session.course_bind.mp (hrun ▸ h)
  obtain ⟨rfl, hr⟩ := Session.course_done.mp h₂
  cases hr
  simpa using hf first r h₁

/-- The last state may be forgotten. -/
theorem obeys_state_forget {x : StateT σ Attempt α} (hx : (x.run st).run.Obeys law past) :
    (x.run' st).run.Obeys law past := by
  change (Prod.fst <$> x.run st).run.Obeys law past
  rw [← bind_pure_comp]
  exact obeys_bind hx fun _ _ _ => trivial

end State

end Attempt

namespace Control

variable {x : Control α} {f : α → Control β} {b b' : Books}

theorem course_bind {r : Except Fault β} : Course ((x >>= f).run.run b) acts (r, b') ↔
    (∃ fault, r = .error fault ∧ Course (x.run.run b) acts (.error fault, b')) ∨
      ∃ first a b₁ rest, acts = first ++ rest ∧ Course (x.run.run b) first (.ok a, b₁) ∧
        Course ((f a).run.run b₁) rest (r, b') := by
  rw [run_bind, Session.course_bind]
  constructor
  · rintro ⟨first, ⟨fault | a, b₁⟩, rest, rfl, h₁, h₂⟩
    · obtain ⟨rfl, hr⟩ := Session.course_done.mp h₂
      cases hr
      exact .inl ⟨fault, rfl, by simpa using h₁⟩
    · exact .inr ⟨first, a, b₁, rest, rfl, h₁, h₂⟩
  · rintro (⟨fault, rfl, h⟩ | ⟨first, a, b₁, rest, rfl, h₁, h₂⟩)
    · exact ⟨acts, (.error fault, b'), [], by simp, h, .done _⟩
    · exact ⟨first, (.ok a, b₁), rest, rfl, h₁, h₂⟩

/-- What is returned may be thrown away. -/
theorem course_discard {a : α} (h : Course (x.run.run b) acts (.ok a, b')) :
    Course ((discard x).run.run b) acts (.ok ⟨⟩, b') :=
  course_bind.mpr (.inr ⟨acts, a, b', [], (List.append_nil acts).symm, h, .done _⟩)

theorem course_of_discard {r : Except Fault PUnit} (h : Course ((discard x).run.run b) acts (r, b')) :
    ∃ r', Course (x.run.run b) acts (r', b') := by
  rcases course_bind.mp h with ⟨fault, -, hx⟩ | ⟨_, a, _, _, rfl, hx, hpure⟩
  · exact ⟨_, hx⟩
  · obtain ⟨rfl, hr⟩ := Session.course_done.mp hpure
    cases hr
    exact ⟨.ok a, by simpa using hx⟩

theorem course_session_bind {s : Session α} {p : Except Fault β × Books} :
    Course ((liftM s >>= f : Control β).run.run b) acts p ↔
      ∃ first a rest, acts = first ++ rest ∧ Course s first a ∧ Course ((f a).run.run b) rest p := by
  rw [run_session_bind, Session.course_bind]

/-- What follows the outcome of something follows it whether it fails or not. -/
theorem course_outcome_bind {f : Except Fault α → Control β} {p : Except Fault β × Books} :
    Course ((x.outcome >>= f).run.run b) acts p ↔
      ∃ first r b₁ rest, acts = first ++ rest ∧ Course (x.run.run b) first (r, b₁) ∧
        Course ((f r).run.run b₁) rest p := by
  rw [run_outcome_bind, Session.course_bind]
  simp only [Prod.exists]

theorem course_attempt {a : Attempt α} {r : Except Fault α} :
    Course ((Control.attempt a).run.run b) acts (r, b') ↔ Course a.run acts r ∧ b' = b := by
  rw [run_attempt, Session.course_bind]
  constructor
  · rintro ⟨first, r₁, rest, rfl, h, hend⟩
    obtain ⟨rfl, hr⟩ := Session.course_done.mp hend
    cases hr
    exact ⟨by simpa using h, rfl⟩
  · rintro ⟨h, rfl⟩
    exact ⟨acts, r, [], by simp, h, .done _⟩

/-- A relation between the books before some acts and after them. It holds over two stretches of a course if it holds
over each. -/
structure Composes (R : Books → List Act → Books → Prop) : Prop where
  refl : ∀ b, R b [] b
  trans : ∀ {b b₁ b' acts acts'}, R b acts b₁ → R b₁ acts' b' → R b (acts ++ acts') b'

/-- The relation holds over each course. -/
def Sustains (R : Books → List Act → Books → Prop) (x : Control α) : Prop :=
  ∀ b acts r b', Course (x.run.run b) acts (r, b') → R b acts b'

namespace Sustains

variable {R : Books → List Act → Books → Prop}

theorem pure (hR : Composes R) {a : α} : Sustains R (pure a : Control α) := by
  intro b acts r b' h
  obtain ⟨rfl, hr⟩ := Session.course_done.mp h
  cases hr
  exact hR.refl b

theorem throw (hR : Composes R) {fault : Fault} : Sustains R (throw fault : Control α) := by
  intro b acts r b' h
  obtain ⟨rfl, hr⟩ := Session.course_done.mp h
  cases hr
  exact hR.refl b

theorem get (hR : Composes R) : Sustains R (get : Control Books) := by
  intro b acts r b' h
  obtain ⟨rfl, hr⟩ := Session.course_done.mp h
  cases hr
  exact hR.refl b

theorem modify {g : Books → Books} (hg : ∀ b, R b [] (g b)) : Sustains R (modify g : Control PUnit) := by
  intro b acts r b' h
  obtain ⟨rfl, hr⟩ := Session.course_done.mp h
  cases hr
  exact hg b

theorem bind (hR : Composes R) (hx : Sustains R x) (hf : ∀ a, Sustains R (f a)) : Sustains R (x >>= f) := by
  intro b acts r b' h
  rcases course_bind.mp h with ⟨fault, -, hfirst⟩ | ⟨first, a, b₁, rest, rfl, h₁, h₂⟩
  · exact hx _ _ _ _ hfirst
  · exact hR.trans (hx _ _ _ _ h₁) (hf a _ _ _ _ h₂)

theorem outcome_bind (hR : Composes R) {f : Except Fault α → Control β} (hx : Sustains R x)
    (hf : ∀ r, Sustains R (f r)) : Sustains R (x.outcome >>= f) := by
  intro b acts r b' h
  obtain ⟨first, v, b₁, rest, rfl, h₁, h₂⟩ := course_outcome_bind.mp h
  exact hR.trans (hx _ _ _ _ h₁) (hf v _ _ _ _ h₂)

/-- What is done apart from the books. -/
theorem session {s : Session α} (hs : ∀ b acts a, Course s acts a → R b acts b) :
    Sustains R (liftM s : Control α) := by
  intro b acts r b' h
  rw [run_session, Session.course_bind] at h
  obtain ⟨first, a, rest, rfl, hfirst, hend⟩ := h
  obtain ⟨rfl, hr⟩ := Session.course_done.mp hend
  cases hr
  simpa using hs b first a hfirst

theorem note {n : Note} (hn : ∀ b, R b [.told n] b) : Sustains R (liftM (Session.note n) : Control Unit) :=
  session fun b _ _ h => Session.course_note.mp h ▸ hn b

theorem request {q : Request} (hq : ∀ b answer, R b [.asked q answer] b) :
    Sustains R (liftM (Session.request q) : Control q.Answer) :=
  session fun b _ answer h => Session.course_request.mp h ▸ hq b answer

theorem attempt {a : Attempt α} (ha : ∀ b acts r, Course a.run acts r → R b acts b) :
    Sustains R (Control.attempt a) := by
  intro b acts r b' h
  obtain ⟨hcourse, rfl⟩ := course_attempt.mp h
  exact ha b' acts r hcourse

theorem mono {R' : Books → List Act → Books → Prop} (hx : Sustains R x) (h : ∀ b acts b', R b acts b' → R' b acts b') :
    Sustains R' x := fun b acts r b' hcourse => h _ _ _ (hx b acts r b' hcourse)

end Sustains

/-- Whatever happens, no other requests are made. -/
def Asks (allowed : Request → Prop) (x : Control α) : Prop :=
  Sustains (fun _ acts _ => ∀ request answer, .asked request answer ∈ acts → allowed request) x

namespace Asks

variable {allowed : Request → Prop}

theorem composes (allowed : Request → Prop) :
    Composes fun _ acts _ => ∀ request answer, .asked request answer ∈ acts → allowed request where
  refl _ _ _ hmem := nomatch hmem
  trans h h' request answer hmem := (List.mem_append.mp hmem).elim (h request answer) (h' request answer)

theorem pure {a : α} : Asks allowed (pure a : Control α) := Sustains.pure (composes allowed)

theorem throw {fault : Fault} : Asks allowed (throw fault : Control α) := Sustains.throw (composes allowed)

theorem get : Asks allowed (get : Control Books) := Sustains.get (composes allowed)

theorem modify (g : Books → Books) : Asks allowed (modify g : Control PUnit) :=
  Sustains.modify fun _ _ _ hmem => nomatch hmem

theorem note (n : Note) : Asks allowed (liftM (Session.note n) : Control Unit) :=
  Sustains.note fun _ _ _ hmem => nomatch List.mem_singleton.mp hmem

theorem request {q : Request} (hq : allowed q) : Asks allowed (liftM (Session.request q) : Control q.Answer) :=
  Sustains.request fun _ _ _ _ hmem => by
    cases List.mem_singleton.mp hmem
    exact hq

theorem attempt {a : Attempt α} (ha : a.run.Within allowed) : Asks allowed (Control.attempt a) :=
  Sustains.attempt fun _ _ _ hcourse _ _ hmem => hcourse.within ha hmem

theorem bind (hx : Asks allowed x) (hf : ∀ a, Asks allowed (f a)) : Asks allowed (x >>= f) :=
  Sustains.bind (composes allowed) hx hf

theorem mono {allowed' : Request → Prop} (hx : Asks allowed x) (h : ∀ request, allowed request → allowed' request) :
    Asks allowed' x :=
  Sustains.mono hx fun _ _ _ hasked request answer hmem => h request (hasked request answer hmem)

end Asks

end Control
end NamespaceOwnership
