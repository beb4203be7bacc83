import NamespaceOwnership.Proofs.Patch

/-!
# Two sessions at once

In a `Race` two sessions take turns on one cluster, a note or a request at a time and in any order. What one of
them sees is the beginning of a run of it among other parties (`Race.Traced.left_begins`), and every such
beginning is that of a whole run (`Session.Begins.extends`).
-/
namespace NamespaceOwnership

open Session (Runs)

variable {α β : Type}

/-- A session leaves a note, or asks and goes on with the answer. -/
inductive Session.Step (i : Interference) : Session α → Cluster → Event → Session α → Cluster → Prop where
  | tell (note : Note) (next : Session α) (c : Cluster) : Step i (.tell note next) c (.told note) next c
  | ask {request : Request} {next : request.Answer → Session α} {c c' : Cluster}
      {answer : request.Answer} (answered : i.Answers c request answer c') :
      Step i (.ask request next) c (.asked ⟨c, request, answer, c'⟩) (next answer) c'

theorem Session.Step.evolves {i : Interference} {s s' : Session α} {c c' : Cluster} {e : Event}
    (h : Session.Step i s c e s' c') : Cluster.Evolves c c' := by
  cases h with
  | tell => exact .refl
  | ask answered => exact answered.evolves

theorem Session.Step.exchange {i : Interference} {s s' : Session α} {c c' : Cluster} {x : Exchange}
    (h : Session.Step i s c (.asked x) s' c') :
    x.before = c ∧ x.after = c' ∧ i.Answers c x.request x.answer c' := by
  cases h with
  | ask answered => exact ⟨rfl, rfl, answered⟩

theorem Session.Step.told {i : Interference} {s s' : Session α} {c c' : Cluster} {note : Note}
    (h : Session.Step i s c (.told note) s' c') : c' = c := by
  cases h with
  | tell => rfl

structure Race (α β : Type) where
  left : Session α
  right : Session β
  cluster : Cluster

namespace Race

def swap (r : Race α β) : Race β α := ⟨r.right, r.left, r.cluster⟩

inductive Step (i : Interference) (r : Race α β) : Race α β → Prop where
  | left {e : Event} {s : Session α} {c : Cluster} (h : Session.Step i r.left r.cluster e s c) :
      Step i r ⟨s, r.right, c⟩
  | right {e : Event} {s : Session β} {c : Cluster} (h : Session.Step i r.right r.cluster e s c) :
      Step i r ⟨r.left, s, c⟩

/-- Any number of turns. -/
abbrev Steps (i : Interference) : Race α β → Race α β → Prop := Relation.ReflTransGen (Step i)

/-- Any number of turns, with what happened on the left and on the right. -/
inductive Traced (i : Interference) (start : Race α β) : List Event → List Event → Race α β → Prop where
  | start : Traced i start [] [] start
  | left {tr₁ tr₂ : List Event} {r : Race α β} {e : Event} {s : Session α} {c : Cluster}
      (h : Traced i start tr₁ tr₂ r) (hs : Session.Step i r.left r.cluster e s c) :
      Traced i start (tr₁ ++ [e]) tr₂ ⟨s, r.right, c⟩
  | right {tr₁ tr₂ : List Event} {r : Race α β} {e : Event} {s : Session β} {c : Cluster}
      (h : Traced i start tr₁ tr₂ r) (hs : Session.Step i r.right r.cluster e s c) :
      Traced i start tr₁ (tr₂ ++ [e]) ⟨r.left, s, c⟩

variable {i : Interference} {start r : Race α β} {tr₁ tr₂ : List Event}

theorem Steps.traced (h : Steps i start r) : ∃ tr₁ tr₂, Traced i start tr₁ tr₂ r := by
  induction h with
  | refl => exact ⟨[], [], .start⟩
  | tail _ hstep ih =>
    obtain ⟨tr₁, tr₂, ht⟩ := ih
    cases hstep with
    | left hs => exact ⟨_, _, ht.left hs⟩
    | right hs => exact ⟨_, _, ht.right hs⟩

theorem Traced.steps (h : Traced i start tr₁ tr₂ r) : Steps i start r := by
  induction h with
  | start => exact .refl
  | left _ hs ih => exact .tail ih (.left hs)
  | right _ hs ih => exact .tail ih (.right hs)

theorem Traced.swap (h : Traced i start tr₁ tr₂ r) : Traced i start.swap tr₂ tr₁ r.swap := by
  induction h with
  | start => exact .start
  | left _ hs ih => exact .right ih hs
  | right _ hs ih => exact .left ih hs

/-- What happened on the left was the turn of a race that went on from there. -/
theorem Traced.turn (h : Traced i start tr₁ tr₂ r) {x : Exchange} (hx : .asked x ∈ tr₁) :
    ∃ r', Steps i start r' ∧ r'.cluster = x.after ∧ Steps i r' r := by
  induction h with
  | start => cases hx
  | @left tr₁ tr₂ r e s c ht hs ih =>
    rcases List.mem_append.mp hx with hx | hx
    · obtain ⟨r', h₁, hc, h₂⟩ := ih hx
      exact ⟨r', h₁, hc, h₂.tail (.left hs)⟩
    · obtain rfl : .asked x = e := by simpa using hx
      exact ⟨_, ht.steps.tail (.left hs), hs.exchange.2.1.symm, .refl⟩
  | right ht hs ih =>
    obtain ⟨r', h₁, hc, h₂⟩ := ih hx
    exact ⟨r', h₁, hc, h₂.tail (.right hs)⟩

end Race

namespace Session

variable {i : Interference} {s s' : Session α} {c c' : Cluster} {tr tr' : List Event} {a : α}

/-- The beginning of a run among other parties, who may have moved last. -/
inductive Begins (i : Interference) (s : Session α) (c : Cluster) :
    List Event → Session α → Cluster → Prop where
  | start : Begins i s c [] s c
  | moved {tr : List Event} {s' : Session α} {c' c'' : Cluster} (h : Begins i s c tr s' c')
      (hm : i.moves c' c'') : Begins i s c tr s' c''
  | step {tr : List Event} {s' s'' : Session α} {c' c'' : Cluster} {e : Event}
      (h : Begins i s c tr s' c') (hs : Step i s' c' e s'' c'') : Begins i s c (tr ++ [e]) s'' c''

/-- Others may as well have moved before a run of honest interference. -/
theorem Runs.of_moved {c₀ : Cluster} (h : Runs .honest s c tr a c') (hm : Cluster.Evolves c₀ c) :
    ∃ c'', Runs .honest s c₀ tr a c'' := by
  induction h with
  | done a c => exact ⟨c₀, .done a c₀⟩
  | tell _ ih =>
    obtain ⟨c'', h⟩ := ih hm
    exact ⟨c'', .tell h⟩
  | ask moved answered rest => exact ⟨_, .ask (hm.trans moved) answered rest⟩

/-- A run that has begun may end as any run from there. -/
theorem Begins.runs (h : Begins .honest s c tr s' c') :
    ∀ {tr' a c''}, Runs .honest s' c' tr' a c'' → ∃ c₃, Runs .honest s c (tr ++ tr') a c₃ := by
  induction h with
  | start => exact fun h => ⟨_, h⟩
  | moved _ hm ih =>
    intro tr' a c'' hrun
    obtain ⟨c₃, h⟩ := hrun.of_moved hm
    exact ih h
  | @step tr s' s'' c' c'' e _ hs ih =>
    intro tr' a c₂ hrun
    rw [List.append_assoc]
    cases hs with
    | tell note next c => exact ih (.tell hrun)
    | ask answered => exact ih (.ask .refl answered hrun)

/-- A session can be played to its end if every request can be answered, and by answers of some kind if there is
always one of that kind. -/
theorem exists_runs {good : Cluster → Prop} (kind : Exchange → Prop) (hstay : ∀ c, i.moves c c)
    (hanswer : ∀ c request, good c →
      ∃ answer c', i.Answers c request answer c' ∧ good c' ∧ kind ⟨c, request, answer, c'⟩)
    (s : Session α) (hc : good c) :
    ∃ tr a c', Runs i s c tr a c' ∧ good c' ∧ ∀ x, .asked x ∈ tr → kind x := by
  induction s generalizing c with
  | done a => exact ⟨[], a, c, .done a c, hc, by simp⟩
  | tell note next ih =>
    obtain ⟨tr, a, c', h, hc', hkind⟩ := ih hc
    exact ⟨_, a, c', .tell h, hc', by simpa using hkind⟩
  | ask request next ih =>
    obtain ⟨answer, c₁, hanswered, hc₁, hfirst⟩ := hanswer c request hc
    obtain ⟨tr, a, c', h, hc', hkind⟩ := ih answer hc₁
    exact ⟨_, a, c', .ask (hstay c) hanswered h, hc', by simpa using ⟨hfirst, hkind⟩⟩

/-- Honest interference may always answer, if need be with a failure. -/
theorem honest_answers (c : Cluster) (request : Request) :
    ∃ answer c', Interference.honest.Answers c request answer c' := by
  cases request with
  | api call => exact ⟨.error (.refused none none), c, ⟨fun h => by simp [CallFailure.status?] at h, rfl⟩⟩
  | nextEvent => exact ⟨.ended, c, ⟨trivial, rfl⟩⟩
  | closeWatch => exact ⟨(), c, ⟨trivial, rfl⟩⟩
  | clock => exact ⟨(0 : Int), c, ⟨trivial, rfl⟩⟩
  | wallTime => exact ⟨.ok 0, c, ⟨trivial, rfl⟩⟩
  | pause milliseconds => exact ⟨(), c, ⟨trivial, rfl⟩⟩
  | jitter => exact ⟨(0 : Int), c, ⟨trivial, rfl⟩⟩
  | stopRequested => exact ⟨false, c, ⟨trivial, rfl⟩⟩
  | withdrawStop => exact ⟨(), c, ⟨trivial, rfl⟩⟩
  | startedLeading => exact ⟨(), c, ⟨trivial, rfl⟩⟩
  | stoppedLeading => exact ⟨(), c, ⟨trivial, rfl⟩⟩

/-- What a session has done so far is the beginning of what it does in a whole run. -/
theorem Begins.extends (h : Begins .honest s c tr s' c') :
    ∃ tr' a c'', Runs .honest s c (tr ++ tr') a c'' := by
  have hstay : ∀ c, Interference.honest.moves c c := fun _ => .refl
  have hanswer : ∀ c request, True →
      ∃ answer c', Interference.honest.Answers c request answer c' ∧ True ∧ True := by
    intro c request _
    obtain ⟨answer, c', h⟩ := honest_answers c request
    exact ⟨answer, c', h, trivial, trivial⟩
  obtain ⟨tr', a, c₁, hrun, -, -⟩ := exists_runs (fun _ => True) hstay hanswer s' trivial
  obtain ⟨c₂, h⟩ := h.runs hrun
  exact ⟨tr', a, c₂, h⟩

end Session

/-- What goes on in the calm may go on in any honest surroundings. -/
theorem Interference.Answers.honest {c c' : Cluster} {request : Request} {answer : request.Answer}
    (h : Interference.calm.Answers c request answer c') :
    Interference.honest.Answers c request answer c' := by
  refine h.mono (fun c call failure hf h404 => ?_) fun _ _ _ => trivial
  cases call with
  | readNamespace name => exact hf.1
  | patchNamespace name patch =>
    rcases hf with ⟨hnone, -⟩ | ⟨_, _, _, _, _, h409⟩
    · exact hnone
    · rw [h404] at h409
      cases h409
  | getDynaKube name =>
    cases name with
    | text text => exact hf.1 text rfl
    | _ => trivial
  | _ => trivial

theorem Session.Step.honest {s s' : Session α} {c c' : Cluster} {e : Event}
    (h : Session.Step .calm s c e s' c') : Session.Step .honest s c e s' c' := by
  cases h with
  | tell => exact .tell _ _ _
  | ask answered => exact .ask answered.honest

/-- In a calm race either party is all that disturbs the other. -/
theorem Race.Traced.left_begins {start r : Race α β} {tr₁ tr₂ : List Event}
    (h : Traced .calm start tr₁ tr₂ r) :
    Session.Begins .honest start.left start.cluster tr₁ r.left r.cluster := by
  induction h with
  | start => exact .start
  | left _ hs ih => exact .step ih hs.honest
  | right _ hs ih => exact .moved ih hs.evolves

end NamespaceOwnership
