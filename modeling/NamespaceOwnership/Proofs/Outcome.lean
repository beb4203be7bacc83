import NamespaceOwnership.Proofs.Calm
import NamespaceOwnership.Proofs.Control

/-!
# What comes of a session in the calm

In the calm the outcome of a session is that of the cluster on which it starts, up to the versions that are
given out and to the times that are read. `Session.Yields` says what comes of all its runs, or of those that
keep some pace; for attempts and for the controller it says as well that they do not fail. `Session.Idle` says
of a session that it leaves the cluster alone, whether it fails or not. Both are found part by part.
-/
namespace NamespaceOwnership

open Session (Runs)

variable {α β σ : Type}

/-- A condition on the times that are read in a trace. It holds of the parts of what it holds of. -/
structure Pace where
  holds : List Event → Prop
  split : ∀ {tr₁ tr₂}, holds (tr₁ ++ tr₂) → holds tr₁ ∧ holds tr₂

namespace Pace

def any : Pace where
  holds _ := True
  split _ := ⟨trivial, trivial⟩

/-- No time from the limit on is read. -/
def before (limit : Int) : Pace where
  holds tr := ∀ x, .asked x ∈ tr → ∀ time ∈ x.time?, time < limit
  split h := ⟨fun x hx => h x (List.mem_append_left _ hx), fun x hx => h x (List.mem_append_right _ hx)⟩

/-- The deadline does not pass, if there is one. -/
def meeting (deadline : Option Int) : Pace where
  holds tr := ∀ limit ∈ deadline, (before limit).holds tr
  split h := ⟨fun limit hl => ((before limit).split (h limit hl)).1,
    fun limit hl => ((before limit).split (h limit hl)).2⟩

theorem meeting_some {limit : Int} {tr : List Event} :
    (meeting (some limit)).holds tr ↔ (before limit).holds tr := by simp [meeting]

end Pace

namespace Session

/-- Every run in the calm that keeps the pace ends like this. -/
def Yields (pace : Pace) (c : Cluster) (s : Session α) (post : α → Cluster → Prop) : Prop :=
  ∀ tr a c', Runs .calm s c tr a c' → pace.holds tr → post a c'

variable {pace : Pace} {c : Cluster} {s : Session α} {f : α → Session β} {post : α → Cluster → Prop}

theorem Yields.done {a : α} (h : post a c) : Yields pace c (.done a) post := by
  intro tr b c' hrun _
  obtain ⟨-, rfl, rfl⟩ := runs_done.mp hrun
  exact h

theorem Yields.bind {last : β → Cluster → Prop} (hs : s.Yields pace c post)
    (hf : ∀ a c₁, post a c₁ → (f a).Yields pace c₁ last) : (s >>= f).Yields pace c last := by
  intro tr b c' hrun hpace
  obtain ⟨tr₁, a, c₁, tr₂, rfl, h₁, h₂⟩ := runs_bind.mp hrun
  obtain ⟨hpace₁, hpace₂⟩ := pace.split hpace
  exact hf a c₁ (hs _ _ _ h₁ hpace₁) _ _ _ h₂ hpace₂

theorem Yields.mono {post' : α → Cluster → Prop} (hs : s.Yields pace c post)
    (h : ∀ a c', post a c' → post' a c') : s.Yields pace c post' :=
  fun tr a c' hrun hpace => h a c' (hs tr a c' hrun hpace)

/-- Without requests nothing changes. -/
theorem Within.yields (hs : s.Within fun _ => False) : s.Yields pace c fun _ c' => c' = c :=
  fun _ _ _ hrun _ => (hrun.onlyNotes hs).2

theorem yields_note (note : Note) : (Session.note note).Yields pace c fun _ c' => c' = c := by
  intro tr u c' hrun _
  exact (runs_note.mp hrun).2

/-- In the calm only patches change anything. -/
theorem yields_request {request : Request} (h : request.isPatch = false) :
    (Session.request request).Yields pace c fun _ c' => c' = c := by
  intro tr answer c' hrun _
  obtain ⟨c₁, hm, hanswer, -⟩ := runs_request.mp hrun
  obtain rfl : c = c₁ := hm
  refine hanswer.eq_of_not_patched ?_
  cases request with
  | api call =>
    cases call with
    | patchNamespace name patch => cases h
    | _ => rfl
  | _ => rfl

/-- Whatever happens, the session leaves the cluster alone, and sends no patch of a namespace. -/
def Idle (c : Cluster) (s : Session α) : Prop :=
  ∀ tr a c', Runs .calm s c tr a c' → c' = c ∧ ∀ x, .asked x ∈ tr → x.request.isPatch = false

theorem Idle.done {a : α} : Idle c (.done a) := by
  intro tr b c' hrun
  obtain ⟨rfl, -, rfl⟩ := runs_done.mp hrun
  exact ⟨rfl, by simp⟩

/-- What follows an idle session need only be idle after what it yields. -/
theorem Idle.bind (hs : s.Idle c) (hy : s.Yields .any c post) (hf : ∀ a, post a c → (f a).Idle c) :
    (s >>= f).Idle c := by
  intro tr b c' hrun
  obtain ⟨tr₁, a, c₁, tr₂, rfl, h₁, h₂⟩ := runs_bind.mp hrun
  have hpost := hy _ _ _ h₁ trivial
  obtain ⟨rfl, hasked₁⟩ := hs _ _ _ h₁
  obtain ⟨rfl, hasked₂⟩ := hf a hpost _ _ _ h₂
  refine ⟨rfl, fun x hx => ?_⟩
  rcases List.mem_append.mp hx with hx | hx
  · exact hasked₁ x hx
  · exact hasked₂ x hx

theorem Idle.then (hs : s.Idle c) (hf : ∀ a, (f a).Idle c) : (s >>= f).Idle c := by
  have hy : s.Yields .any c fun _ _ => True := fun _ _ _ _ _ => trivial
  exact hs.bind hy fun a _ => hf a

theorem idle_request {request : Request} (h : request.isPatch = false) :
    (Session.request request).Idle c := by
  intro tr answer c' hrun
  have hy : (Session.request request).Yields .any c fun _ c' => c' = c := yields_request h
  have hsame : c' = c := hy _ _ _ hrun trivial
  obtain ⟨c₁, -, -, rfl⟩ := runs_request.mp hrun
  exact ⟨hsame, by simpa using h⟩

theorem idle_note (note : Note) : (Session.note note).Idle c := by
  intro tr u c' hrun
  obtain ⟨rfl, rfl⟩ := runs_note.mp hrun
  exact ⟨rfl, by simp⟩

/-- A session without patches is idle. -/
theorem Within.idle {allowed : Request → Prop} (hs : s.Within allowed)
    (h : ∀ request, allowed request → request.isPatch = false) : s.Idle c := by
  induction s with
  | done a => exact .done
  | tell note next ih => exact Idle.then (idle_note note) fun _ => ih hs.2
  | ask request next ih =>
    exact Idle.then (idle_request (h request hs.1)) fun answer => ih answer (hs.2 answer)

end Session

namespace Attempt

variable {pace : Pace} {c : Cluster} {x : Attempt α} {f : α → Attempt β} {post : α → Cluster → Prop}

/-- Every run in the calm that keeps the pace returns, and ends like this. -/
def Yields (pace : Pace) (c : Cluster) (x : Attempt α) (post : α → Cluster → Prop) : Prop :=
  x.run.Yields pace c fun r c' => ∃ a, r = .ok a ∧ post a c'

theorem Yields.pure {a : α} (h : post a c) : Yields pace c (pure a : Attempt α) post :=
  Session.Yields.done ⟨a, rfl, h⟩

theorem Yields.bind {last : β → Cluster → Prop} (hx : Yields pace c x post)
    (hf : ∀ a c₁, post a c₁ → Yields pace c₁ (f a) last) : Yields pace c (x >>= f) last := by
  rw [Yields, ExceptT.run_bind]
  refine Session.Yields.bind hx fun r c₁ hr => ?_
  obtain ⟨a, rfl, ha⟩ := hr
  exact hf a c₁ ha

theorem Yields.mono {post' : α → Cluster → Prop} (hx : Yields pace c x post)
    (h : ∀ a c', post a c' → post' a c') : Yields pace c x post' := by
  refine Session.Yields.mono hx fun r c' hr => ?_
  obtain ⟨a, rfl, ha⟩ := hr
  exact ⟨a, rfl, h a c' ha⟩

theorem yields_session {s : Session α} (hs : s.Yields pace c post) :
    Yields pace c (liftM s : Attempt α) post := by
  intro tr r c' hrun hpace
  obtain ⟨a, rfl, h⟩ := runs_lift.mp hrun
  exact ⟨a, rfl, hs _ _ _ h hpace⟩

theorem yields_except {r : Except Fault α} {a : α} (h : r = .ok a) :
    Yields pace c (liftM r : Attempt α) fun b c' => b = a ∧ c' = c := by
  intro tr v c' hrun _
  obtain ⟨-, rfl, rfl⟩ := runs_except.mp hrun
  exact ⟨a, h, rfl, rfl⟩

theorem yields_state_bind {st : σ} {x : StateT σ Attempt α} {f : α → StateT σ Attempt β}
    {mid : α × σ → Cluster → Prop} {last : β × σ → Cluster → Prop} (hx : Yields pace c (x.run st) mid)
    (hf : ∀ a st₁ c₁, mid (a, st₁) c₁ → Yields pace c₁ ((f a).run st₁) last) :
    Yields pace c ((x >>= f).run st) last := by
  rw [StateT.run_bind]
  exact hx.bind fun p c₁ hp => hf p.1 p.2 c₁ hp

theorem yields_state_lift {st : σ} (hx : Yields pace c x post) :
    Yields pace c ((liftM x : StateT σ Attempt α).run st) fun p c' => post p.1 c' ∧ p.2 = st := by
  intro tr r c' hrun hpace
  obtain ⟨v, h, rfl⟩ := runs_state_lift.mp hrun
  obtain ⟨a, rfl, ha⟩ := hx _ _ _ h hpace
  exact ⟨(a, st), rfl, ha, rfl⟩

theorem yields_state_session {st : σ} {s : Session α} (hs : s.Yields pace c post) :
    Yields pace c ((liftM s : StateT σ Attempt α).run st) fun p c' => post p.1 c' ∧ p.2 = st :=
  yields_state_lift (yields_session hs)

theorem yields_state_forget {st : σ} {x : StateT σ Attempt α} {post : α × σ → Cluster → Prop}
    (hx : Yields pace c (x.run st) post) : Yields pace c (x.run' st) fun a c' => ∃ st', post (a, st') c' := by
  intro tr r c' hrun hpace
  obtain ⟨v, h, rfl⟩ := runs_state_forget.mp hrun
  obtain ⟨p, rfl, hp⟩ := hx _ _ _ h hpace
  exact ⟨p.1, rfl, p.2, hp⟩

/-- Every run in the calm that returns ends like this. -/
def Leaves (c : Cluster) (x : Attempt α) (post : α → Cluster → Prop) : Prop :=
  ∀ tr a c', Runs .calm x.run c tr (.ok a) c' → post a c'

/-- What follows an idle attempt need only be idle after what it returns. -/
theorem idle_bind {post : α → Prop} (hx : x.run.Idle c)
    (hpost : ∀ tr a c', Runs .calm x.run c tr (.ok a) c' → post a) (hf : ∀ a, post a → (f a).run.Idle c) :
    (x >>= f).run.Idle c := by
  rw [ExceptT.run_bind]
  have hy : x.run.Yields .any c fun r _ => ∀ a, r = .ok a → post a := by
    rintro tr r c' hrun - a rfl
    exact hpost tr a c' hrun
  refine hx.bind hy fun r hr => ?_
  cases r with
  | error fault => exact .done
  | ok a => exact hf a (hr a rfl)

theorem idle_then (hx : x.run.Idle c) (hf : ∀ a, (f a).run.Idle c) : (x >>= f).run.Idle c :=
  idle_bind hx (fun _ _ _ _ => trivial) fun a _ => hf a

theorem idle_session {s : Session α} (hs : s.Idle c) : (liftM s : Attempt α).run.Idle c :=
  hs.then fun _ => .done

theorem idle_call {call : ApiCall} (h : (Request.api call).isPatch = false) :
    (Attempt.call call).run.Idle c := by
  refine idle_then (idle_session (Session.idle_request h)) fun reply => ?_
  cases reply <;> exact .done

theorem idle_state_bind {st : σ} {x : StateT σ Attempt α} {f : α → StateT σ Attempt β}
    (hx : (x.run st).run.Idle c) (hf : ∀ a st₁, ((f a).run st₁).run.Idle c) :
    ((x >>= f).run st).run.Idle c := by
  rw [StateT.run_bind]
  exact idle_then hx fun p => hf p.1 p.2

theorem idle_state_lift {st : σ} (hx : x.run.Idle c) :
    ((liftM x : StateT σ Attempt α).run st).run.Idle c := by
  intro tr r c' hrun
  obtain ⟨v, h, -⟩ := runs_state_lift.mp hrun
  exact hx _ _ _ h

theorem idle_state_forget {st : σ} {x : StateT σ Attempt α} (hx : (x.run st).run.Idle c) :
    (x.run' st).run.Idle c := by
  intro tr r c' hrun
  obtain ⟨v, h, -⟩ := runs_state_forget.mp hrun
  exact hx _ _ _ h

end Attempt

namespace Control

variable {pace : Pace} {c : Cluster} {b : Books} {x : Control α} {f : α → Control β}
  {post : α → Books → Cluster → Prop}

/-- Every run in the calm that keeps the pace returns, and ends like this. -/
def Yields (pace : Pace) (c : Cluster) (b : Books) (x : Control α) (post : α → Books → Cluster → Prop) :
    Prop :=
  (x.run.run b).Yields pace c fun p c' => ∃ a, p.1 = .ok a ∧ post a p.2 c'

theorem Yields.pure {a : α} (h : post a b c) : Yields pace c b (pure a : Control α) post :=
  Session.Yields.done ⟨a, rfl, h⟩

theorem Yields.bind {last : β → Books → Cluster → Prop} (hx : Yields pace c b x post)
    (hf : ∀ a b₁ c₁, post a b₁ c₁ → Yields pace c₁ b₁ (f a) last) : Yields pace c b (x >>= f) last := by
  rw [Yields, run_bind]
  refine Session.Yields.bind hx fun p c₁ hp => ?_
  obtain ⟨r, b₁⟩ := p
  obtain ⟨a, rfl, ha⟩ := hp
  exact hf a b₁ c₁ ha

theorem Yields.mono {post' : α → Books → Cluster → Prop} (hx : Yields pace c b x post)
    (h : ∀ a b' c', post a b' c' → post' a b' c') : Yields pace c b x post' := by
  refine Session.Yields.mono hx fun p c' hp => ?_
  obtain ⟨a, ha, hpost⟩ := hp
  exact ⟨a, ha, h a _ c' hpost⟩

theorem yields_session {post : α → Cluster → Prop} {s : Session α} (hs : s.Yields pace c post) :
    Yields pace c b (liftM s : Control α) fun a b' c' => post a c' ∧ b' = b := by
  rw [Yields, run_session]
  exact hs.bind fun a c₁ ha => .done ⟨a, rfl, ha, rfl⟩

theorem yields_attempt {post : α → Cluster → Prop} {a : Attempt α} (ha : a.Yields pace c post) :
    Yields pace c b (Control.attempt a) fun v b' c' => post v c' ∧ b' = b := by
  rw [Yields, run_attempt]
  refine Session.Yields.bind ha fun r c₁ hr => ?_
  obtain ⟨v, rfl, hv⟩ := hr
  exact .done ⟨v, rfl, hv, rfl⟩

theorem yields_modify (g : Books → Books) :
    Yields pace c b (modify g : Control PUnit) fun _ b' c' => b' = g b ∧ c' = c :=
  Session.Yields.done ⟨⟨⟩, rfl, rfl, rfl⟩

/-- Whatever the books are and whatever happens, the cluster is left alone. -/
def Idle (c : Cluster) (x : Control α) : Prop := ∀ b, (x.run.run b).Idle c

theorem Idle.pure {a : α} : Idle c (pure a) := fun _ => .done

/-- What follows something idle need only be idle after what it returns. -/
theorem Idle.bind {post : α → Prop} (hx : Idle c x)
    (hpost : ∀ b tr a b' c', Runs .calm (x.run.run b) c tr (.ok a, b') c' → post a)
    (hf : ∀ a, post a → Idle c (f a)) : Idle c (x >>= f) := by
  intro b
  rw [run_bind]
  have hy : (x.run.run b).Yields .any c fun p _ => ∀ a, p.1 = .ok a → post a := by
    rintro tr ⟨r, b'⟩ c' hrun - a rfl
    exact hpost b tr a b' c' hrun
  refine (hx b).bind hy fun p hp => ?_
  obtain ⟨r, b₁⟩ := p
  cases r with
  | error fault => exact .done
  | ok a => exact hf a (hp a rfl) b₁

theorem Idle.then (hx : Idle c x) (hf : ∀ a, Idle c (f a)) : Idle c (x >>= f) :=
  hx.bind (fun _ _ _ _ _ _ => trivial) fun a _ => hf a

theorem Within.idle (hx : Within Request.Sparing x) : Idle c x := fun b => (hx b).idle fun _ h => h

theorem idle_attempt {a : Attempt α} (ha : a.run.Idle c) : Idle c (Control.attempt a) :=
  fun _ => ha.then fun _ => .done

end Control
end NamespaceOwnership
