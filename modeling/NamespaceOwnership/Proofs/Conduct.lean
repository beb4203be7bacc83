import NamespaceOwnership.Session.Basic

/-!
# A session as one party of several

Several parties work on a common state, and each of them is a session. The `Conduct` of a party says what may happen
meanwhile, between two of its own steps; how its notes and the answers to its requests move the state; what holds at
every moment; and what the party owes to the others with each answer. `Session.Upholds` holds of a party that keeps to
this as long as the others do. A `Stage` is what a party knows between two steps, whatever happens meanwhile, and
`Conduct.Leads` takes a session from one stage to others, so that it is composed as the session is.
-/
namespace NamespaceOwnership

variable {σ α β : Type}

structure Conduct (σ : Type) where
  meanwhile : σ → σ → Prop
  refl : ∀ s, meanwhile s s
  trans : ∀ {s s' s''}, meanwhile s s' → meanwhile s' s'' → meanwhile s s''
  hears : Note → σ → σ → Prop
  answers : (r : Request) → r.Answer → σ → σ → Prop
  holds : σ → Prop
  owes : (r : Request) → r.Answer → σ → σ → Prop

variable {k : Conduct σ} {s s' : σ} {post : α → σ → Prop}

namespace Session

/-- The party does what it owes from that state on, and ends in a state as described. -/
def Upholds (k : Conduct σ) (post : α → σ → Prop) : Session α → σ → Prop
  | .done a, s => ∀ s', k.meanwhile s s' → k.holds s' ∧ post a s'
  | .tell note next, s => ∀ s', k.meanwhile s s' → k.holds s' ∧ ∀ s'', k.hears note s' s'' → next.Upholds k post s''
  | .ask r next, s => ∀ s', k.meanwhile s s' → k.holds s' ∧
      ∀ a s'', k.answers r a s' s'' → k.owes r a s' s'' ∧ (next a).Upholds k post s''

namespace Upholds

variable {x : Session α} {f : α → Session β} {last : β → σ → Prop}

theorem meanwhile (h : x.Upholds k post s) (hm : k.meanwhile s s') : x.Upholds k post s' := by
  cases x with
  | done a => exact fun s'' hm' => h s'' (k.trans hm hm')
  | tell note next => exact fun s'' hm' => h s'' (k.trans hm hm')
  | ask r next => exact fun s'' hm' => h s'' (k.trans hm hm')

theorem holds (h : x.Upholds k post s) : k.holds s := by
  cases x with
  | done a => exact (h s (k.refl s)).1
  | tell note next => exact (h s (k.refl s)).1
  | ask r next => exact (h s (k.refl s)).1

theorem bind (h : x.Upholds k post s) (hf : ∀ a s, post a s → (f a).Upholds k last s) :
    (x >>= f).Upholds k last s := by
  induction x generalizing s with
  | done a => exact hf a s (h s (k.refl s)).2
  | tell note next ih =>
    intro s' hm
    obtain ⟨hholds, hnext⟩ := h s' hm
    exact ⟨hholds, fun s'' hheard => ih (hnext s'' hheard)⟩
  | ask r next ih =>
    intro s' hm
    obtain ⟨hholds, hnext⟩ := h s' hm
    exact ⟨hholds, fun a s'' ha => ⟨(hnext a s'' ha).1, ih a (hnext a s'' ha).2⟩⟩

theorem mono {post' : α → σ → Prop} (h : x.Upholds k post s) (himp : ∀ a s, post a s → post' a s) :
    x.Upholds k post' s := by
  induction x generalizing s with
  | done a => exact fun s' hm => ⟨(h s' hm).1, himp a s' (h s' hm).2⟩
  | tell note next ih => exact fun s' hm => ⟨(h s' hm).1, fun s'' hheard => ih ((h s' hm).2 s'' hheard)⟩
  | ask r next ih =>
    exact fun s' hm => ⟨(h s' hm).1, fun a s'' ha => ⟨((h s' hm).2 a s'' ha).1, ih a ((h s' hm).2 a s'' ha).2⟩⟩

end Upholds

/-- How far a party that begins with a session may have got. -/
inductive Reaches (k : Conduct σ) (x : Session α) (s : σ) : Session α → σ → Prop where
  | start : Reaches k x s x s
  | wait {y : Session α} {s₁ s₂ : σ} (before : Reaches k x s y s₁) (waited : k.meanwhile s₁ s₂) : Reaches k x s y s₂
  | tell {note : Note} {next : Session α} {s₁ s₂ : σ} (before : Reaches k x s (.tell note next) s₁)
      (heard : k.hears note s₁ s₂) : Reaches k x s next s₂
  | ask {r : Request} {next : r.Answer → Session α} {s₁ s₂ : σ} (before : Reaches k x s (.ask r next) s₁)
      (a : r.Answer) (answered : k.answers r a s₁ s₂) : Reaches k x s (next a) s₂

theorem Upholds.reaches {x y : Session α} (h : x.Upholds k post s) (hr : Reaches k x s y s') :
    y.Upholds k post s' := by
  induction hr with
  | start => exact h
  | wait _ waited ih => exact ih.meanwhile waited
  | tell _ heard ih => exact (ih _ (k.refl _)).2 _ heard
  | ask _ a answered ih => exact ((ih _ (k.refl _)).2 a _ answered).2

/-- The party goes through to its end while nothing happens meanwhile. -/
inductive Plays (k : Conduct σ) : Session α → σ → α → σ → Prop where
  | done (a : α) (s : σ) : Plays k (.done a) s a s
  | tell {note : Note} {next : Session α} {s s₁ s' : σ} {a : α} (heard : k.hears note s s₁)
      (rest : Plays k next s₁ a s') : Plays k (.tell note next) s a s'
  | ask {r : Request} {next : r.Answer → Session α} {s s₁ s' : σ} {a : α} (answer : r.Answer)
      (answered : k.answers r answer s s₁) (rest : Plays k (next answer) s₁ a s') : Plays k (.ask r next) s a s'

theorem Plays.bind {x : Session α} {f : α → Session β} {a : α} {b : β} {s s₁ s' : σ} (hx : Plays k x s a s₁)
    (hf : Plays k (f a) s₁ b s') : Plays k (x >>= f) s b s' := by
  induction hx with
  | done a s => exact hf
  | tell heard _ ih => exact .tell heard (ih hf)
  | ask answer answered _ ih => exact .ask answer answered (ih hf)

namespace Reaches

variable {x y : Session α} {s'' : σ}

theorem bind (h : Reaches k x s y s') (f : α → Session β) : Reaches k (x >>= f) s (y >>= f) s' := by
  induction h with
  | start => exact .start
  | wait _ waited ih => exact ih.wait waited
  | tell _ heard ih => exact ih.tell heard
  | ask _ a answered ih => exact ih.ask a answered

/-- A part that is played through is passed. -/
theorem plays {z : Session β} {f : β → Session α} {b : β} (h : Reaches k x s (z >>= f) s')
    (hz : Plays k z s' b s'') : Reaches k x s (f b) s'' := by
  induction hz with
  | done b s => exact h
  | tell heard _ ih => exact ih (h.tell heard)
  | ask answer answered _ ih => exact ih (h.ask answer answered)

end Reaches

end Session

namespace Conduct

/-- What a party knows between two of its steps. -/
structure Stage (k : Conduct σ) where
  knows : σ → Prop
  stays : ∀ {s s'}, knows s → k.meanwhile s s' → knows s'
  holds : ∀ {s}, knows s → k.holds s

instance : CoeFun (Stage k) fun _ => σ → Prop := ⟨Stage.knows⟩

/-- More than a stage, as long as that stays as well. -/
def Stage.also (stage : Stage k) (p : σ → Prop) (hp : ∀ {s s'}, stage s → p s → k.meanwhile s s' → p s') :
    Stage k where
  knows s := stage s ∧ p s
  stays hs hm := ⟨stage.stays hs.1 hm, hp hs.1 hs.2 hm⟩
  holds hs := stage.holds hs.1

/-- From one stage the session comes to another one, which depends on its result. -/
def Leads (k : Conduct σ) (before : Stage k) (x : Session α) (after : α → Stage k) : Prop :=
  ∀ s, before s → x.Upholds k (fun a => after a) s

namespace Leads

variable {before : Stage k} {x : Session α} {f : α → Session β} {mid after : α → Stage k} {last : β → Stage k}

theorem pure {a : α} (h : ∀ s, before s → after a s) : k.Leads before (pure a) after :=
  fun _ hs _ hm => ⟨before.holds (before.stays hs hm), h _ (before.stays hs hm)⟩

theorem note_bind {note : Note} {f : Unit → Session β} {next : Stage k}
    (hnote : ∀ s s', before s → k.hears note s s' → next s') (h : k.Leads next (f ()) last) :
    k.Leads before (Session.note note >>= f) last := by
  intro s hs s' hm
  have hs' := before.stays hs hm
  exact ⟨before.holds hs', fun s'' hheard => h s'' (hnote s' s'' hs' hheard)⟩

theorem request_bind {r : Request} {f : r.Answer → Session β} {next : r.Answer → Stage k}
    (hasked : ∀ a s s', before s → k.answers r a s s' → k.owes r a s s' ∧ next a s')
    (h : ∀ a, k.Leads (next a) (f a) last) : k.Leads before (Session.request r >>= f) last := by
  intro s hs s' hm
  have hs' := before.stays hs hm
  refine ⟨before.holds hs', fun a s'' ha => ?_⟩
  obtain ⟨howed, hnext⟩ := hasked a s' s'' hs' ha
  exact ⟨howed, h a s'' hnext⟩

theorem bind (hx : k.Leads before x mid) (hf : ∀ a, k.Leads (mid a) (f a) last) : k.Leads before (x >>= f) last :=
  fun s hs => (hx s hs).bind fun a s' hs' => hf a s' hs'

theorem mono {before' : Stage k} {after' : α → Stage k} (h : k.Leads before x after)
    (hbefore : ∀ s, before' s → before s) (hafter : ∀ a s, after a s → after' a s) : k.Leads before' x after' :=
  fun s hs => (h s (hbefore s hs)).mono hafter

theorem attempt_note_bind {note : Note} {f : Unit → Attempt β} {next : Stage k} {last : Except Fault β → Stage k}
    (hnote : ∀ s s', before s → k.hears note s s' → next s') (h : k.Leads next (f ()).run last) :
    k.Leads before ((liftM (Session.note note) : Attempt Unit) >>= f).run last := by
  intro s hs s' hm
  have hs' := before.stays hs hm
  exact ⟨before.holds hs', fun s'' hheard => h s'' (hnote s' s'' hs' hheard)⟩

theorem attempt_request_bind {r : Request} {f : r.Answer → Attempt β} {next : r.Answer → Stage k}
    {last : Except Fault β → Stage k}
    (hasked : ∀ a s s', before s → k.answers r a s s' → k.owes r a s s' ∧ next a s')
    (h : ∀ a, k.Leads (next a) (f a).run last) :
    k.Leads before ((liftM (Session.request r) : Attempt r.Answer) >>= f).run last := by
  intro s hs s' hm
  have hs' := before.stays hs hm
  refine ⟨before.holds hs', fun a s'' ha => ?_⟩
  obtain ⟨howed, hnext⟩ := hasked a s' s'' hs' ha
  exact ⟨howed, h a s'' hnext⟩

/-- The second part of an attempt follows if the first one returns. -/
theorem attempt_bind {x : Attempt α} {f : α → Attempt β} {mid : Except Fault α → Stage k}
    {last : Except Fault β → Stage k} (hx : k.Leads before x.run mid) (hf : ∀ a, k.Leads (mid (.ok a)) (f a).run last)
    (hfault : ∀ fault s, mid (.error fault) s → last (.error fault) s) : k.Leads before (x >>= f).run last := by
  rw [ExceptT.run_bind]
  refine hx.bind fun r => ?_
  cases r with
  | error fault => exact .pure (hfault fault)
  | ok a => exact hf a

end Leads

end Conduct
end NamespaceOwnership
