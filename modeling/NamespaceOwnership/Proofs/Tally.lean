import NamespaceOwnership.Proofs.Course
import NamespaceOwnership.Proofs.Patch

/-!
# Counting what was done

The counters of the metrics are raised by notes, and what they count are patches of namespaces: those that set the
label of a feature, those that drop it, and those that were outdated. `Reckoned` says of a trace that both numbers are
the same. They are over two stretches of a trace if they are over each, and where nothing is counted and nothing
patched there is nothing to reckon (`Session.Discreet`).
-/
namespace NamespaceOwnership

open Session (Runs Course)

variable {α β σ : Type} {i : Interference} {c c' : Cluster} {tr tr' : List Event} {acts acts' : List Act}

def Act.counts (counter : Counter) : Act → Bool
  | .told (.count other) => other = counter
  | _ => false

/-- How often a counter was raised. -/
def counted (counter : Counter) (acts : List Act) : Nat := acts.countP (Act.counts counter)

@[simp] theorem counted_nil (counter : Counter) : counted counter [] = 0 := rfl

@[simp] theorem counted_append (counter : Counter) : counted counter (acts ++ acts') =
    counted counter acts + counted counter acts' := List.countP_append

@[simp] theorem counted_told (counter : Counter) (note : Note) : counted counter (.told note :: acts) =
    (if note = .count counter then 1 else 0) + counted counter acts := by
  rw [counted, List.countP_cons, Nat.add_comm]
  congr 1
  cases note <;> simp [Act.counts]

@[simp] theorem counted_asked (counter : Counter) (request : Request) (answer : request.Answer) :
    counted counter (.asked request answer :: acts) = counted counter acts := by
  rw [counted, List.countP_cons_of_neg (by simp [Act.counts])]
  rfl

/-- The label of a feature, empty or not. -/
def Cluster.label? (c : Cluster) (space : String) (f : Feature) : Option String :=
  (c.spaces space).bind fun s => TextMap.get? s.labels f.labelKey

namespace Exchange

/-- What a patch that was accepted found in the place of a label, and what it left there. -/
def relabels? (x : Exchange) (f : Feature) : Option (Option String × Option String) :=
  x.patch?.map fun p => (x.before.label? p.1 f, x.after.label? p.1 f)

/-- A patch that was accepted changed the label of a feature to another one. -/
def sets (f : Feature) (x : Exchange) : Bool :=
  match x.relabels? f with
  | some (old, some new) => old != some new
  | _ => false

/-- A patch that was accepted deleted the label of a feature. -/
def drops (f : Feature) (x : Exchange) : Bool :=
  match x.relabels? f with
  | some (some _, none) => true
  | _ => false

end Exchange

/-- A patch of a namespace was answered with status 409. -/
def Event.outdated : Event → Bool
  | .asked ⟨_, .api (.patchNamespace _ _), .error failure, _⟩ => failure.status? = some 409
  | _ => false

/-- Any note but those that count what was done to namespaces, how operations ended, and how long they took. -/
def Note.Uncounted : Note → Prop
  | .count (.claims _ _) | .count (.releases _ _) | .count .versionConflictRetries
  | .count (.reconciles _) | .elapsed _ => False
  | _ => True

/-- No claim and no release is counted, and every outdated patch is. -/
structure Unclaimed (tr : List Event) : Prop where
  claims : ∀ f outcome, counted (.claims f outcome) (tr.map Event.act) = 0
  releases : ∀ f reason, counted (.releases f reason) (tr.map Event.act) = 0
  retries : counted .versionConflictRetries (tr.map Event.act) = tr.countP Event.outdated

theorem Unclaimed.nil : Unclaimed [] := ⟨fun _ _ => rfl, fun _ _ => rfl, rfl⟩

theorem Unclaimed.append (h : Unclaimed tr) (h' : Unclaimed tr') : Unclaimed (tr ++ tr') where
  claims f outcome := by rw [List.map_append, counted_append, h.claims, h'.claims]
  releases f reason := by rw [List.map_append, counted_append, h.releases, h'.releases]
  retries := by rw [List.map_append, counted_append, List.countP_append, h.retries, h'.retries]

/-- What is counted is what was done: labels that were set, labels that were dropped, and outdated patches. -/
structure Reckoned (tr : List Event) : Prop where
  claims : ∀ f, counted (.claims f .accepted) (tr.map Event.act) = (accepted tr).countP (Exchange.sets f)
  releases : ∀ f, counted (.releases f .stale) (tr.map Event.act) + counted (.releases f .unmapped) (tr.map Event.act) =
    (accepted tr).countP (Exchange.drops f)
  retries : counted .versionConflictRetries (tr.map Event.act) = tr.countP Event.outdated

theorem Unclaimed.reckoned (h : Unclaimed tr) (hnone : accepted tr = []) : Reckoned tr where
  claims f := by rw [h.claims, hnone, List.countP_nil]
  releases f := by rw [h.releases, h.releases, hnone, List.countP_nil]
  retries := h.retries

theorem Reckoned.append (h : Reckoned tr) (h' : Reckoned tr') : Reckoned (tr ++ tr') where
  claims f := by rw [List.map_append, counted_append, accepted_append, List.countP_append, h.claims, h'.claims]
  releases f := by
    rw [accepted_append, List.countP_append, ← h.releases, ← h'.releases, List.map_append, counted_append,
      counted_append]
    omega
  retries := by rw [List.map_append, counted_append, List.countP_append, h.retries, h'.retries]

/-- There are notes alone, which count so many claims and releases, and no patch that is outdated. -/
structure Tallies (gains losses : Feature → Nat) (tr : List Event) : Prop where
  notes : OnlyNotes tr
  claims : ∀ f, counted (.claims f .accepted) (tr.map Event.act) = gains f
  releases : ∀ f, counted (.releases f .stale) (tr.map Event.act) + counted (.releases f .unmapped) (tr.map Event.act) =
    losses f
  retries : counted .versionConflictRetries (tr.map Event.act) = 0

theorem OnlyNotes.outdated_eq (h : OnlyNotes tr) : tr.countP Event.outdated = 0 := by
  refine List.countP_eq_zero.mpr fun e he hout => ?_
  obtain ⟨note, rfl⟩ := h e he
  cases hout

/-- What was done first is counted after that. -/
theorem Unclaimed.tallied {gains losses : Feature → Nat} (h : Unclaimed tr) (h' : Tallies gains losses tr')
    (hgains : ∀ f, gains f = (accepted tr).countP (Exchange.sets f))
    (hlosses : ∀ f, losses f = (accepted tr).countP (Exchange.drops f)) : Reckoned (tr ++ tr') where
  claims f := by
    rw [List.map_append, counted_append, accepted_append, h'.notes.accepted_eq, List.append_nil, h.claims, h'.claims,
      hgains, Nat.zero_add]
  releases f := by
    have hlost := h'.releases f
    rw [List.map_append, counted_append, counted_append, accepted_append, h'.notes.accepted_eq, List.append_nil,
      h.releases, h.releases, ← hlosses]
    omega
  retries := by
    rw [List.map_append, counted_append, List.countP_append, h.retries, h'.retries, h'.notes.outdated_eq]

/-- Nothing is counted, and no patch is sent. -/
structure Uneventful (acts : List Act) : Prop where
  uncounted : ∀ note, .told note ∈ acts → note.Uncounted
  sparing : ∀ request answer, .asked request answer ∈ acts → request.Sparing

namespace Uneventful

theorem nil : Uneventful [] where
  uncounted _ hmem := nomatch hmem
  sparing _ _ hmem := nomatch hmem

theorem append (h : Uneventful acts) (h' : Uneventful acts') : Uneventful (acts ++ acts') where
  uncounted note hmem := (List.mem_append.mp hmem).elim (h.uncounted note) (h'.uncounted note)
  sparing request answer hmem := (List.mem_append.mp hmem).elim (h.sparing request answer) (h'.sparing request answer)

theorem told {note : Note} (h : note.Uncounted) : Uneventful [.told note] where
  uncounted other hmem := by
    cases List.mem_singleton.mp hmem
    exact h
  sparing request answer hmem := nomatch List.mem_singleton.mp hmem

theorem asked {request : Request} {answer : request.Answer} (h : request.Sparing) :
    Uneventful [.asked request answer] where
  uncounted note hmem := nomatch List.mem_singleton.mp hmem
  sparing other given hmem := by
    cases List.mem_singleton.mp hmem
    exact h

theorem counted_eq_zero (h : Uneventful acts) {counter : Counter} (hc : ¬(Note.count counter).Uncounted) :
    counted counter acts = 0 := by
  refine List.countP_eq_zero.mpr fun act hact hcounts => hc ?_
  unfold Act.counts at hcounts
  split at hcounts
  · cases of_decide_eq_true hcounts
    exact h.uncounted _ hact
  · cases hcounts

theorem accepted_eq (h : Uneventful (tr.map Event.act)) : accepted tr = [] :=
  accepted_eq_nil fun x hx => h.sparing x.request x.answer (List.mem_map.mpr ⟨_, hx, rfl⟩)

theorem unclaimed (h : Uneventful (tr.map Event.act)) : Unclaimed tr where
  claims f outcome := h.counted_eq_zero id
  releases f reason := h.counted_eq_zero id
  retries := by
    rw [h.counted_eq_zero id]
    refine (List.countP_eq_zero.mpr fun e he hout => ?_).symm
    unfold Event.outdated at hout
    split at hout
    · cases h.sparing _ _ (List.mem_map.mpr ⟨_, he, rfl⟩)
    · cases hout

theorem reckoned (h : Uneventful (tr.map Event.act)) : Reckoned tr := h.unclaimed.reckoned h.accepted_eq

end Uneventful

/-- Whatever it is answered, the session counts nothing and sends no patch. -/
def Session.Discreet : Session α → Prop
  | .done _ => True
  | .tell note next => note.Uncounted ∧ next.Discreet
  | .ask request next => request.Sparing ∧ ∀ answer, (next answer).Discreet

theorem Session.Discreet.bind {s : Session α} {f : α → Session β} (hs : s.Discreet) (hf : ∀ a, (f a).Discreet) :
    (s >>= f).Discreet := by
  induction s with
  | done a => exact hf a
  | tell note next ih => exact ⟨hs.1, ih hs.2⟩
  | ask request next ih => exact ⟨hs.1, fun answer => ih answer (hs.2 answer)⟩

theorem Session.Course.uneventful {s : Session α} {a : α} (h : Course s acts a) (hs : s.Discreet) :
    Uneventful acts := by
  induction h with
  | done => exact .nil
  | tell _ ih => exact (Uneventful.told hs.1).append (ih hs.2)
  | ask _ ih => exact (Uneventful.asked hs.1).append (ih (hs.2 _))

theorem Session.Runs.uneventful {s : Session α} {a : α} (h : Runs i s c tr a c') (hs : s.Discreet) :
    Uneventful (tr.map Event.act) := h.course.uneventful hs

/-- A property of traces that two stretches have together if each of them has it, and that says nothing where nothing
is counted and no patch is sent. -/
structure Additive (Q : List Event → Prop) : Prop where
  uneventful : ∀ {tr}, Uneventful (tr.map Event.act) → Q tr
  append : ∀ {tr tr'}, Q tr → Q tr' → Q (tr ++ tr')

theorem Reckoned.additive : Additive Reckoned := ⟨Uneventful.reckoned, Reckoned.append⟩

/-- However it goes, the trace of the session has the property. -/
def Session.Traces (i : Interference) (Q : List Event → Prop) (s : Session α) : Prop :=
  ∀ c tr a c', Runs i s c tr a c' → Q tr

namespace Attempt

theorem discreet_bind {x : Attempt α} {f : α → Attempt β} (hx : x.run.Discreet) (hf : ∀ a, (f a).run.Discreet) :
    (x >>= f).run.Discreet := by
  rw [ExceptT.run_bind]
  refine hx.bind fun v => ?_
  cases v with
  | error fault => trivial
  | ok a => exact hf a

theorem discreet_state_bind {st : σ} {x : StateT σ Attempt α} {f : α → StateT σ Attempt β}
    (hx : (x.run st).run.Discreet) (hf : ∀ a st, ((f a).run st).run.Discreet) : ((x >>= f).run st).run.Discreet := by
  rw [StateT.run_bind]
  exact discreet_bind hx fun p => hf p.1 p.2

theorem discreet_state_lift {st : σ} {x : Attempt α} (hx : x.run.Discreet) :
    ((liftM x : StateT σ Attempt α).run st).run.Discreet := discreet_bind hx fun _ => trivial

end Attempt

namespace Additive

variable {Q : List Event → Prop}

theorem discreet (hQ : Additive Q) {s : Session α} (hs : s.Discreet) : s.Traces i Q := fun _ _ _ _ h =>
  hQ.uneventful (h.uneventful hs)

theorem bind (hQ : Additive Q) {s : Session α} {f : α → Session β} (hs : s.Traces i Q)
    (hf : ∀ c tr a c', Runs i s c tr a c' → (f a).Traces i Q) : (s >>= f).Traces i Q := by
  intro c tr b c' h
  obtain ⟨tr₁, a, c₁, tr₂, rfl, h₁, h₂⟩ := Session.runs_bind.mp h
  exact hQ.append (hs c tr₁ a c₁ h₁) (hf c tr₁ a c₁ h₁ c₁ tr₂ b c' h₂)

theorem attempt_bind (hQ : Additive Q) {x : Attempt α} {f : α → Attempt β} (hx : x.run.Traces i Q)
    (hf : ∀ a, (f a).run.Traces i Q) : (x >>= f).run.Traces i Q := by
  rw [ExceptT.run_bind]
  refine hQ.bind hx fun c tr v c' _ => ?_
  cases v with
  | error fault => exact hQ.discreet trivial
  | ok a => exact hf a

theorem state_bind (hQ : Additive Q) {st : σ} {x : StateT σ Attempt α} {f : α → StateT σ Attempt β}
    (hx : (x.run st).run.Traces i Q) (hf : ∀ a st, ((f a).run st).run.Traces i Q) :
    ((x >>= f).run st).run.Traces i Q := by
  rw [StateT.run_bind]
  exact hQ.attempt_bind hx fun p => hf p.1 p.2

theorem state_forget {st : σ} {x : StateT σ Attempt α} (hx : (x.run st).run.Traces i Q) :
    (x.run' st).run.Traces i Q := by
  intro c tr r c' h
  obtain ⟨v, hv, -⟩ := Attempt.runs_state_forget.mp h
  exact hx c tr v c' hv

end Additive

end NamespaceOwnership
