import NamespaceOwnership.Proofs.Election.Handover

/-!
# One loop for all terms

Terms begin and end, loops return, crash or go on after they were asked to stop, and the process may be shut down at
any moment. However these steps are interleaved, there is never a second loop beside one whose thread is alive, and
nothing but a shutdown leaves a loop behind a term that has ended.

A loop that crashes shuts the process down. A loop that returns unasked need not: its thread looks only afterwards
whether it was asked, and if a term has been ended in between then it was (`Handoff.one_loop`).
-/
namespace NamespaceOwnership

/-- With these actions the end of a term returns. -/
inductive HandoffAction.Returns : HandoffAction → Prop where
  | awaitThread : Returns .awaitThread
  | giveUpWaiting : Returns .giveUpWaiting

/-- With these actions the process may be shut down while its loop does nothing. -/
inductive HandoffAction.MayShutDown : HandoffAction → Prop where
  | beginTerm : MayShutDown .beginTerm
  | giveUpWaiting : MayShutDown .giveUpWaiting
  | requestShutdown : MayShutDown .requestShutdown

namespace Handoff

variable {limit : Int} {h h' : Handoff} {thread : Nat} {stage : LoopStage} {t : LoopThread} {down : Bool}
  {a : HandoffAction} {actions : List HandoffAction}

theorem thread?_eq (h : Handoff) (thread : Nat) : h.thread? thread = h.threads.reverse[thread]? := by
  unfold thread? place
  split
  · rename_i hlt
    rw [List.getElem?_reverse hlt]
  · rename_i hle
    exact (List.getElem?_eq_none (by simpa using hle)).symm

theorem mem_of_thread? {t : LoopThread} (ht : h.thread? thread = some t) : t ∈ h.threads := by
  rw [thread?_eq] at ht
  exact List.mem_reverse.mp (List.mem_of_getElem? ht)

/-- The threads after one of them came to another stage. -/
theorem mem_setStage {t t' : LoopThread} (ht : h.thread? thread = some t)
    (ht' : t' ∈ (h.setStage thread stage).threads) : t' ∈ h.threads ∨ t' = { t with stage } := by
  obtain ⟨n, hn⟩ := List.mem_iff_getElem?.mp ht'
  have hmodify : (h.threads.modify (h.place thread) fun t => { t with stage })[n]? = some t' := hn
  rw [List.getElem?_modify] at hmodify
  obtain ⟨old, hold, rfl⟩ := Option.map_eq_some_iff.mp hmodify
  split
  · rename_i hplace
    subst hplace
    rw [thread?] at ht
    obtain rfl : t = old := Option.some.inj ((Option.ite_none_right_eq_some.mp ht).2.symm.trans hold)
    exact .inr rfl
  · exact .inl (List.mem_of_getElem? hold)

/-- Every loop that has ended was asked to, or the process is shut down. -/
def Accounted (h : Handoff) : Prop := ∀ t ∈ h.threads, t.stage = .ended → t.asked = true ∨ h.shutdown = true

/-- What holds however the steps are interleaved: only the newest loop may still be there, the replica is not ready
while a term is ended, and no loop has ended unasked unless the process is shut down. -/
structure Ordered (h : Handoff) : Prop where
  sole : h.Sole
  withdrawn : h.ending ≠ .idle → h.ready = false
  accounted : h.Accounted

namespace Ordered

theorem outside {a : HandoffAction} (ho : h.Ordered) (houtside : a.Outside) (hdoes : Does limit a h h') :
    h'.Ordered := by
  refine ⟨ho.sole.evolves (Moves.evolves ⟨a, houtside, hdoes⟩), ?_, ?_⟩
  · rcases outside_cases houtside hdoes with ⟨thread, t, stage, shutdown, -, -, -, -, rfl⟩ | rfl
    · exact ho.withdrawn
    · exact ho.withdrawn
  · rcases outside_cases houtside hdoes with ⟨thread, t, stage, shutdown, ht, -, hreason, hkept, rfl⟩ | rfl
    · intro t' ht' hended
      rcases mem_setStage ht ht' with hold | rfl
      · exact (ho.accounted t' hold hended).imp_right hkept
      · exact hreason hended
    · exact fun _ _ _ => .inr rfl

/-- A new loop is started only when all others have ended. -/
theorem beginTerm (ho : h.Ordered) (hdoes : Does limit .beginTerm h h') : h'.Ordered := by
  obtain ⟨lines, hstep⟩ := hdoes
  obtain ⟨hidle, heq⟩ := Option.ite_none_right_eq_some.mp hstep
  unfold Handoff.beginTerm at heq
  split at heq
  · cases heq
    exact ho
  split at heq
  · cases heq
    exact ⟨⟨ho.sole.older, ho.sole.remembered⟩, ho.withdrawn, fun _ _ _ => .inr rfl⟩
  · rename_i hfree
    cases heq
    have hgone : h.newestAlive ≠ true := fun halive => hfree (by simp [halive, ho.sole.remembered halive])
    refine ⟨⟨fun n t ht => ho.sole.allEnded hgone n t ht, fun _ => rfl⟩, fun hending => absurd hidle hending, ?_⟩
    intro t ht hended
    rcases List.mem_cons.mp ht with rfl | hold
    · cases hended
    · exact ho.accounted t hold hended

theorem clearReady (ho : h.Ordered) (hdoes : Does limit .clearReady h h') : h'.Ordered := by
  have hsole : h'.Sole := ho.sole.clearReady hdoes
  obtain ⟨lines, hstep⟩ := hdoes
  obtain ⟨-, heq⟩ := Option.ite_none_right_eq_some.mp hstep
  cases heq
  exact ⟨hsole, fun _ => rfl, ho.accounted⟩

theorem requestStop (ho : h.Ordered) (hdoes : Does limit .requestStop h h') : h'.Ordered := by
  have hsole : h'.Sole := ho.sole.requestStop hdoes
  obtain ⟨lines, hstep⟩ := hdoes
  obtain ⟨hending, heq⟩ := Option.ite_none_right_eq_some.mp hstep
  cases heq
  exact ⟨hsole, fun _ => ho.withdrawn (hending ▸ nofun), ho.accounted⟩

theorem signalStop (ho : h.Ordered) (hdoes : Does limit .signalStop h h') : h'.Ordered := by
  have hsole : h'.Sole := ho.sole.signalStop hdoes
  obtain ⟨lines, hstep⟩ := hdoes
  obtain ⟨hending, heq⟩ := Option.ite_none_right_eq_some.mp hstep
  cases heq
  refine ⟨hsole, fun _ => ho.withdrawn (hending ▸ nofun), fun t ht hended => ?_⟩
  obtain ⟨n, hn⟩ := List.mem_iff_getElem?.mp ht
  have hmodify : (h.threads.modifyHead fun t => { t with asked := true })[n]? = some t := hn
  cases n with
  | zero =>
    obtain ⟨old, -, rfl⟩ := Option.map_eq_some_iff.mp ((List.getElem?_modifyHead_zero ..).symm.trans hmodify)
    exact .inl rfl
  | succ n => exact ho.accounted t (List.mem_of_getElem? ((List.getElem?_modifyHead_succ ..).symm.trans hmodify)) hended

/-- When the end of a term returns, no loop is left or the process is shut down. -/
theorem returns {a : HandoffAction} (ho : h.Ordered) (hreturns : a.Returns) (hdoes : Does limit a h h') :
    h'.Ordered ∧ h'.ready = false ∧ (h'.AllEnded ∨ h'.shutdown = true) := by
  obtain ⟨lines, hstep⟩ := hdoes
  cases hreturns with
  | awaitThread =>
    obtain ⟨hcond, heq⟩ := Option.ite_none_right_eq_some.mp hstep
    cases heq
    obtain ⟨hsignalled, hgone⟩ : h.ending = .signalled ∧ (h.remembered = false ∨ h.newestAlive = false) := by
      simpa using hcond
    have hended : h.AllEnded := ho.sole.allEnded fun halive => by
      simp [halive, ho.sole.remembered halive] at hgone
    have hready : h.ready = false := ho.withdrawn (hsignalled ▸ nofun)
    have hall : AllEnded { h with remembered := false, ending := .idle } := hended
    exact ⟨⟨hall.sole, fun _ => hready, ho.accounted⟩, hready, .inl hended⟩
  | giveUpWaiting =>
    obtain ⟨hcond, heq⟩ := Option.ite_none_right_eq_some.mp hstep
    cases heq
    have hsignalled : h.ending = .signalled := by simp_all
    have hready : h.ready = false := ho.withdrawn (hsignalled ▸ nofun)
    exact ⟨⟨⟨ho.sole.older, ho.sole.remembered⟩, fun _ => hready, fun _ _ _ => .inr rfl⟩, hready, .inr rfl⟩

theorem does {a : HandoffAction} (ho : h.Ordered) (hdoes : Does limit a h h') : h'.Ordered := by
  cases a with
  | beginTerm => exact ho.beginTerm hdoes
  | clearReady => exact ho.clearReady hdoes
  | requestStop => exact ho.requestStop hdoes
  | signalStop => exact ho.signalStop hdoes
  | awaitThread => exact (ho.returns .awaitThread hdoes).1
  | giveUpWaiting => exact (ho.returns .giveUpWaiting hdoes).1
  | loopReturns thread => exact ho.outside (.loopReturns thread) hdoes
  | loopCrashes thread => exact ho.outside (.loopCrashes thread) hdoes
  | threadLooks thread => exact ho.outside (.threadLooks thread) hdoes
  | threadAlarms thread => exact ho.outside (.threadAlarms thread) hdoes
  | requestShutdown => exact ho.outside .requestShutdown hdoes

theorem perform (ho : h.Ordered) (actions : List HandoffAction) : (h.perform limit actions).1.Ordered := by
  induction actions generalizing h with
  | nil => exact ho
  | cons a rest ih =>
    unfold Handoff.perform
    split
    · exact ih ho
    · rename_i next lines hstep
      exact ih (ho.does ⟨lines, hstep⟩)

theorem initial : Ordered {} where
  sole := ⟨nofun, nofun⟩
  withdrawn _ := rfl
  accounted := nofun

theorem alive_le_one (ho : h.Ordered) : h.threads.countP LoopThread.alive ≤ 1 := by
  cases hthreads : h.threads with
  | nil => exact Nat.zero_le 1
  | cons newest rest =>
    have hrest : rest.countP LoopThread.alive = 0 := by
      refine List.countP_eq_zero.mpr fun t ht halive => ?_
      obtain ⟨n, hn⟩ := List.mem_iff_getElem?.mp ht
      exact bne_iff_ne.mp halive (ho.sole.older n t (by rw [hthreads, List.getElem?_cons_succ, hn]))
    rw [List.countP_cons, hrest]
    split <;> simp

end Ordered

/-- A process that is shut down stays so. -/
theorem Does.shutdown (hdoes : Does limit a h h') (hdown : h.shutdown = true) : h'.shutdown = true := by
  have houtside (ha : a.Outside) : h'.shutdown = true := (Moves.evolves ⟨a, ha, hdoes⟩).shutdown hdown
  obtain ⟨lines, hstep⟩ := hdoes
  cases a with
  | beginTerm =>
    obtain ⟨-, heq⟩ := Option.ite_none_right_eq_some.mp hstep
    rw [Handoff.beginTerm, if_pos hdown] at heq
    cases heq
    exact hdown
  | clearReady | requestStop | signalStop | awaitThread | giveUpWaiting =>
    obtain ⟨-, heq⟩ := Option.ite_none_right_eq_some.mp hstep
    cases heq
    first | exact hdown | rfl
  | loopReturns thread => exact houtside (.loopReturns thread)
  | loopCrashes thread => exact houtside (.loopCrashes thread)
  | threadLooks thread => exact houtside (.threadLooks thread)
  | threadAlarms thread => exact houtside (.threadAlarms thread)
  | requestShutdown => exact houtside .requestShutdown

/-- Several actions that all happen. -/
inductive Performs (limit : Int) : Handoff → List HandoffAction → Handoff → Prop where
  | nil (h : Handoff) : Performs limit h [] h
  | cons {h h' h'' : Handoff} {a : HandoffAction} {actions : List HandoffAction} (first : Does limit a h h')
      (later : Performs limit h' actions h'') : Performs limit h (a :: actions) h''

namespace Performs

theorem split {before after : List HandoffAction} (hp : Performs limit h (before ++ after) h') :
    ∃ h₁, Performs limit h before h₁ ∧ Performs limit h₁ after h' := by
  induction before generalizing h with
  | nil => exact ⟨h, .nil h, hp⟩
  | cons a before ih =>
    cases hp with
    | cons first later =>
      obtain ⟨h₁, hbefore, hafter⟩ := ih later
      exact ⟨h₁, .cons first hbefore, hafter⟩

theorem shutdown (hp : Performs limit h actions h') (hdown : h.shutdown = true) : h'.shutdown = true := by
  induction hp with
  | nil => exact hdown
  | cons first _ ih => exact ih (first.shutdown hdown)

end Performs

/-- The newest thread, which is remembered, and whether the process is shut down. -/
structure Watched (thread : Nat) (t : LoopThread) (down : Bool) (h : Handoff) : Prop where
  ordered : h.Ordered
  last : thread + 1 = h.threads.length
  newest : h.newest? = some t
  remembered : h.remembered = true
  shutdown : h.shutdown = down

/-- What an action does to the newest thread and to the process. -/
inductive Turn (thread : Nat) : HandoffAction → LoopThread → Bool → LoopThread → Bool → Prop where
  | clearReady {t : LoopThread} {down : Bool} : Turn thread .clearReady t down t down
  | requestStop {t : LoopThread} {down : Bool} : Turn thread .requestStop t down t down
  | shutsDown {a : HandoffAction} {t : LoopThread} {down : Bool} (may : a.MayShutDown) : Turn thread a t down t true
  | signalStop {t : LoopThread} {down : Bool} : Turn thread .signalStop t down { t with asked := true } down
  | loopReturns {t : LoopThread} {down : Bool} (running : t.stage = .running) :
      Turn thread (.loopReturns thread) t down { t with stage := .returned } down
  | loopCrashes {t : LoopThread} {down : Bool} (running : t.stage = .running) :
      Turn thread (.loopCrashes thread) t down { t with stage := .alarmed } down
  | looksQuietly {t : LoopThread} {down : Bool} (returned : t.stage = .returned)
      (quiet : t.asked = true ∨ down = true) :
      Turn thread (.threadLooks thread) t down { t with stage := .ended } down
  | looksUnasked {t : LoopThread} (returned : t.stage = .returned) (unasked : t.asked = false) :
      Turn thread (.threadLooks thread) t false { t with stage := .alarmed } false
  | threadAlarms {t : LoopThread} {down : Bool} (alarmed : t.stage = .alarmed) :
      Turn thread (.threadAlarms thread) t down { t with stage := .ended } true

/-- A loop runs until it returns or crashes. -/
theorem running_of_does (ht : h.thread? thread = some t)
    (hdoes : Does limit (.loopReturns thread) h h' ∨ Does limit (.loopCrashes thread) h h') : t.stage = .running := by
  rcases hdoes with ⟨lines, hstep⟩ | ⟨lines, hstep⟩ <;>
    simpa [ht] using (Option.ite_none_right_eq_some.mp hstep).1

/-- What may have become of a thread and of the process by some actions, as long as the thread has not looked. -/
structure Unlooked (t : LoopThread) (down : Bool) (actions : List HandoffAction) (t' : LoopThread) (down' : Bool) :
    Prop where
  stage : t'.stage = .running ∨ t'.stage = .returned
  returned : t.stage = .returned → t'.stage = .returned
  asked : t'.asked = true ↔ t.asked = true ∨ .signalStop ∈ actions
  shutdown : down' = down ∨ ∃ a ∈ actions, a.MayShutDown

theorem Unlooked.cons {t₁ t' : LoopThread} {down₁ down' : Bool} (first : Unlooked t down [a] t₁ down₁)
    (later : Unlooked t₁ down₁ actions t' down') : Unlooked t down (a :: actions) t' down' where
  stage := later.stage
  returned := later.returned ∘ first.returned
  asked := by rw [later.asked, first.asked, or_assoc, List.mem_singleton, List.mem_cons]
  shutdown := by
    rcases later.shutdown with rfl | ⟨a', ha', hmay⟩
    · exact first.shutdown.imp_right fun ⟨a', ha', hmay⟩ => ⟨a', by simp_all, hmay⟩
    · exact .inr ⟨a', List.mem_cons_of_mem _ ha', hmay⟩

theorem Turn.unlooked {t' : LoopThread} {down' : Bool} (hturn : Turn thread a t down t' down')
    (hstage : t.stage = .running ∨ t.stage = .returned) (hcrash : t.stage = .running → a ≠ .loopCrashes thread)
    (hlook : a ≠ .threadLooks thread) : Unlooked t down [a] t' down' := by
  cases hturn with
  | clearReady => exact ⟨hstage, id, by simp, .inl rfl⟩
  | requestStop => exact ⟨hstage, id, by simp, .inl rfl⟩
  | signalStop => exact ⟨hstage, id, by simp, .inl rfl⟩
  | shutsDown may =>
    have hother : HandoffAction.signalStop ≠ a := by
      rintro rfl
      cases may
    exact ⟨hstage, id, by simp [hother], .inr ⟨a, List.mem_singleton_self a, may⟩⟩
  | loopReturns => exact ⟨.inr rfl, fun _ => rfl, by simp, .inl rfl⟩
  | loopCrashes hrunning => exact absurd rfl (hcrash hrunning)
  | looksQuietly => exact absurd rfl hlook
  | looksUnasked => exact absurd rfl hlook
  | threadAlarms halarmed => simp [halarmed] at hstage

/-- From here on, whatever is done: the process is shut down, or the thread can shut it down with its next step. -/
def Doomed (limit : Int) (thread : Nat) (h : Handoff) : Prop :=
  ∀ actions h', Performs limit h actions h' →
    h'.shutdown = true ∨ ∃ h'', Does limit (.threadAlarms thread) h' h'' ∧ h''.shutdown = true

/-- Only the newest thread is still there. -/
theorem Ordered.watched (ho : h.Ordered) (ht : h.thread? thread = some t) (halive : t.stage ≠ .ended) :
    h.Watched thread t h.shutdown := by
  unfold thread? place at ht
  obtain ⟨hlt, hplace⟩ := Option.ite_none_right_eq_some.mp ht
  cases hn : h.threads.length - 1 - thread with
  | succ n => exact absurd (ho.sole.older n t (hn ▸ hplace)) halive
  | zero =>
    rw [hn] at hplace
    refine ⟨ho, by omega, List.head?_eq_getElem?.trans hplace, ho.sole.remembered ?_, rfl⟩
    exact newestAlive_iff.mpr ⟨t, hplace, bne_iff_ne.mpr halive⟩

namespace Watched

theorem exists_cons (hw : h.Watched thread t down) : ∃ older, h.threads = t :: older ∧ older.length = thread := by
  have hlast := hw.last
  obtain ⟨older, holder⟩ := List.head?_eq_some_iff.mp hw.newest
  refine ⟨older, holder, ?_⟩
  rw [holder, List.length_cons] at hlast
  omega

theorem thread? (hw : h.Watched thread t down) : h.thread? thread = some t := by
  obtain ⟨older, holder, rfl⟩ := hw.exists_cons
  simp [Handoff.thread?, place, holder]

/-- The other threads have ended. -/
theorem eq_of_not_ended {other : Nat} {t' : LoopThread} (hw : h.Watched thread t down)
    (ht : h.thread? other = some t') (halive : t'.stage ≠ .ended) : other = thread ∧ t' = t := by
  have hw' := hw.ordered.watched ht halive
  refine ⟨?_, Option.some.inj (hw'.newest.symm.trans hw.newest)⟩
  have hlast := hw.last
  have hlast' := hw'.last
  omega

/-- An action that a thread can take only at one stage, before its end, is one of the newest thread. -/
theorem eq_of_any {other : Nat} (hw : h.Watched thread t down)
    (hany : (h.thread? other).any (fun t => decide (t.stage = stage)) = true) (hstage : stage ≠ .ended) :
    other = thread ∧ t.stage = stage := by
  obtain ⟨t', ht, hstage'⟩ := thread?_any hany
  obtain ⟨rfl, rfl⟩ := hw.eq_of_not_ended ht (hstage' ▸ hstage)
  exact ⟨rfl, hstage'⟩

/-- The newest thread comes to another stage, and the process may be shut down. -/
theorem setStage {down' : Bool} (hw : h.Watched thread t down) (stage : LoopStage)
    (ho : Ordered { h.setStage thread stage with shutdown := down' }) :
    Watched thread { t with stage } down' { h.setStage thread stage with shutdown := down' } := by
  obtain ⟨older, holder, rfl⟩ := hw.exists_cons
  refine ⟨ho, ?_, ?_, hw.remembered, rfl⟩
  · simp [Handoff.setStage, holder]
  · simp [Handoff.setStage, newest?, place, holder]

/-- As long as its thread is there, the newest loop stays the newest one. Otherwise a term could replace it. -/
theorem does (hw : h.Watched thread t down) (hdoes : Does limit a h h')
    (hstays : t.alive = true ∨ a ≠ .beginTerm ∧ a ≠ .awaitThread) :
    ∃ t' down', Turn thread a t down t' down' ∧ h'.Watched thread t' down' := by
  have ho : h'.Ordered := hw.ordered.does hdoes
  have halive (ha : a = .beginTerm ∨ a = .awaitThread) : h.newestAlive = true := by
    rw [newestAlive, hw.newest]
    rcases ha with rfl | rfl <;> exact hstays.resolve_right (by simp)
  obtain ⟨lines, hstep⟩ := hdoes
  cases a with
  | beginTerm =>
    obtain ⟨-, heq⟩ := Option.ite_none_right_eq_some.mp hstep
    unfold Handoff.beginTerm at heq
    split at heq
    · rename_i hdown
      cases heq
      exact ⟨t, true, .shutsDown .beginTerm, ho, hw.last, hw.newest, hw.remembered, hdown⟩
    · rw [if_pos (by simp [hw.remembered, halive])] at heq
      cases heq
      exact ⟨t, true, .shutsDown .beginTerm, ho, hw.last, hw.newest, hw.remembered, rfl⟩
  | clearReady =>
    obtain ⟨-, heq⟩ := Option.ite_none_right_eq_some.mp hstep
    cases heq
    exact ⟨t, down, .clearReady, ho, hw.last, hw.newest, hw.remembered, hw.shutdown⟩
  | requestStop =>
    obtain ⟨-, heq⟩ := Option.ite_none_right_eq_some.mp hstep
    cases heq
    exact ⟨t, down, .requestStop, ho, hw.last, hw.newest, hw.remembered, hw.shutdown⟩
  | signalStop =>
    obtain ⟨-, heq⟩ := Option.ite_none_right_eq_some.mp hstep
    cases heq
    obtain ⟨older, holder, rfl⟩ := hw.exists_cons
    exact ⟨_, down, .signalStop, ho, by simp [holder], by simp [newest?, holder], hw.remembered, hw.shutdown⟩
  | awaitThread =>
    obtain ⟨hcond, -⟩ := Option.ite_none_right_eq_some.mp hstep
    simp [hw.remembered, halive (.inr rfl)] at hcond
  | giveUpWaiting =>
    obtain ⟨-, heq⟩ := Option.ite_none_right_eq_some.mp hstep
    cases heq
    exact ⟨t, true, .shutsDown .giveUpWaiting, ho, hw.last, hw.newest, hw.remembered, rfl⟩
  | loopReturns other =>
    obtain ⟨hany, heq⟩ := Option.ite_none_right_eq_some.mp hstep
    obtain ⟨rfl, hstage⟩ := hw.eq_of_any hany (by decide)
    cases heq
    exact ⟨_, h.shutdown, hw.shutdown ▸ .loopReturns hstage, hw.setStage .returned ho⟩
  | loopCrashes other =>
    obtain ⟨hany, heq⟩ := Option.ite_none_right_eq_some.mp hstep
    obtain ⟨rfl, hstage⟩ := hw.eq_of_any hany (by decide)
    cases heq
    exact ⟨_, h.shutdown, hw.shutdown ▸ .loopCrashes hstage, hw.setStage .alarmed ho⟩
  | threadLooks other =>
    cases ht : h.thread? other with
    | none => simp [step, ht] at hstep
    | some t' =>
      simp only [step, ht, Option.ite_none_right_eq_some] at hstep
      obtain ⟨hstage, heq⟩ := hstep
      obtain ⟨rfl, rfl⟩ := hw.eq_of_not_ended ht (by simp [hstage])
      unfold look at heq
      split at heq
      · rename_i hquiet
        cases heq
        have hquiet : t'.asked = true ∨ h.shutdown = true := Bool.or_eq_true_iff.mp hquiet
        exact ⟨_, h.shutdown, hw.shutdown ▸ .looksQuietly hstage hquiet, hw.setStage .ended ho⟩
      · rename_i halarm
        cases heq
        rw [Bool.or_eq_true, not_or, Bool.not_eq_true, Bool.not_eq_true] at halarm
        obtain ⟨hunasked, hup⟩ := halarm
        obtain rfl : false = down := hup.symm.trans hw.shutdown
        exact ⟨_, h.shutdown, hup.symm ▸ .looksUnasked hstage hunasked, hw.setStage .alarmed ho⟩
  | threadAlarms other =>
    obtain ⟨hany, heq⟩ := Option.ite_none_right_eq_some.mp hstep
    obtain ⟨rfl, hstage⟩ := hw.eq_of_any hany (by decide)
    cases heq
    exact ⟨_, true, .threadAlarms hstage, hw.setStage .ended ho⟩
  | requestShutdown =>
    cases hstep
    exact ⟨t, true, .shutsDown .requestShutdown, ho, hw.last, hw.newest, hw.remembered, rfl⟩

/-- Until the thread looks it is there, and it was asked just if its stop event was set. -/
theorem before_look (hw : h.Watched thread t down) (hstage : t.stage = .running ∨ t.stage = .returned)
    (hcrash : t.stage = .running → .loopCrashes thread ∉ actions) (hlook : .threadLooks thread ∉ actions)
    (hp : Performs limit h actions h') :
    ∃ t' down', h'.Watched thread t' down' ∧ Unlooked t down actions t' down' := by
  induction hp generalizing t down with
  | nil => exact ⟨t, down, hw, hstage, id, by simp, .inl rfl⟩
  | @cons h h₁ h' a actions first later ih =>
    rw [List.mem_cons, not_or] at hlook
    simp only [List.mem_cons, not_or] at hcrash
    have halive : t.alive = true := by rcases hstage with hstage | hstage <;> simp [LoopThread.alive, hstage]
    obtain ⟨t₁, down₁, hturn, hw₁⟩ := hw.does first (.inl halive)
    have hfirst : Unlooked t down [a] t₁ down₁ :=
      hturn.unlooked hstage (fun hrunning => Ne.symm (hcrash hrunning).1) (Ne.symm hlook.1)
    have hlater (hrunning : t₁.stage = .running) : HandoffAction.loopCrashes thread ∉ actions := by
      refine (hcrash (hstage.resolve_right fun hreturned => ?_)).2
      simp [hfirst.returned hreturned] at hrunning
    obtain ⟨t', down', hw', hrest⟩ := ih hw₁ hfirst.stage hlater hlook.2
    exact ⟨t', down', hw', hfirst.cons hrest⟩

/-- A thread that is about to shut the process down is there until it has done so. -/
theorem alarmed (hw : h.Watched thread t down) (halarmed : t.stage = .alarmed) (hp : Performs limit h actions h') :
    h'.shutdown = true ∨ ∃ t', h'.Watched thread t' false ∧ t'.stage = .alarmed := by
  induction hp generalizing t down with
  | nil =>
    cases down with
    | true => exact .inl hw.shutdown
    | false => exact .inr ⟨t, hw, halarmed⟩
  | cons first later ih =>
    obtain ⟨t₁, down₁, hturn, hw₁⟩ := hw.does first (.inl (by simp [LoopThread.alive, halarmed]))
    cases hturn with
    | clearReady => exact ih hw₁ halarmed
    | requestStop => exact ih hw₁ halarmed
    | signalStop => exact ih hw₁ halarmed
    | shutsDown => exact .inl (later.shutdown hw₁.shutdown)
    | threadAlarms => exact .inl (later.shutdown hw₁.shutdown)
    | loopReturns hrunning => simp [hrunning] at halarmed
    | loopCrashes hrunning => simp [hrunning] at halarmed
    | looksQuietly hreturned => simp [hreturned] at halarmed
    | looksUnasked hreturned => simp [hreturned] at halarmed

theorem doomed_of_alarmed (hw : h.Watched thread t down) (halarmed : t.stage = .alarmed) : h.Doomed limit thread := by
  intro actions h' hp
  refine (hw.alarmed halarmed hp).imp_right fun ⟨t', hw', halarmed'⟩ => ⟨_, ⟨[], if_pos ?_⟩, rfl⟩
  simp [hw'.thread?, halarmed']

/-- A thread that has ended shuts nothing down. -/
theorem doomed_iff_of_ended (hw : h.Watched thread t down) (hended : t.stage = .ended) :
    h.Doomed limit thread ↔ down = true := by
  rw [← hw.shutdown]
  refine ⟨fun hdoomed => (hdoomed [] h (.nil h)).resolve_right ?_, fun hdown actions h' hp => .inl (hp.shutdown hdown)⟩
  rintro ⟨h'', ⟨lines, hstep⟩, -⟩
  simp [step, hw.thread?, hended] at hstep

/-- Once a loop has returned its thread may look at any time, and that decides. -/
theorem look_decides (hw : h.Watched thread t down) (hreturned : t.stage = .returned) :
    (∃ h', Does limit (.threadLooks thread) h h') ∧ ∀ h', Does limit (.threadLooks thread) h h' →
      (h'.Doomed limit thread ↔ t.asked = false ∨ down = true) := by
  refine ⟨⟨(h.look thread t).1, (h.look thread t).2, by simp [step, hw.thread?, hreturned]⟩, fun h' hdoes => ?_⟩
  obtain ⟨t', down', hturn, hw'⟩ := hw.does hdoes (.inl (by simp [LoopThread.alive, hreturned]))
  cases hturn with
  | shutsDown may => cases may
  | looksQuietly _ hquiet =>
    rw [hw'.doomed_iff_of_ended rfl]
    refine ⟨.inr, fun h => h.elim (fun hunasked => ?_) id⟩
    exact hquiet.resolve_left (by simp [hunasked])
  | looksUnasked _ hunasked => exact iff_of_true (hw'.doomed_of_alarmed rfl) (.inl hunasked)

end Watched

/-- However the calls at the begin and at the end of terms are interleaved with what the loops do and with requests to
shut down: no two loops are alive; when the end of a term returns, the replica is not ready, and no loop is left or the
process is shut down; every loop that has ended was asked to stop or the process is shut down. A loop that crashes
dooms the process to be shut down. A loop that returns unasked does so if and only if its stop event is not set between
its return and the moment when its thread looks, or the process is shut down by then. -/
theorem one_loop (limit : Int) (history : List HandoffAction) :
    let h := (perform limit {} history).1
    h.threads.countP LoopThread.alive ≤ 1 ∧
      (∀ a : HandoffAction, a.Returns → ∀ h', Does limit a h h' →
        h'.ready = false ∧ ((∀ t ∈ h'.threads, t.alive = false) ∨ h'.shutdown = true)) ∧
      ∀ (thread : Nat) (t : LoopThread), h.thread? thread = some t →
        (t.stage = .ended → t.asked = true ∨ h.shutdown = true) ∧
        (∀ h₁, Does limit (.loopCrashes thread) h h₁ → h₁.Doomed limit thread) ∧
        (t.asked = false → ∀ h₁ before h₂, Does limit (.loopReturns thread) h h₁ → Performs limit h₁ before h₂ →
          .threadLooks thread ∉ before → (∃ h₃, Does limit (.threadLooks thread) h₂ h₃) ∧
            ∀ h₃, Does limit (.threadLooks thread) h₂ h₃ →
              (h₃.Doomed limit thread ↔ .signalStop ∉ before ∨ h₂.shutdown = true)) := by
  intro h
  have ho : h.Ordered := Ordered.initial.perform history
  refine ⟨ho.alive_le_one, fun a hreturns h' hdoes => ?_, fun thread t ht => ⟨?_, fun h₁ hcrashes => ?_, ?_⟩⟩
  · obtain ⟨-, hready, hleft⟩ := ho.returns hreturns hdoes
    refine ⟨hready, hleft.imp_left fun hended t ht => ?_⟩
    obtain ⟨n, hn⟩ := List.mem_iff_getElem?.mp ht
    exact bne_eq_false_iff_eq.mpr (hended n t hn)
  · exact ho.accounted t (mem_of_thread? ht)
  · have hrunning : t.stage = .running := running_of_does ht (.inr hcrashes)
    have hw : h.Watched thread t h.shutdown := ho.watched ht (by simp [hrunning])
    obtain ⟨t₁, down, hturn, hw₁⟩ := hw.does hcrashes (.inr ⟨nofun, nofun⟩)
    cases hturn with
    | shutsDown may => cases may
    | loopCrashes => exact hw₁.doomed_of_alarmed rfl
  · intro hunasked h₁ before h₂ hreturns hbefore hlook
    have hrunning : t.stage = .running := running_of_does ht (.inl hreturns)
    have hw : h.Watched thread t h.shutdown := ho.watched ht (by simp [hrunning])
    obtain ⟨t₁, down, hturn, hw₁⟩ := hw.does hreturns (.inr ⟨nofun, nofun⟩)
    cases hturn with
    | shutsDown may => cases may
    | loopReturns =>
      obtain ⟨t₂, down₂, hw₂, hunlooked⟩ := hw₁.before_look (.inr rfl) nofun hlook hbefore
      have hsignal : t₂.asked = false ↔ .signalStop ∉ before := by
        rw [← Bool.not_eq_true, hunlooked.asked]
        simp [hunasked]
      rw [← hsignal, hw₂.shutdown]
      exact hw₂.look_decides (hunlooked.returned rfl)

/-- A loop that returns unasked dooms the process although a term is just being ended, as long as its stop event is not
set. -/
theorem one_loop_noticed : ∃ h h₁ h₂ h₃ : Handoff, (perform 45 {} [.beginTerm]).1 = h ∧
    h.thread? 0 = some ⟨false, .running⟩ ∧ Does 45 (.loopReturns 0) h h₁ ∧
    Performs 45 h₁ [.clearReady, .requestStop] h₂ ∧ Does 45 (.threadLooks 0) h₂ h₃ ∧ h₃.shutdown = false ∧
    h₃.Doomed 45 0 := by
  obtain ⟨h₁, h₂, h₃, hreturns, hbefore, hlooks, hup⟩ : ∃ h₁ h₂ h₃ : Handoff,
      Does 45 (.loopReturns 0) (perform 45 {} [.beginTerm]).1 h₁ ∧ Performs 45 h₁ [.clearReady, .requestStop] h₂ ∧
      Does 45 (.threadLooks 0) h₂ h₃ ∧ h₃.shutdown = false :=
    ⟨_, _, _, ⟨_, rfl⟩, .cons ⟨_, rfl⟩ (.cons ⟨_, rfl⟩ (.nil _)), ⟨_, rfl⟩, rfl⟩
  obtain ⟨-, -, hthreads⟩ := one_loop 45 [.beginTerm]
  obtain ⟨-, -, hreturned⟩ := hthreads 0 ⟨false, .running⟩ rfl
  obtain ⟨-, hdecides⟩ := hreturned rfl h₁ _ h₂ hreturns hbefore (by simp)
  exact ⟨_, h₁, h₂, h₃, rfl, rfl, hreturns, hbefore, hlooks, hup, (hdecides h₃ hlooks).mpr (.inl (by simp))⟩

/-- In this order the process goes on although its loop ended unasked, and the next term starts another one. -/
theorem one_loop_unnoticed : ∃ h h₁ h₂ h₃ : Handoff, (perform 45 {} [.beginTerm]).1 = h ∧
    h.thread? 0 = some ⟨false, .running⟩ ∧ Does 45 (.loopReturns 0) h h₁ ∧
    Performs 45 h₁ [.clearReady, .requestStop, .signalStop, .threadLooks 0, .awaitThread] h₂ ∧
    h₂.thread? 0 = some ⟨true, .ended⟩ ∧ h₂.shutdown = false ∧ Does 45 .beginTerm h₂ h₃ ∧ h₃.shutdown = false ∧
    h₃.thread? 1 = some ⟨false, .running⟩ :=
  ⟨_, _, _, _, rfl, rfl, ⟨_, rfl⟩, .cons ⟨_, rfl⟩ (.cons ⟨_, rfl⟩ (.cons ⟨_, rfl⟩ (.cons ⟨_, rfl⟩ (.cons ⟨_, rfl⟩
    (.nil _))))), rfl, rfl, ⟨_, rfl⟩, rfl, rfl⟩

end Handoff
end NamespaceOwnership
