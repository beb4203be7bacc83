import Mathlib.Data.List.TakeWhile
import NamespaceOwnership.Proofs.Election.OneLoop

/-!
# Whether a handoff leaves the process running

At the end of a term the loop gets two signals one after the other: it is requested to stop, and then its own stop event
is set. It may return on the first one, and its thread looks only at the second. So a handoff in which nothing goes
wrong leaves the process running just if the stop event is set before the thread looks.
-/
namespace NamespaceOwnership

/-- The steps at the end of a term before the thread is awaited, and those of a thread whose loop does not crash. -/
inductive HandoffAction.Clean (thread : Nat) : HandoffAction → Prop where
  | clearReady : Clean thread .clearReady
  | requestStop : Clean thread .requestStop
  | signalStop : Clean thread .signalStop
  | loopReturns : Clean thread (.loopReturns thread)
  | threadLooks : Clean thread (.threadLooks thread)
  | threadAlarms : Clean thread (.threadAlarms thread)

namespace HandoffAction.Clean

variable {thread : Nat} {a : HandoffAction}

theorem ne (ha : a.Clean thread) : a ≠ .beginTerm ∧ a ≠ .awaitThread := by cases ha <;> simp

theorem not_mayShutDown (ha : a.Clean thread) : ¬a.MayShutDown := by cases ha <;> nofun

end HandoffAction.Clean

namespace Handoff

variable {limit : Int} {h h' : Handoff} {thread : Nat} {t : LoopThread} {down : Bool} {a : HandoffAction}
  {actions : List HandoffAction}

namespace Watched

/-- A thread that has ended does nothing any more. -/
theorem ended (hw : h.Watched thread t false) (hstage : t.stage = .ended) (hclean : ∀ a ∈ actions, a.Clean thread)
    (hp : Performs limit h actions h') : h'.shutdown = false := by
  induction hp generalizing t with
  | nil => exact hw.shutdown
  | cons first later ih =>
    rw [List.forall_mem_cons] at hclean
    obtain ⟨t₁, down, hturn, hw₁⟩ := hw.does first (.inr hclean.1.ne)
    cases hturn with
    | clearReady => exact ih hw₁ hstage hclean.2
    | requestStop => exact ih hw₁ hstage hclean.2
    | signalStop => exact ih hw₁ hstage hclean.2
    | shutsDown may => exact absurd may hclean.1.not_mayShutDown
    | loopReturns hrunning => simp [hrunning] at hstage
    | loopCrashes hrunning => simp [hrunning] at hstage
    | looksQuietly hreturned => simp [hreturned] at hstage
    | looksUnasked hreturned => simp [hreturned] at hstage
    | threadAlarms halarmed => simp [halarmed] at hstage

end Watched

/-- The stop event of the loop is set before its thread looks at it. -/
def InTime (thread : Nat) (actions : List HandoffAction) : Prop :=
  .signalStop ∈ actions.takeWhile (· ≠ .threadLooks thread)

/-- The actions up to where the thread looks. -/
theorem exists_look (thread : Nat) (actions : List HandoffAction) : ∃ before after, actions = before ++ after ∧
    actions.takeWhile (· ≠ .threadLooks thread) = before ∧ .threadLooks thread ∉ before ∧
      (after = [] ∨ ∃ later, after = .threadLooks thread :: later) := by
  refine ⟨_, actions.dropWhile (· ≠ .threadLooks thread), List.takeWhile_append_dropWhile.symm, rfl, fun hmem => ?_, ?_⟩
  · simpa using List.mem_takeWhile_imp hmem
  · have hhead := List.head?_dropWhile_not (fun a => decide (a ≠ .threadLooks thread)) actions
    cases hafter : actions.dropWhile fun a => decide (a ≠ .threadLooks thread) with
    | nil => exact .inl rfl
    | cons a later =>
      rw [hafter] at hhead
      obtain rfl : a = .threadLooks thread := by simpa using hhead
      exact .inr ⟨later, rfl⟩

/-- When a thread has been awaited it is there no longer. -/
theorem Watched.ended_of_awaited (hw : h.Watched thread t down) (hawait : Does limit .awaitThread h h') :
    t.stage = .ended := by
  obtain ⟨lines, hstep⟩ := hawait
  obtain ⟨hcond, -⟩ := Option.ite_none_right_eq_some.mp hstep
  simpa [newestAlive, hw.newest, hw.remembered, LoopThread.alive] using (Bool.and_eq_true_iff.mp hcond).2

/-- Where no thread is remembered, a term starts a new loop just if the process is not shut down. -/
theorem beginTerm_of_forgotten (hidle : h.ending = .idle) (hforgotten : h.remembered = false) :
    (h.shutdown = false → Does limit .beginTerm h
      { h with ready := true, threads := ⟨false, .running⟩ :: h.threads, remembered := true }) ∧
    (h.shutdown = true → Does limit .beginTerm h h) := by
  refine ⟨fun hup => ⟨[], ?_⟩, fun hdown => ⟨[], ?_⟩⟩
  · simp [step, hidle, Handoff.beginTerm, hup, hforgotten]
  · simp [step, hidle, Handoff.beginTerm, hdown]

theorem Watched.shutdown_eq_false_iff (hw : h.Watched thread ⟨false, .running⟩ false)
    (hclean : ∀ a ∈ actions, a.Clean thread) {h₁ : Handoff} (hactions : Performs limit h actions h₁)
    (hawait : Does limit .awaitThread h₁ h') : h₁.shutdown = false ↔ InTime thread actions := by
  obtain ⟨before, after, hsplit, hbefore, hunlooked, hafter⟩ := exists_look thread actions
  rw [InTime, hbefore]
  rw [hsplit, List.forall_mem_append] at hclean
  rw [hsplit] at hactions
  obtain ⟨h₀, hfirst, hrest⟩ := hactions.split
  have hcrash : .loopCrashes thread ∉ before := fun hmem => nomatch hclean.1 _ hmem
  obtain ⟨t, down, hw₀, hstill⟩ := hw.before_look (.inl rfl) (fun _ => hcrash) hunlooked hfirst
  obtain rfl : down = false :=
    hstill.shutdown.resolve_right fun ⟨a, ha, hmay⟩ => (hclean.1 a ha).not_mayShutDown hmay
  rcases hafter with rfl | ⟨later, rfl⟩
  · -- a thread that never looks is still there
    cases hrest with
    | nil =>
      have hstage := hstill.stage
      simp [hw₀.ended_of_awaited hawait] at hstage
  · cases hrest with
    | cons look hlater =>
      rw [List.forall_mem_cons] at hclean
      obtain ⟨t₁, down, hturn, hw₁⟩ := hw₀.does look (.inr hclean.2.1.ne)
      cases hturn with
      | shutsDown may => exact absurd may hclean.2.1.not_mayShutDown
      | looksQuietly _ hquiet =>
        exact iff_of_true (hw₁.ended rfl hclean.2.2 hlater) (by simpa [hstill.asked] using hquiet)
      | looksUnasked _ hunasked =>
        refine iff_of_false (fun hup => ?_) fun hin => by simp [hstill.asked.mpr (.inr hin)] at hunasked
        obtain hdown | ⟨t₂, hw₂, halarmed⟩ := hw₁.alarmed rfl hlater
        · cases hup.symm.trans hdown
        · cases halarmed.symm.trans (hw₂.ended_of_awaited hawait)

/-- Nothing goes wrong at the end of a term: the loop does not crash, and it is there no longer when its thread has been
awaited. Then the process is left running just if the stop event is set before the thread looks, and just if it is left
running the next term starts a new loop. -/
theorem clean_handoff_iff {history : List HandoffAction} {h₁ : Handoff} (hh : (perform limit {} history).1 = h)
    (hrunning : h.newest? = some ⟨false, .running⟩) (hup : h.shutdown = false)
    (hclean : ∀ a ∈ actions, a.Clean (h.threads.length - 1)) (hactions : Performs limit h actions h₁)
    (hawait : Does limit .awaitThread h₁ h') :
    (h'.shutdown = false ↔ InTime (h.threads.length - 1) actions) ∧
      (h'.shutdown = false → Does limit .beginTerm h'
        { h' with ready := true, threads := ⟨false, .running⟩ :: h'.threads, remembered := true }) ∧
      (h'.shutdown = true → Does limit .beginTerm h' h') := by
  have ho : h.Ordered := hh ▸ Ordered.initial.perform history
  have hne : h.threads ≠ [] := by
    rintro hnil
    simp [newest?, hnil] at hrunning
  have hremembered : h.remembered = true := ho.sole.remembered (by simp [newestAlive, hrunning, LoopThread.alive])
  have hlast : h.threads.length - 1 + 1 = h.threads.length := Nat.sub_add_cancel (List.length_pos_iff.mpr hne)
  have hiff := Watched.shutdown_eq_false_iff ⟨ho, hlast, hrunning, hremembered, hup⟩ hclean hactions hawait
  obtain ⟨lines, hstep⟩ := hawait
  obtain ⟨-, heq⟩ := Option.ite_none_right_eq_some.mp hstep
  cases heq
  exact ⟨hiff, beginTerm_of_forgotten rfl rfl⟩

section Orders

private def leading : Handoff := { ready := true, threads := [⟨false, .running⟩], remembered := true }

private theorem begins : (perform 45 {} [.beginTerm]).1 = leading := rfl

/-- The loop returns on the request, and the stop event is set before its thread looks. -/
private theorem quiet_order : ∃ h₁, Performs 45 leading [.clearReady, .requestStop, .loopReturns 0, .signalStop,
    .threadLooks 0] h₁ ∧ h₁.ending = .signalled ∧ h₁.newestAlive = false :=
  ⟨_, .cons ⟨_, rfl⟩ (.cons ⟨_, rfl⟩ (.cons ⟨_, rfl⟩ (.cons ⟨_, rfl⟩ (.cons ⟨_, rfl⟩ (.nil _))))), rfl, rfl⟩

/-- In this order the process is left running and the next term starts a loop. -/
theorem clean_handoff_iff_quiet : ∃ (h h₁ h' : Handoff) (actions : List HandoffAction),
    (perform 45 {} [.beginTerm]).1 = h ∧ h.newest? = some ⟨false, .running⟩ ∧ h.shutdown = false ∧
      (∀ a ∈ actions, a.Clean (h.threads.length - 1)) ∧ Performs 45 h actions h₁ ∧ Does 45 .awaitThread h₁ h' ∧
      h'.shutdown = false ∧ Does 45 .beginTerm h'
        { h' with ready := true, threads := ⟨false, .running⟩ :: h'.threads, remembered := true } := by
  obtain ⟨h₁, hperforms, hsignalled, hgone⟩ := quiet_order
  have hclean : ∀ a ∈ [HandoffAction.clearReady, .requestStop, .loopReturns 0, .signalStop, .threadLooks 0],
      a.Clean 0 := by
    simp only [List.forall_mem_cons, List.not_mem_nil, false_imp_iff, implies_true, and_true]
    exact ⟨.clearReady, .requestStop, .loopReturns, .signalStop, .threadLooks⟩
  have hawait : Does 45 .awaitThread h₁ { h₁ with remembered := false, ending := .idle } :=
    ⟨[], if_pos (by simp [hsignalled, hgone])⟩
  have hresult := clean_handoff_iff begins rfl rfl hclean hperforms hawait
  have hup := hresult.1.mpr (by simp [InTime])
  exact ⟨leading, h₁, _, _, begins, rfl, rfl, hclean, hperforms, hawait, hup, hresult.2.1 hup⟩

/-- The loop returns on the request and its thread looks before the stop event is set: although nothing else goes wrong,
the process is shut down and no term starts a loop any more. -/
theorem clean_handoff_shutsDown : ∃ h h' : Handoff, (perform 45 {} [.beginTerm]).1 = h ∧ h.shutdown = false ∧
    Performs 45 h [.clearReady, .requestStop, .loopReturns 0, .threadLooks 0, .threadAlarms 0, .signalStop,
      .awaitThread] h' ∧ h'.shutdown = true ∧ Does 45 .beginTerm h' h' :=
  ⟨leading, _, begins, rfl, .cons ⟨_, rfl⟩ (.cons ⟨_, rfl⟩ (.cons ⟨_, rfl⟩ (.cons ⟨_, rfl⟩ (.cons ⟨_, rfl⟩
    (.cons ⟨_, rfl⟩ (.cons ⟨_, rfl⟩ (.nil _))))))), rfl, ⟨_, rfl⟩⟩

end Orders

end Handoff
end NamespaceOwnership
