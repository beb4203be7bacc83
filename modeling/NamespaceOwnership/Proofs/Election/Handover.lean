import Mathlib.Logic.Relation
import NamespaceOwnership.Election.Campaign
import NamespaceOwnership.Election.Handoff
import NamespaceOwnership.Proofs.Conduct
import NamespaceOwnership.Proofs.Run

/-!
# Giving the lease up while the loop runs

A process campaigns for the lease and runs the control loop in the thread of a term. A leader that is shut down gives
the lease up before it ends its term. So at that moment the loops of earlier terms have ended, but the loop of the
present one has not even been asked to stop: unless it has ended by itself, it runs while another replica may already
take the lease.
-/
namespace NamespaceOwnership

/-- The process of a replica: the campaign, and after it the end of the last term once more. -/
def Elector.serve (e : Elector) (n : Nat) : Session (Option Elector.Standing) := do
  let last ← e.campaignFor n false
  if last.isSome then Session.request .stoppedLeading
  return last

/-- What the threads of the loops do by themselves, and a request to shut the process down. -/
inductive HandoffAction.Outside : HandoffAction → Prop where
  | loopReturns (thread : Nat) : Outside (.loopReturns thread)
  | loopCrashes (thread : Nat) : Outside (.loopCrashes thread)
  | threadLooks (thread : Nat) : Outside (.threadLooks thread)
  | threadAlarms (thread : Nat) : Outside (.threadAlarms thread)
  | requestShutdown : Outside .requestShutdown

namespace Handoff

open Relation (ReflTransGen)

variable {limit : Int} {h h' : Handoff}

def Does (limit : Int) (a : HandoffAction) (h h' : Handoff) : Prop := ∃ lines, h.step limit a = some (h', lines)

def Moves (limit : Int) (h h' : Handoff) : Prop := ∃ a : HandoffAction, a.Outside ∧ Does limit a h h'

/-- The end of a term is carried out in four steps, and the threads go on between them. -/
def EndsTerm (limit : Int) (h h' : Handoff) : Prop :=
  ∃ h₁ h₂ h₃ h₄ h₅ h₆, Does limit .clearReady h h₁ ∧ ReflTransGen (Moves limit) h₁ h₂ ∧
    Does limit .requestStop h₂ h₃ ∧ ReflTransGen (Moves limit) h₃ h₄ ∧ Does limit .signalStop h₄ h₅ ∧
    ReflTransGen (Moves limit) h₅ h₆ ∧ (Does limit .awaitThread h₆ h' ∨ Does limit .giveUpWaiting h₆ h')

/-- Only the loop of the newest thread may still be there. -/
structure Sole (h : Handoff) : Prop where
  older : ∀ (n : Nat) (t : LoopThread), h.threads[n + 1]? = some t → t.stage = .ended
  remembered : h.newestAlive = true → h.remembered = true

/-- The newest loop has not been asked to stop. -/
def Unasked (h : Handoff) : Prop := ∀ t : LoopThread, h.threads[0]? = some t → t.alive = true → t.asked = false

def AllEnded (h : Handoff) : Prop := ∀ (n : Nat) (t : LoopThread), h.threads[n]? = some t → t.stage = .ended

/-- The process as it deals with the threads: it owes that only a loop which was not asked is left when it gives the
lease up. -/
def conduct (limit : Int) : Conduct Handoff where
  meanwhile := ReflTransGen (Moves limit)
  refl _ := .refl
  trans := .trans
  hears _ h h' := h' = h
  answers r a h h' := match r, a with
    | .stopRequested, yes => h' = h ∧ yes = h.shutdown
    | .startedLeading, _ => Does limit .beginTerm h h'
    | .stoppedLeading, _ => EndsTerm limit h h'
    | _, _ => h' = h
  holds _ := True
  owes r _ h _ := match r with
    | .api (.replaceLease _ spec _) => spec.holder = none → h.Sole ∧ h.Unasked
    | _ => True

theorem newestAlive_iff : h.newestAlive = true ↔ ∃ t : LoopThread, h.threads[0]? = some t ∧ t.alive = true := by
  rw [newestAlive, newest?, List.head?_eq_getElem?, Option.any_eq_true]

/-- What may have become of the threads by themselves. -/
structure Evolves (h h' : Handoff) : Prop where
  ending : h'.ending = h.ending
  remembered : h'.remembered = h.remembered
  shutdown : h.shutdown = true → h'.shutdown = true
  thread : ∀ (n : Nat) (t' : LoopThread), h'.threads[n]? = some t' →
    ∃ t : LoopThread, h.threads[n]? = some t ∧ t'.asked = t.asked ∧ (t.stage = .ended → t'.stage = .ended)

namespace Evolves

theorem refl : h.Evolves h := ⟨rfl, rfl, id, fun _ t' ht => ⟨t', ht, rfl, id⟩⟩

theorem trans {h'' : Handoff} (first : h.Evolves h') (second : h'.Evolves h'') : h.Evolves h'' where
  ending := second.ending.trans first.ending
  remembered := second.remembered.trans first.remembered
  shutdown := second.shutdown ∘ first.shutdown
  thread n t'' ht'' := by
    obtain ⟨t', ht', hasked', hended'⟩ := second.thread n t'' ht''
    obtain ⟨t, ht, hasked, hended⟩ := first.thread n t' ht'
    exact ⟨t, ht, hasked'.trans hasked, hended' ∘ hended⟩

/-- A thread that has not ended comes to another stage. -/
theorem setStage {thread : Nat} {stage : LoopStage} {t : LoopThread} (ht : h.thread? thread = some t)
    (hstage : t.stage ≠ .ended) : h.Evolves (h.setStage thread stage) := by
  have hplaced : h.threads[h.place thread]? = some t := by
    unfold thread? at ht
    split at ht
    · exact ht
    · cases ht
  refine ⟨rfl, rfl, id, fun n t' ht' => ?_⟩
  have hmodify : (h.threads.modify (h.place thread) fun t => { t with stage })[n]? = some t' := ht'
  rw [List.getElem?_modify] at hmodify
  obtain ⟨old, hold, rfl⟩ := Option.map_eq_some_iff.mp hmodify
  refine ⟨old, hold, ?_, fun hended => ?_⟩
  · split <;> rfl
  · split
    · rename_i hplace
      subst hplace
      obtain rfl : t = old := Option.some.inj (hplaced.symm.trans hold)
      exact absurd hended hstage
    · exact hended

theorem newestAlive (hev : h.Evolves h') (halive : h'.newestAlive = true) : h.newestAlive = true := by
  obtain ⟨t', ht', halive'⟩ := newestAlive_iff.mp halive
  obtain ⟨t, ht, -, hended⟩ := hev.thread 0 t' ht'
  refine newestAlive_iff.mpr ⟨t, ht, bne_iff_ne.mpr fun hstage => ?_⟩
  exact bne_iff_ne.mp halive' (hended hstage)

end Evolves

theorem thread?_any {thread : Nat} {stage : LoopStage}
    (hany : (h.thread? thread).any (fun t => decide (t.stage = stage)) = true) :
    ∃ t, h.thread? thread = some t ∧ t.stage = stage := by
  obtain ⟨t, ht, hstage⟩ := (Option.any_eq_true _ _).mp hany
  exact ⟨t, ht, of_decide_eq_true hstage⟩

/-- What a thread does by itself: it comes to another stage, and if it ends then it was asked to or the process is shut
down. -/
theorem outside_cases {a : HandoffAction} (houtside : a.Outside) (hdoes : Does limit a h h') :
    (∃ (thread : Nat) (t : LoopThread) (stage : LoopStage) (shutdown : Bool), h.thread? thread = some t ∧
      t.stage ≠ .ended ∧ (stage = .ended → t.asked = true ∨ shutdown = true) ∧
      (h.shutdown = true → shutdown = true) ∧ h' = { h.setStage thread stage with shutdown }) ∨
    h' = { h with shutdown := true } := by
  obtain ⟨lines, hstep⟩ := hdoes
  cases houtside with
  | loopReturns thread =>
    obtain ⟨hany, heq⟩ := Option.ite_none_right_eq_some.mp hstep
    obtain ⟨t, ht, hstage⟩ := thread?_any hany
    cases heq
    exact .inl ⟨thread, t, .returned, h.shutdown, ht, hstage ▸ nofun, nofun, id, rfl⟩
  | loopCrashes thread =>
    obtain ⟨hany, heq⟩ := Option.ite_none_right_eq_some.mp hstep
    obtain ⟨t, ht, hstage⟩ := thread?_any hany
    cases heq
    exact .inl ⟨thread, t, .alarmed, h.shutdown, ht, hstage ▸ nofun, nofun, id, rfl⟩
  | threadLooks thread =>
    cases ht : h.thread? thread with
    | none => simp [step, ht] at hstep
    | some t =>
      simp only [step, ht, Option.ite_none_right_eq_some] at hstep
      obtain ⟨hstage, heq⟩ := hstep
      unfold look at heq
      split at heq
      · rename_i hquiet
        cases heq
        exact .inl ⟨thread, t, .ended, h.shutdown, ht, hstage ▸ nofun, fun _ => Bool.or_eq_true_iff.mp hquiet, id, rfl⟩
      · cases heq
        exact .inl ⟨thread, t, .alarmed, h.shutdown, ht, hstage ▸ nofun, nofun, id, rfl⟩
  | threadAlarms thread =>
    obtain ⟨hany, heq⟩ := Option.ite_none_right_eq_some.mp hstep
    obtain ⟨t, ht, hstage⟩ := thread?_any hany
    cases heq
    exact .inl ⟨thread, t, .ended, true, ht, hstage ▸ nofun, fun _ => .inr rfl, fun _ => rfl, rfl⟩
  | requestShutdown =>
    cases hstep
    exact .inr rfl

theorem Moves.evolves (hm : Moves limit h h') : h.Evolves h' := by
  obtain ⟨a, houtside, hdoes⟩ := hm
  rcases outside_cases houtside hdoes with ⟨thread, t, stage, shutdown, ht, hstage, -, hkept, rfl⟩ | rfl
  · have hset : h.Evolves (h.setStage thread stage) := .setStage ht hstage
    exact ⟨rfl, rfl, hkept, hset.thread⟩
  · exact ⟨rfl, rfl, fun _ => rfl, fun _ t' ht => ⟨t', ht, rfl, id⟩⟩

theorem evolves_of_moves (hm : ReflTransGen (Moves limit) h h') : h.Evolves h' := by
  induction hm with
  | refl => exact .refl
  | tail _ hmove ih => exact ih.trans hmove.evolves

theorem AllEnded.evolves (hall : h.AllEnded) (hev : h.Evolves h') : h'.AllEnded := by
  intro n t' ht'
  obtain ⟨t, ht, -, hended⟩ := hev.thread n t' ht'
  exact hended (hall n t ht)

theorem AllEnded.not_alive (hall : h.AllEnded) : h.newestAlive ≠ true := by
  intro halive
  obtain ⟨t, ht, halive⟩ := newestAlive_iff.mp halive
  exact bne_iff_ne.mp halive (hall 0 t ht)

theorem Sole.evolves (hsole : h.Sole) (hev : h.Evolves h') : h'.Sole where
  older n t' ht' := by
    obtain ⟨t, ht, -, hended⟩ := hev.thread (n + 1) t' ht'
    exact hended (hsole.older n t ht)
  remembered halive := hev.remembered.trans (hsole.remembered (hev.newestAlive halive))

theorem Unasked.evolves (hunasked : h.Unasked) (hev : h.Evolves h') : h'.Unasked := by
  intro t' ht' halive'
  obtain ⟨t, ht, hasked, hended⟩ := hev.thread 0 t' ht'
  refine hasked.trans (hunasked t ht (bne_iff_ne.mpr fun hstage => ?_))
  exact bne_iff_ne.mp halive' (hended hstage)

theorem AllEnded.sole (hall : h.AllEnded) : h.Sole where
  older n t ht := hall (n + 1) t ht
  remembered halive := absurd halive hall.not_alive

theorem AllEnded.unasked (hall : h.AllEnded) : h.Unasked :=
  fun t ht halive => absurd (hall 0 t ht) (bne_iff_ne.mp halive)

/-- Where only the newest loop is left and that one is gone, all have ended. -/
theorem Sole.allEnded (hsole : h.Sole) (hgone : h.newestAlive ≠ true) : h.AllEnded
  | 0, t, ht => by
    by_contra hstage
    exact hgone (newestAlive_iff.mpr ⟨t, ht, bne_iff_ne.mpr hstage⟩)
  | n + 1, t, ht => hsole.older n t ht

/-- A term may begin when all loops have ended. -/
theorem beginTerm_of_allEnded (hall : h.AllEnded) (hbegin : Does limit .beginTerm h h') :
    h'.ending = .idle ∧ h'.Sole ∧ h'.Unasked := by
  obtain ⟨lines, hstep⟩ := hbegin
  obtain ⟨hidle, heq⟩ := Option.ite_none_right_eq_some.mp hstep
  have hfree : (h.remembered && h.newestAlive) = false := by simp [hall.not_alive]
  unfold beginTerm at heq
  split at heq
  · cases heq
    exact ⟨hidle, hall.sole, hall.unasked⟩
  · rw [hfree] at heq
    cases heq
    refine ⟨hidle, ⟨fun n t ht => hall n t ht, fun _ => rfl⟩, fun t ht _ => ?_⟩
    cases ht
    rfl

theorem Sole.clearReady (hsole : h.Sole) (hdoes : Does limit .clearReady h h') : h'.Sole := by
  obtain ⟨lines, hstep⟩ := hdoes
  obtain ⟨-, heq⟩ := Option.ite_none_right_eq_some.mp hstep
  cases heq
  exact ⟨hsole.older, hsole.remembered⟩

theorem Sole.requestStop (hsole : h.Sole) (hdoes : Does limit .requestStop h h') : h'.Sole := by
  obtain ⟨lines, hstep⟩ := hdoes
  obtain ⟨-, heq⟩ := Option.ite_none_right_eq_some.mp hstep
  cases heq
  exact ⟨hsole.older, hsole.remembered⟩

/-- Asking the newest loop to stop does not end it. -/
theorem Sole.signalStop (hsole : h.Sole) (hdoes : Does limit .signalStop h h') : h'.Sole := by
  obtain ⟨lines, hstep⟩ := hdoes
  obtain ⟨-, heq⟩ := Option.ite_none_right_eq_some.mp hstep
  obtain ⟨older, remembered⟩ := hsole
  cases heq
  obtain ⟨ready, shutdown, requests, threads, isRemembered, ending⟩ := h
  cases threads with
  | nil => exact ⟨nofun, remembered⟩
  | cons newest rest => exact ⟨older, remembered⟩

/-- At the end of a term either all loops have ended or the process is shut down. -/
theorem EndsTerm.settled (hsole : h.Sole) (hends : EndsTerm limit h h') :
    h'.ending = .idle ∧ (h'.AllEnded ∨ h'.shutdown = true) := by
  obtain ⟨h₁, h₂, h₃, h₄, h₅, h₆, hclear, hmove₁, hrequest, hmove₂, hsignal, hmove₃, hlast⟩ := hends
  have hsole₂ : h₂.Sole := (hsole.clearReady hclear).evolves (evolves_of_moves hmove₁)
  have hsole₄ : h₄.Sole := (hsole₂.requestStop hrequest).evolves (evolves_of_moves hmove₂)
  have hsole₆ : h₆.Sole := (hsole₄.signalStop hsignal).evolves (evolves_of_moves hmove₃)
  rcases hlast with ⟨lines, hstep⟩ | ⟨lines, hstep⟩
  · obtain ⟨hcond, heq⟩ := Option.ite_none_right_eq_some.mp hstep
    cases heq
    have hgone : h₆.newestAlive ≠ true := fun halive => by simp [halive, hsole₆.remembered halive] at hcond
    exact ⟨rfl, .inl (hsole₆.allEnded hgone)⟩
  · obtain ⟨-, heq⟩ := Option.ite_none_right_eq_some.mp hstep
    cases heq
    exact ⟨rfl, .inr rfl⟩

open Conduct (Stage)

variable (limit) in
/-- No term has begun, or the last one has ended. -/
def between : Stage (conduct limit) where
  knows h := h.ending = .idle ∧ h.AllEnded
  stays hk hm := ⟨(evolves_of_moves hm).ending.trans hk.1, hk.2.evolves (evolves_of_moves hm)⟩
  holds _ := trivial

variable (limit) in
/-- The last term has ended, but perhaps not its loop: then the process is shut down. -/
def after : Stage (conduct limit) where
  knows h := h.ending = .idle ∧ (h.AllEnded ∨ h.shutdown = true)
  stays hk hm := ⟨(evolves_of_moves hm).ending.trans hk.1,
    hk.2.imp (·.evolves (evolves_of_moves hm)) (evolves_of_moves hm).shutdown⟩
  holds _ := trivial

variable (limit) in
def anything : Stage (conduct limit) where
  knows _ := True
  stays _ _ := trivial
  holds _ := trivial

variable (limit) in
/-- A term has begun, and its loop has not been asked to stop. -/
def within : Stage (conduct limit) where
  knows h := h.ending = .idle ∧ h.Sole ∧ h.Unasked
  stays hk hm := ⟨(evolves_of_moves hm).ending.trans hk.1, hk.2.1.evolves (evolves_of_moves hm),
    hk.2.2.evolves (evolves_of_moves hm)⟩
  holds _ := trivial

/-- A request that neither begins nor ends a term and does not give the lease up. -/
def Plain : Request → Prop
  | .startedLeading | .stoppedLeading => False
  | .api (.replaceLease _ spec _) => spec.holder ≠ none
  | _ => True

theorem Plain.answers {r : Request} {a : r.Answer} (hr : Plain r) (ha : (conduct limit).answers r a h h') :
    h' = h ∧ (conduct limit).owes r a h h' := by
  cases r with
  | api call =>
    cases call with
    | replaceLease lease spec version => exact ⟨ha, fun hnone => absurd hnone hr⟩
    | _ => exact ⟨ha, trivial⟩
  | stopRequested => exact ⟨ha.1, trivial⟩
  | startedLeading => exact hr.elim
  | stoppedLeading => exact hr.elim
  | _ => exact ⟨ha, trivial⟩

/-- What does nothing else keeps every stage. -/
theorem leads_of_within {α : Type} {x : Session α} (hx : x.Within Plain) (stage : Stage (conduct limit)) :
    (conduct limit).Leads stage x fun _ => stage := by
  intro h hk
  induction x generalizing h with
  | done a => exact fun h' hm => ⟨trivial, stage.stays hk hm⟩
  | tell note next ih =>
    refine fun h' hm => ⟨trivial, fun h'' heard => ih hx.2 h'' ?_⟩
    obtain rfl : h'' = h' := heard
    exact stage.stays hk hm
  | ask r next ih =>
    refine fun h' hm => ⟨trivial, fun a h'' ha => ?_⟩
    obtain ⟨rfl, howed⟩ := hx.1.answers ha
    exact ⟨howed, ih a (hx.2 a) _ (stage.stays hk hm)⟩

theorem leads_plain_bind {α β : Type} {x : Session α} {f : α → Session β} {stage : Stage (conduct limit)}
    {last : β → Stage (conduct limit)} (hx : x.Within Plain) (hf : ∀ a, (conduct limit).Leads stage (f a) last) :
    (conduct limit).Leads stage (x >>= f) last :=
  (leads_of_within hx stage).bind hf

theorem leads_startedLeading {β : Type} {f : Unit → Session β} {last : β → Stage (conduct limit)}
    (hf : (conduct limit).Leads (within limit) (f ()) last) :
    (conduct limit).Leads (between limit) (Session.request .startedLeading >>= f) last :=
  .request_bind (fun _ _ _ hk hbegin => ⟨trivial, beginTerm_of_allEnded hk.2 hbegin⟩) fun _ => hf

theorem leads_stoppedLeading {β : Type} {f : Unit → Session β} {last : β → Stage (conduct limit)}
    (hf : (conduct limit).Leads (after limit) (f ()) last) :
    (conduct limit).Leads (within limit) (Session.request .stoppedLeading >>= f) last :=
  .request_bind (fun _ _ _ hk hends => ⟨trivial, hends.settled hk.2.1⟩) fun _ => hf

end Handoff

namespace Elector

open Handoff

variable {limit : Int} {e : Elector}

theorem create_plain (now : Int) : (e.create now).run.Within Plain := by
  refine Attempt.within_bind ⟨trivial, fun _ => trivial⟩ fun reply => ?_
  cases reply with
  | ok _ => exact ⟨trivial, trivial⟩
  | error failure =>
    cases failure with
    | refused status reason =>
      dsimp only
      split
      · exact ⟨trivial, trivial⟩
      · trivial
    | _ => trivial

/-- A lease that is claimed gets a holder. -/
theorem claim_plain (lease : Lease) (now : Int) : (e.claim lease now).run.Within Plain := by
  refine Attempt.within_bind ⟨nofun, fun _ => trivial⟩ fun reply => ?_
  cases reply with
  | ok _ => trivial
  | error failure =>
    cases failure with
    | refused status reason =>
      dsimp only
      split
      · exact ⟨trivial, trivial⟩
      · trivial
    | _ => trivial

theorem cycle_plain : e.cycle.run.Within Plain := by
  refine Attempt.within_bind (Attempt.within_wallTime trivial) fun now => ?_
  refine Attempt.within_bind ⟨trivial, fun _ => trivial⟩ fun reply => ?_
  cases reply with
  | ok lease =>
    dsimp only
    split
    · trivial
    · exact claim_plain lease now
  | error failure =>
    cases failure with
    | refused status reason =>
      dsimp only
      split
      · exact create_plain now
      · exact ⟨trivial, trivial⟩
    | _ => trivial

theorem holdsLease_plain : e.holdsLease.Within Plain := by
  refine cycle_plain.bind fun r => ?_
  cases r with
  | ok held => trivial
  | error fault => exact ⟨trivial, trivial⟩

variable (limit) in
/-- What the process knows in a cycle of the campaign. -/
def campaigning (leading : Bool) : Conduct.Stage (conduct limit) := if leading then within limit else between limit

variable (limit) in
/-- What it knows between two cycles. -/
def resting (leading : Bool) : Conduct.Stage (conduct limit) := if leading then within limit else after limit

theorem transition_plain (leading : Bool) : (transition leading).Within Plain := ⟨trivial, trivial, trivial⟩

theorem afterSuccess_leads (s : Standing) :
    (conduct limit).Leads (campaigning limit s.leading) (e.afterSuccess s) fun s' => resting limit s'.leading := by
  obtain ⟨leading, renewed⟩ := s
  refine leads_plain_bind ⟨trivial, fun _ => trivial⟩ fun now => ?_
  cases leading with
  | false =>
    refine leads_plain_bind ⟨trivial, trivial⟩ fun _ => leads_plain_bind (transition_plain true) fun _ => ?_
    exact leads_startedLeading (.pure fun _ hk => hk)
  | true => exact .pure fun _ hk => hk

theorem afterFailure_leads (s : Standing) :
    (conduct limit).Leads (campaigning limit s.leading) (e.afterFailure s) fun s' => resting limit s'.leading := by
  obtain ⟨leading, renewed⟩ := s
  cases leading with
  | false => exact .pure fun _ hk => ⟨hk.1, .inl hk.2⟩
  | true =>
    refine leads_plain_bind ⟨trivial, fun _ => trivial⟩ fun now => ?_
    dsimp only
    split
    · refine leads_plain_bind ⟨trivial, trivial⟩ fun _ => leads_plain_bind (transition_plain false) fun _ => ?_
      exact leads_stoppedLeading (.pure fun _ hk => hk)
    · exact leads_plain_bind ⟨trivial, trivial⟩ fun _ => .pure fun _ hk => hk

theorem campaignStep_leads (s : Standing) :
    (conduct limit).Leads (campaigning limit s.leading) (e.campaignStep s) fun s' => resting limit s'.leading := by
  have hpause (s' : Standing) : (conduct limit).Leads (resting limit s'.leading)
      (do Session.request (.pause (1000 * e.retryPeriod)); return s') fun s' => resting limit s'.leading :=
    leads_plain_bind ⟨trivial, fun _ => trivial⟩ fun _ => .pure fun _ hk => hk
  refine leads_plain_bind holdsLease_plain fun held => ?_
  cases held with
  | false => exact (afterFailure_leads s).bind hpause
  | true => exact (afterSuccess_leads s).bind hpause

/-- Giving the lease up owes that only a loop which was not asked is left. -/
theorem release_leads : (conduct limit).Leads (within limit) e.release fun _ => within limit := by
  have hwarning : (release.failed e).Within Plain := ⟨trivial, trivial⟩
  have hfailed : (conduct limit).Leads (within limit) (release.failed e) fun _ => within limit :=
    leads_of_within hwarning _
  have hread : (Session.call (.readLease e.lease)).Within Plain := ⟨trivial, fun _ => trivial⟩
  refine leads_plain_bind hread fun reply => ?_
  cases reply with
  | error failure => exact hfailed
  | ok lease =>
    dsimp only
    split
    · exact .pure fun _ hk => hk
    split
    · rename_i spec _ _
      have hasked (reply : Except CallFailure Unit) (h h' : Handoff) (hk : within limit h)
          (ha : (conduct limit).answers (.api (.replaceLease e.lease { spec with holder := none } lease.version))
            reply h h') : ((none : Option String) = none → h.Sole ∧ h.Unasked) ∧ within limit h' := by
        obtain rfl : h' = h := ha
        exact ⟨fun _ => hk.2, hk⟩
      refine .request_bind hasked fun reply => ?_
      cases reply with
      | ok _ =>
        have hinfo : (Session.info s!"Released leader lease {e.lease.name}").Within Plain := ⟨trivial, trivial⟩
        exact leads_of_within hinfo _
      | error failure => exact hfailed
    · exact .pure fun _ hk => hk

/-- The lease is given up before the term is ended. -/
theorem resign_leads (s : Standing) :
    (conduct limit).Leads (resting limit s.leading) (e.resign s) fun _ => after limit := by
  obtain ⟨leading, renewed⟩ := s
  cases leading with
  | false => exact .pure fun _ hk => hk
  | true =>
    refine release_leads.bind fun _ => leads_plain_bind (transition_plain false) fun _ => ?_
    exact leads_stoppedLeading (.pure fun _ hk => hk)

theorem campaignFrom_leads (n : Nat) (s : Standing) :
    (conduct limit).Leads (resting limit s.leading) (e.campaignFrom n s) fun _ => anything limit := by
  induction n generalizing s with
  | zero => exact .pure fun _ _ => trivial
  | succ n ih =>
    have hasked (stop : Bool) (h h' : Handoff) (hk : resting limit s.leading h)
        (ha : (conduct limit).answers .stopRequested stop h h') :
        True ∧ (if stop then resting limit s.leading else campaigning limit s.leading) h' := by
      obtain ⟨rfl, rfl⟩ := ha
      refine ⟨trivial, ?_⟩
      cases hstop : h'.shutdown with
      | true => exact hk
      | false =>
        cases hleading : s.leading with
        | true => simpa [hleading, resting, campaigning] using hk
        | false =>
          rw [hleading] at hk
          exact ⟨hk.1, hk.2.resolve_right (by simp [hstop])⟩
    refine .request_bind hasked fun stop => ?_
    cases stop with
    | true => exact (resign_leads s).bind fun _ => .pure fun _ _ => trivial
    | false => exact (campaignStep_leads s).bind fun s' => ih s'

theorem serve_leads (n : Nat) : (conduct limit).Leads (between limit) (e.serve n) fun _ => anything limit := by
  have hcampaign : (conduct limit).Leads (between limit) (e.campaignFor n false) fun _ => anything limit := by
    refine leads_plain_bind ⟨trivial, trivial⟩ fun _ => leads_plain_bind ⟨trivial, trivial⟩ fun _ => ?_
    refine leads_plain_bind ⟨trivial, fun _ => trivial⟩ fun now => ?_
    exact (campaignFrom_leads n ⟨false, now⟩).mono (fun _ hk => ⟨hk.1, .inl hk.2⟩) fun _ _ _ => trivial
  have hlast (u : Unit) (h h' : Handoff) (_ : anything limit h) (_ : (conduct limit).answers .stoppedLeading u h h') :
      True ∧ anything limit h' := ⟨trivial, trivial⟩
  refine hcampaign.bind fun last => ?_
  cases last with
  | none => exact .pure fun _ _ => trivial
  | some s => exact .request_bind hlast fun _ => .pure fun _ _ => trivial

/-- Whatever happened before: when a process gives its lease up, the loops of all earlier terms have ended, and the
newest one, unless it has ended by itself, has not been asked to stop. So a loop runs then just if the newest does. -/
theorem loops_at_release {n : Nat} {lease : LeaseName} {spec : LeaseSpec} {version : String}
    {next : Except CallFailure Unit → Session (Option Standing)} {h : Handoff}
    (hr : (e.serve n).Reaches (conduct limit) {} (.ask (.api (.replaceLease lease spec version)) next) h)
    (hgiven : spec.holder = none) :
    (∀ t ∈ h.threads.tail, t.stage = .ended) ∧ (∀ t ∈ h.newest?, t.alive = true → t.asked = false) ∧
      ((∃ t ∈ h.threads, t.stage = .running) ↔ ∃ t ∈ h.newest?, t.stage = .running) := by
  have hbegin : between limit {} := ⟨rfl, fun _ _ ht => nomatch ht⟩
  have hupholds := (serve_leads n {} hbegin).reaches hr
  obtain ⟨hsole, hunasked⟩ : h.Sole ∧ h.Unasked := ((hupholds h .refl).2 (.ok ()) h rfl).1 hgiven
  have holder (t : LoopThread) (ht : t ∈ h.threads.tail) : t.stage = .ended := by
    obtain ⟨n, hn⟩ := List.mem_iff_getElem?.mp ht
    rw [List.getElem?_tail] at hn
    exact hsole.older n t hn
  refine ⟨holder, fun t ht => hunasked t (List.head?_eq_getElem?.symm.trans ht), ?_⟩
  constructor
  · rintro ⟨t, ht, hrunning⟩
    cases hthreads : h.threads with
    | nil =>
      rw [hthreads] at ht
      cases ht
    | cons newest rest =>
      rw [hthreads] at ht
      rcases List.mem_cons.mp ht with rfl | hrest
      · exact ⟨t, by rw [newest?, hthreads]; rfl, hrunning⟩
      · cases hrunning.symm.trans (holder t (by rwa [hthreads]))
  · rintro ⟨t, ht, hrunning⟩
    exact ⟨t, List.mem_of_head? ht, hrunning⟩

section Overlap

private def quick : Elector := ⟨⟨"space", "lease"⟩, "a", 15, 10, 2, by decide, by decide, by decide⟩

private def taken : LeaseSpec := ⟨some "a", some 15, some 0, some 0⟩

private def busy : Handoff := { ready := true, threads := [⟨false, .running⟩], remembered := true }

/-- There is no lease yet, so it is created and a term begins. -/
private theorem quick_takes : Session.Plays (conduct 45) (quick.campaignStep ⟨false, 0⟩) {} ⟨true, 0⟩ busy := by
  have hcycle : Session.Plays (conduct 45) quick.holdsLease {} true {} :=
    .ask (.ok 0) rfl (.ask (.error (.refused (some 404) none)) rfl (.ask (.ok ()) rfl (.tell rfl (.done _ _))))
  have hbegin : (conduct 45).answers .startedLeading () {} busy := ⟨_, rfl⟩
  exact hcycle.bind (.ask 0 rfl (.tell rfl (.tell rfl (.tell rfl (.ask () hbegin (.ask () rfl (.done _ _)))))))

private theorem quick_reaches : ∃ next, (quick.serve 2).Reaches (conduct 45) {}
    (.ask (.api (.replaceLease quick.lease { taken with holder := none } "1")) next)
    { busy with shutdown := true } := by
  have hbegun : (quick.campaignFor 2 false).Reaches (conduct 45) {} (quick.campaignFrom 2 ⟨false, 0⟩) {} :=
    ((Session.Reaches.start.tell rfl).tell rfl).ask 0 rfl
  have hstep : (quick.campaignFor 2 false).Reaches (conduct 45) {}
      (quick.campaignStep ⟨false, 0⟩ >>= quick.campaignFrom 1) {} := hbegun.ask false ⟨rfl, rfl⟩
  have hterm : (quick.campaignFor 2 false).Reaches (conduct 45) {} (quick.campaignFrom 1 ⟨true, 0⟩) busy :=
    hstep.plays quick_takes
  have hshutdown : Relation.ReflTransGen (Moves 45) busy { busy with shutdown := true } :=
    .single ⟨.requestShutdown, .requestShutdown, [], rfl⟩
  have hresigns := (hterm.wait hshutdown).ask true ⟨rfl, rfl⟩
  have hread := hresigns.ask (.ok ⟨some taken, "1"⟩) rfl
  exact ⟨_, hread.bind _⟩

/-- A leader that is shut down clears the holder of its lease while its loop runs. -/
theorem released_while_running : ∃ (e : Elector) (limit : Int) (n : Nat) (lease : LeaseName) (spec : LeaseSpec)
    (version : String) (next : Except CallFailure Unit → Session (Option Standing)) (h : Handoff),
    (e.serve n).Reaches (conduct limit) {} (.ask (.api (.replaceLease lease spec version)) next) h ∧
      spec.holder = none ∧ ∃ t ∈ h.threads, t.stage = .running := by
  obtain ⟨next, hreaches⟩ := quick_reaches
  exact ⟨quick, 45, 2, _, _, _, next, _, hreaches, rfl, _, List.mem_cons_self, rfl⟩

/-- There the theorem says that the loop has not even been asked to stop. -/
theorem loops_at_release_running : ∃ (e : Elector) (limit : Int) (n : Nat) (lease : LeaseName) (spec : LeaseSpec)
    (version : String) (next : Except CallFailure Unit → Session (Option Standing)) (h : Handoff),
    (e.serve n).Reaches (conduct limit) {} (.ask (.api (.replaceLease lease spec version)) next) h ∧
      spec.holder = none ∧ ∀ t ∈ h.newest?, t.alive = true → t.asked = false := by
  obtain ⟨next, hreaches⟩ := quick_reaches
  exact ⟨quick, 45, 2, _, _, _, next, _, hreaches, rfl, (loops_at_release hreaches rfl).2.1⟩

end Overlap

end Elector
end NamespaceOwnership
