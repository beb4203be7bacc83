import NamespaceOwnership.Proofs.Ledger.Tally
import NamespaceOwnership.Proofs.Mapping.Releases

/-!
# What a mapping counts

The guard records what it decides on a feature, and does so again whenever an update is attempted again. What stands
recorded in the end belongs to the attempt whose patch was accepted, because each attempt decides on the same
features (`Mapper.consulted_decides`). So the claims that are counted are the labels that the patch sets.
-/
namespace NamespaceOwnership

open Session (Runs)

/-- The decision on a feature is that it is the DynaKube's already, or that it is not. -/
def Decides (held : Bool) (f : Feature) (decision : Feature × Resolution) : Bool :=
  decision.1 == f && (decision.2 == .alreadyOwned) == held

def Memory.decided (st : Memory) (held : Bool) (f : Feature) : Nat := st.decisions.countP (Decides held f)

theorem Memory.decided_decide (st : Memory) (f g : Feature) (r : Resolution) (held : Bool) :
    (st.decide f r).decided held g =
      if g = f then (if (r == .alreadyOwned) = held then 1 else 0) else st.decided held g := by
  unfold decided Memory.decide
  rw [List.countP_append, List.countP_filter]
  by_cases hg : g = f
  · subst hg
    have hothers : st.decisions.countP (fun d => Decides held g d && d.1 != g) = 0 := by
      refine List.countP_eq_zero.mpr fun d _ hd => ?_
      simp only [Decides, Bool.and_eq_true, beq_iff_eq, bne_iff_ne] at hd
      exact hd.2 hd.1.1
    rw [hothers, if_pos rfl]
    by_cases hr : (r == .alreadyOwned) = held <;> simp [Decides, hr]
  · have hothers : st.decisions.countP (fun d => Decides held g d && d.1 != f) = st.decisions.countP (Decides held g) := by
      refine List.countP_congr fun d _ => ?_
      simp only [Decides, Bool.and_eq_true, beq_iff_eq, bne_iff_ne, and_iff_left_iff_imp]
      rintro ⟨rfl, -⟩
      exact hg
    rw [hothers, if_neg hg]
    simp [Decides, Ne.symm hg]

namespace DynaKubes

theorem get?_discreet (name : Value) : (get? name).run.Discreet := by
  refine Attempt.discreet_bind ⟨rfl, fun reply => trivial⟩ fun reply => ?_
  cases reply with
  | ok object =>
    dsimp only
    unfold read
    cases DynaKube.ofObject object <;> trivial
  | error failure =>
    by_cases h404 : failure.status? = some 404
    · simp only [h404, if_true]
      trivial
    · simp only [h404, if_false]
      trivial

end DynaKubes

namespace Mapper

open Ledger
open Reckoned (additive)

variable {i : Interference} {c c' : Cluster} {tr : List Event} {m : Mapper} {self space : String}
  {features : List Feature} {deadline : Option Int} {st st' : Memory}

theorem peer_discreet (name : String) (st : Memory) : ((peer name).run st).run.Discreet := by
  refine Attempt.discreet_state_bind trivial fun known st => ?_
  cases known.peers.lookup name with
  | some found => trivial
  | none =>
    exact Attempt.discreet_state_bind (Attempt.discreet_state_lift (DynaKubes.get?_discreet _)) fun _ _ => trivial

theorem judge_discreet (f : Feature) (owner : Option String) (labels : Labels) (st : Memory) :
    ((m.judge self space f owner labels).run st).run.Discreet := by
  refine Attempt.discreet_state_bind ?_ fun live st => ?_
  · cases owner with
    | none => trivial
    | some other =>
      unfold liveOwner
      by_cases hself : other = self
      · simp only [hself, if_true]
        trivial
      simp only [hself, if_false]
      refine Attempt.discreet_state_bind (peer_discreet other st) fun found st => ?_
      cases found with
      | none => trivial
      | some d =>
        dsimp only
        cases d.enables f with
        | false => trivial
        | true => cases m.holdsOn (d.selectorFor f) space labels <;> trivial
  · by_cases hconflict : resolve live self = .conflict
    · simp only [hconflict, if_true]
      exact ⟨trivial, trivial⟩
    · simp only [hconflict, if_false]
      cases owner <;> cases live <;> trivial

theorem list_discreet : m.ledger.list.run.Discreet := ⟨rfl, fun reply => by cases reply <;> trivial⟩

/-- To look up an owner is not to decide. -/
theorem peer_decisions {name : String} {found : Option DynaKube}
    (h : Runs i ((peer name).run st).run c tr (.ok (found, st')) c') : st'.decisions = st.decisions := by
  have hrun := Attempt.runs_state_get_bind.mp h
  cases hl : st.peers.lookup name with
  | some known =>
    simp only [hl] at hrun
    obtain ⟨-, hr, -⟩ := Attempt.runs_state_pure.mp hrun
    cases hr
    rfl
  | none =>
    simp only [hl] at hrun
    rcases Attempt.runs_state_lift_bind.mp hrun with ⟨fault, hf, -⟩ | ⟨tr₁, v, c₁, tr₂, rfl, -, hrest⟩
    · cases hf
    rcases Attempt.runs_state_bind.mp hrest with ⟨fault, hf, -⟩ | ⟨tr₃, _, st₁, c₂, tr₄, rfl, hmodify, hend⟩
    · cases hf
    obtain ⟨-, hst, -⟩ := Attempt.runs_state_modify.mp hmodify
    cases hst
    obtain ⟨-, hr, -⟩ := Attempt.runs_state_pure.mp hend
    cases hr
    rfl

/-- An owner is found to be the DynaKube itself exactly where the label says so. -/
theorem liveOwner_own {f : Feature} {owner live : Option String} {labels : Labels}
    (h : Runs i ((m.liveOwner self owner f space labels).run st).run c tr (.ok (live, st')) c') :
    (live = some self ↔ owner = some self) ∧ st'.decisions = st.decisions := by
  cases owner with
  | none =>
    obtain ⟨-, hr, -⟩ := liveOwner_runs_free h
    cases hr
    simp
  | some other =>
    by_cases hself : other = self
    · subst hself
      obtain ⟨-, hr, -⟩ := liveOwner_runs_self h
      cases hr
      simp
    · rcases liveOwner_runs hself h with ⟨fault, hf, -⟩ | ⟨found, st₁, hpeer, hr⟩
      · cases hf
      cases hverdict : m.verdict other f space labels found with
      | error fault =>
        rw [hverdict] at hr
        cases hr
      | ok v =>
        rw [hverdict] at hr
        cases hr
        refine ⟨?_, peer_decisions hpeer⟩
        rcases verdict_ok hverdict with rfl | rfl <;> simp [hself]

/-- The feature that the guard was shown is decided on, and the others are as before. -/
theorem judge_decides {f : Feature} {owner : Option String} {labels : Labels}
    (h : Runs i ((m.judge self space f owner labels).run st).run c tr (.ok ((), st')) c') (held : Bool) (g : Feature) :
    st'.decided held g =
      if g = f then (if decide (owner = some self ∧ self ≠ "") = held then 1 else 0) else st.decided held g := by
  rcases judge_runs h with ⟨fault, hf, -⟩ | ⟨live, st₁, tr₁, tr₂, rfl, -, hlive, hr⟩
  · cases hf
  by_cases hconflict : resolve live self = .conflict
  · rw [if_pos hconflict] at hr
    cases hr
  rw [if_neg hconflict] at hr
  cases hr
  obtain ⟨hown, hdecisions⟩ := liveOwner_own hlive
  have hsame : st₁.decided held g = st.decided held g := by rw [Memory.decided, hdecisions, Memory.decided]
  have hheld : (resolve live self == .alreadyOwned) = decide (owner = some self ∧ self ≠ "") := by
    rw [Bool.beq_eq_decide_eq]
    exact decide_eq_decide.mpr (resolve_eq_alreadyOwned_iff.trans (and_congr_left' hown))
  rw [Memory.decided_decide, hsame, hheld]

/-- Whatever stood recorded before, each feature that the guard was shown is decided on by its label. -/
theorem consulted_decides {labels : Labels}
    (h : Consulted i (m.judge self space) labels features st c tr st' c') (held : Bool) (f : Feature) :
    st'.decided held f =
      if f ∈ features then (if decide (Labels.owner? labels f = some self) = held then 1 else 0)
      else st.decided held f := by
  have howner (f : Feature) : (Labels.owner? labels f = some self ∧ self ≠ "") ↔ Labels.owner? labels f = some self :=
    and_iff_left_of_imp fun hsome => (Labels.owner?_eq_some_iff.mp hsome).2
  induction h with
  | nil => rfl
  | @cons g rest st st₁ st₂ c c₁ c₂ tr₁ tr₂ shown _ ih =>
    rw [ih, judge_decides shown]
    simp only [howner]
    by_cases hrest : f ∈ rest
    · simp [hrest]
    · by_cases hf : f = g
      · subst hf
        simp [hrest]
      · simp [hrest, hf]

/-- No attempt decides on a feature that is not claimed. -/
theorem guarded_decides {labels : Labels} {annotations : Annotations} {new : Labels × Annotations} {held : Bool}
    (hst : ∀ f, f ∉ features → st.decided held f = 0)
    (h : Runs i ((guarded m self space features labels annotations).run st).run c tr (.ok (new, st')) c') :
    ∀ f, f ∉ features → st'.decided held f = 0 := by
  obtain ⟨v, hconsult, hv⟩ := claim_runs h
  cases v with
  | error fault => cases hv
  | ok p =>
    cases hv
    intro f hf
    rw [consulted_decides (consult_runs hconsult), if_neg hf, hst f hf]

/-- What is noted and returned of some decisions: a claim that stands already is reaffirmed, and any other is accepted if
the update was. -/
inductive Concluded (written : Bool) :
    List (Feature × Resolution) → List Event → List Feature × List Feature → Prop where
  | nil : Concluded written [] [] ([], [])
  | held {f : Feature} {rest : List (Feature × Resolution)} {tr : List Event} {accepted reaffirmed : List Feature}
      {text : String} (later : Concluded written rest tr (accepted, reaffirmed)) :
      Concluded written ((f, .alreadyOwned) :: rest)
        (.told (.log .debug text) :: .told (.count (.claims f .reaffirmed)) :: tr) (accepted, f :: reaffirmed)
  | gained {f : Feature} {r : Resolution} {rest : List (Feature × Resolution)} {tr : List Event}
      {accepted reaffirmed : List Feature} {text : String} (new : r ≠ .alreadyOwned) (success : written = true)
      (later : Concluded written rest tr (accepted, reaffirmed)) :
      Concluded written ((f, r) :: rest)
        (.told (.log .info text) :: .told (.count (.claims f .accepted)) :: tr) (f :: accepted, reaffirmed)
  | vain {f : Feature} {r : Resolution} {rest : List (Feature × Resolution)} {tr : List Event}
      {result : List Feature × List Feature} (new : r ≠ .alreadyOwned) (failure : written = false)
      (later : Concluded written rest tr result) : Concluded written ((f, r) :: rest) tr result

theorem settle_runs {written : Bool} {decisions : List (Feature × Resolution)} {r : List Feature × List Feature}
    (h : Runs i (settle self space written decisions) c tr r c') : Concluded written decisions tr r := by
  induction decisions generalizing c tr r c' with
  | nil =>
    obtain ⟨rfl, rfl, -⟩ := Session.runs_done.mp h
    exact .nil
  | cons decision rest ih =>
    -- a decision that is counted is noted twice before the others
    have htwo {level : LogLevel} {text : String} {counter : Counter}
        {g : List Feature × List Feature → List Feature × List Feature}
        (hrun : Runs i (do
          Session.log level text
          Session.count counter
          return g (← settle self space written rest)) c tr r c') :
        ∃ tr' later, tr = .told (.log level text) :: .told (.count counter) :: tr' ∧ r = g later ∧
          Concluded written rest tr' later := by
      obtain ⟨_, rfl, hnext⟩ := Session.runs_tell.mp hrun
      obtain ⟨_, rfl, hrest⟩ := Session.runs_tell.mp hnext
      have hrest : Runs i (settle self space written rest >>= fun later => pure (g later)) c _ r c' := hrest
      obtain ⟨tr', later, c₁, _, rfl, hlater, hdone⟩ := Session.runs_bind.mp hrest
      obtain ⟨rfl, rfl, -⟩ := Session.runs_done.mp hdone
      exact ⟨tr', later, by rw [List.append_nil], rfl, ih hlater⟩
    obtain ⟨f, resolution⟩ := decision
    by_cases hheld : resolution = .alreadyOwned
    · subst hheld
      obtain ⟨tr', later, rfl, rfl, hlater⟩ := htwo (g := fun later => (later.1, f :: later.2)) h
      exact .held hlater
    cases written with
    | true =>
      have hrun : Runs i (do
          Session.log .info s!"Namespace {space} claimed by {self} for {f.name}"
          Session.count (.claims f .accepted)
          return (fun later => (f :: later.1, later.2)) (← settle self space true rest)) c tr r c' := by
        cases resolution with
        | alreadyOwned => exact absurd rfl hheld
        | _ => exact h
      obtain ⟨tr', later, rfl, rfl, hlater⟩ := htwo hrun
      exact .gained hheld rfl hlater
    | false =>
      have hrun : Runs i (settle self space false rest) c tr r c' := by
        cases resolution with
        | alreadyOwned => exact absurd rfl hheld
        | _ => exact h
      exact .vain hheld rfl (ih hrun)

namespace Concluded

variable {written : Bool} {decisions : List (Feature × Resolution)} {r : List Feature × List Feature}

/-- What was decided is counted, if it was written. -/
theorem tallies (h : Concluded written decisions tr r) :
    Tallies (fun f => if written then decisions.countP (Decides false f) else 0) (fun _ => 0) tr := by
  induction h with
  | nil => exact ⟨.nil, fun f => by simp, fun f => rfl, rfl⟩
  | held _ ih =>
    refine ⟨((OnlyNotes.single _).append (.single _)).append ih.notes, fun f => ?_, fun f => ?_, ?_⟩
    · simpa [Event.act, Decides] using ih.claims f
    · simpa [Event.act] using ih.releases f
    · simpa [Event.act] using ih.retries
  | @gained g r _ _ _ _ _ new success _ ih =>
    subst success
    refine ⟨((OnlyNotes.single _).append (.single _)).append ih.notes, fun f => ?_, fun f => ?_, ?_⟩
    · have hclaims := ih.claims f
      rw [if_pos rfl] at hclaims ⊢
      by_cases hf : g = f <;> simp [Event.act, Decides, hclaims, hf, new, Nat.add_comm]
    · simpa [Event.act] using ih.releases f
    · simpa [Event.act] using ih.retries
  | vain new failure _ ih =>
    subst failure
    exact ih

/-- What is counted is what is returned. -/
theorem counted (h : Concluded written decisions tr r) (f : Feature) :
    NamespaceOwnership.counted (.claims f .accepted) (tr.map Event.act) = r.1.count f ∧
      NamespaceOwnership.counted (.claims f .reaffirmed) (tr.map Event.act) = r.2.count f := by
  induction h with
  | nil => exact ⟨rfl, rfl⟩
  | vain _ _ _ ih => exact ih
  | @held g _ _ _ _ _ _ ih | @gained g _ _ _ _ _ _ _ _ _ ih =>
    by_cases hf : g = f
    · simp [Event.act, ih.1, ih.2, hf, Nat.add_comm]
    · simp [Event.act, ih.1, ih.2, hf]

/-- What stands already is reaffirmed, whether anything was written or not. -/
theorem reaffirmed (h : Concluded written decisions tr r) (f : Feature) :
    r.2.count f = decisions.countP (Decides true f) := by
  induction h with
  | nil => rfl
  | @held g _ _ _ _ _ _ ih =>
    by_cases hf : g = f
    · simp [Decides, ih, hf]
    · simp [Decides, ih, hf]
  | gained new success _ ih => simp [Decides, ih, new]
  | vain new failure _ ih => simp [Decides, ih, new]

theorem accepted_eq_nil (h : Concluded false decisions tr r) : r.1 = [] := by
  induction h with
  | nil => rfl
  | held _ ih => exact ih
  | gained _ success _ _ => cases success
  | vain _ _ _ ih => exact ih

end Concluded

/-- The labels that a claim sets are counted. -/
theorem claimOne_reckoned (hself : self ≠ "") :
    ((m.claimOne self deadline space features).run st).run.Traces i Reckoned := by
  intro c tr r c' h
  rcases claimOne_runs h with ⟨fault, rfl, hwrite⟩ | ⟨tr₁, written, st₂, tr₂, v, rfl, rfl, hwrite, hnotes⟩
  · obtain ⟨hunclaimed, hnone⟩ := write_tally judge_discreet hwrite
    exact hunclaimed.reckoned hnone
  have htallies := (settle_runs hnotes).tallies
  obtain ⟨hunclaimed, hwritten⟩ := write_tally judge_discreet hwrite
  cases written with
  | false => exact hunclaimed.tallied htallies (fun f => by simp [hwritten]) fun f => by simp [hwritten]
  | true =>
    obtain ⟨x, s, st₃, c₃, mid, c₄, hx, hrep, hconsulted⟩ := hwritten
    have hpatch : x.patch?.isSome := (mem_accepted.mp (hx ▸ List.mem_singleton_self x)).2
    have hconfined : ∀ f, f ∉ features → st₂.decided false f = 0 :=
      modify_keeps (fun _ _ _ _ _ _ _ _ hst hrun => guarded_decides hst hrun) hwrite fun _ _ => rfl
    have howner (f : Feature) : Labels.owner? s.labels f = some self ↔ TextMap.get? s.labels f.labelKey = some self := by
      rw [Labels.owner?_eq_some_iff]
      exact and_iff_left hself
    refine hunclaimed.tallied htallies (fun f => ?_) fun f => ?_
    · obtain ⟨hsets, -⟩ := hrep.claims hpatch f
      rw [if_pos rfl, hx, List.countP_singleton]
      simp only [hsets]
      change st₂.decided false f = _
      by_cases hf : f ∈ features
      · rw [consulted_decides hconsulted, if_pos hf]
        simp only [howner]
        by_cases hheld : TextMap.get? s.labels f.labelKey = some self <;> simp [hf, hheld]
      · simp [hf, hconfined f hf]
    · obtain ⟨-, hdrops⟩ := hrep.claims hpatch f
      rw [hx, List.countP_singleton, hdrops]
      rfl

theorem claimAll_reckoned (hself : self ≠ "") (todo : List (String × List Feature)) (st : Memory) :
    ((m.claimAll self deadline todo).run st).run.Traces i Reckoned := by
  induction todo generalizing st with
  | nil => exact additive.discreet trivial
  | cons entry rest ih =>
    refine additive.state_bind ?_ fun _ st => additive.state_bind (claimOne_reckoned hself) fun v st => ?_
    · exact additive.discreet (Attempt.discreet_state_lift (checkDeadline_discreet deadline _))
    · exact additive.state_bind (ih st) fun _ _ => additive.discreet trivial

/-- The labels that are dropped are counted, if each release is noted once. -/
theorem releaseAll_reckoned {owner operation : String} {noted : Claim → Session Unit}
    (hnoted : ∀ claim c tr u c', Runs i (noted claim) c tr u c' →
      Tallies (fun _ => 0) (fun f => if f = claim.2 then 1 else 0) tr) (todo : List Claim) :
    (m.releaseAll owner operation deadline noted todo).run.Traces i Reckoned := by
  induction todo with
  | nil => exact additive.discreet trivial
  | cons claim rest ih =>
    refine additive.attempt_bind (additive.discreet (checkDeadline_discreet deadline operation)) fun _ => ?_
    intro c tr r c' h
    rcases Attempt.runs_bind.mp h with ⟨fault, rfl, hremove⟩ | ⟨tr₁, dropped, c₁, tr₂, rfl, hremove, hrest⟩
    · obtain ⟨hunclaimed, hnone⟩ := remove_tally hremove
      exact hunclaimed.reckoned hnone
    obtain ⟨hunclaimed, hdropped⟩ := remove_tally hremove
    cases dropped with
    | false => exact (hunclaimed.reckoned hdropped).append (ih _ _ _ _ hrest)
    | true =>
      obtain ⟨x, s, present, hx, hpresent, hrep⟩ := hdropped
      have hpatch : x.patch?.isSome := (mem_accepted.mp (hx ▸ List.mem_singleton_self x)).2
      obtain ⟨tr₃, _, c₂, tr₄, rfl, hnote, hlater⟩ := Attempt.runs_lift_bind.mp hrest
      rw [← List.append_assoc]
      refine (hunclaimed.tallied (hnoted _ _ _ _ _ hnote) (fun f => ?_) fun f => ?_).append ?_
      · obtain ⟨-, hsets⟩ := hrep.releases hpatch hpresent f
        rw [hx, List.countP_singleton, hsets]
        rfl
      · obtain ⟨hdrops, -⟩ := hrep.releases hpatch hpresent f
        rw [hx, List.countP_singleton]
        simp only [hdrops]
      · refine additive.attempt_bind ih (fun later => ?_) _ _ _ _ hlater
        exact additive.discreet trivial

theorem map_reckoned {d : DynaKube} (hname : d.name ≠ "") : (m.map d deadline).run.Traces i Reckoned := by
  have hnoted (claim : Claim) (c : Cluster) (tr : List Event) (u : Unit) (c' : Cluster)
      (h : Runs i (noteStale d.name claim) c tr u c') :
      Tallies (fun _ => 0) (fun f => if f = claim.2 then 1 else 0) tr := by
    obtain ⟨tr₁, rfl, hcount⟩ := Session.runs_tell.mp h
    obtain ⟨rfl, -⟩ := Session.runs_note.mp hcount
    refine ⟨(OnlyNotes.single _).append (.single _), fun f => ?_, fun f => ?_, ?_⟩
    · simp [Event.act]
    · simp [Event.act, eq_comm]
    · simp [Event.act]
  refine additive.attempt_bind (additive.discreet list_discreet) fun records => ?_
  refine additive.attempt_bind (additive.discreet ?_) fun wanted => ?_
  · cases m.candidates d records <;> trivial
  refine additive.attempt_bind (releaseAll_reckoned hnoted _) fun released => ?_
  refine additive.attempt_bind (Additive.state_forget (claimAll_reckoned hname _ _)) fun v => ?_
  exact additive.discreet ⟨trivial, trivial⟩

theorem unmap_reckoned (m : Mapper) (name : Value) (deadline : Option Int) :
    (m.unmap name deadline).run.Traces i Reckoned := by
  have hnoted (claim : Claim) (c : Cluster) (tr : List Event) (u : Unit) (c' : Cluster)
      (h : Runs i (Session.count (.releases claim.2 .unmapped)) c tr u c') :
      Tallies (fun _ => 0) (fun f => if f = claim.2 then 1 else 0) tr := by
    obtain ⟨rfl, -⟩ := Session.runs_note.mp h
    refine ⟨.single _, fun f => ?_, fun f => ?_, ?_⟩
    · simp [Event.act]
    · simp [Event.act, eq_comm]
    · simp [Event.act]
  refine additive.attempt_bind (additive.discreet list_discreet) fun records => ?_
  refine additive.attempt_bind (releaseAll_reckoned hnoted _) fun released => ?_
  exact additive.discreet ⟨trivial, trivial⟩

/-- Every patch of a mapping sets labels to the name of the DynaKube, or drops one. -/
theorem map_sends (m : Mapper) (d : DynaKube) (deadline : Option Int) :
    (m.map d deadline).run.Sends i fun _ x => Claims d.name x ∨ ∃ stale, Drops d.name stale x := by
  refine Attempt.sends_then m.list_sparing.sends fun records => ?_
  refine Attempt.sends_then (Session.Within.sends ?_) fun wanted => ?_
  · cases m.candidates d records <;> trivial
  · exact (relabel_sends deadline wanted _).mono fun _ x hx => hx.imp_right fun h => ⟨_, h⟩

variable {x : Exchange} {f : Feature}

theorem Drops.not_sets {todo : List Claim} (h : Drops self todo x) (hx : x.patch?.isSome) : x.sets f = false := by
  obtain ⟨claim, s, -, hheld, hrep⟩ := h
  exact (hrep.releases hx hheld f).2

theorem Claims.relabels? (h : Claims self x) (hx : x.patch?.isSome) (hsets : x.sets f = true) :
    ∃ old, x.relabels? f = some (old, some self) := by
  obtain ⟨place, features, s, hrep⟩ := h
  obtain ⟨hclaimed, -⟩ := (hrep.claims hx f).1.mp hsets
  refine ⟨TextMap.get? s.labels f.labelKey, ?_⟩
  rw [hrep.relabels? hx, get?_claimed_feature, if_pos hclaimed]

/-- What a mapping sets a label to is the name of its DynaKube. -/
theorem map_relabels {d : DynaKube} {r : Except Fault MappingResult} (h : Runs i (m.map d deadline).run c tr r c')
    (hx : x ∈ accepted tr) (hsets : x.sets f = true) : ∃ old, x.relabels? f = some (old, some d.name) := by
  have hpatch : x.patch?.isSome := (mem_accepted.mp hx).2
  obtain ⟨mid, -, -, hclaims | ⟨stale, hdrops⟩⟩ := map_sends m d deadline c tr r c' h x hx
  · exact hclaims.relabels? hpatch hsets
  · rw [hdrops.not_sets hpatch] at hsets
    cases hsets

end Mapper
end NamespaceOwnership
