import NamespaceOwnership.Proofs.Mapping.Plan
import NamespaceOwnership.Proofs.Reading

/-!
# How far a mapping gets

Where nobody else writes namespaces, every step of a mapping is done as a whole or not at all, however many calls
fail and however often its update is attempted. So a mapping that breaks off has carried out the first steps of its
plan and no more (`Mapper.map_prefix`). A conflict is always over the namespace of the step that comes next, and a
selector that is refused ends the mapping before anything but the listing was asked for.
-/
namespace NamespaceOwnership

open Session (Runs)

/-- Nobody else writes namespaces, and a namespace is only missed where there is none. -/
structure Interference.Solitary (i : Interference) : Prop where
  moves : ∀ {c c'}, i.moves c c' → c'.spaces = c.spaces
  unread : ∀ {c name failure}, i.fails c (.readNamespace name) failure → failure.status? = some 404 →
    c.spaces name = none
  unpatched : ∀ {c name patch failure}, i.fails c (.patchNamespace name patch) failure →
    failure.status? = some 404 → c.spaces name = none

theorem Interference.calm_solitary : Interference.calm.Solitary where
  moves h := congrArg Cluster.spaces (Eq.symm h)
  unread h _ := h.1
  unpatched h h404 := by
    rcases h with ⟨hnone, -⟩ | ⟨_, _, -, -, -, h409⟩
    · exact hnone
    · rw [h404] at h409
      cases h409

/-- Neither a selector nor another owner is the cause. -/
def Fault.Outward : Fault → Prop
  | .selector _ | .ownership _ => False
  | _ => True

/-- It is outward, or a conflict over this namespace. -/
def Fault.About (space : String) (fault : Fault) : Prop :=
  fault.Outward ∨ ∃ conflict, fault = .ownership conflict ∧ conflict.namespaceName = space

variable {i : Interference} {c c' : Cluster} {tr : List Event}

/-- Without patches the namespaces stay as they are. -/
theorem Session.Runs.spaces_eq {α : Type} {s : Session α} {a : α} (hi : i.Solitary) (h : Runs i s c tr a c')
    (hs : s.Within Request.Sparing) : c'.spaces = c.spaces := by
  induction h with
  | done => rfl
  | tell _ ih => exact ih hs.2
  | @ask request _ _ c₁ c₂ _ answer _ _ moved answered _ ih =>
    have hsparing : (⟨c₁, request, answer, c₂⟩ : Exchange).patch? = none := by
      refine Option.not_isSome_iff_eq_none.mp fun hsome => ?_
      have hpatch := Exchange.isPatch_of_patch? hsome
      rw [show request.isPatch = false from hs.1] at hpatch
      cases hpatch
    rw [ih (hs.2 answer), answered.eq_of_not_patched hsparing, hi.moves moved]

namespace Ledger

variable {σ : Type} {space operation : String} {deadline : Option Int} {change : Change σ} {st st' : σ}
  {s : Space} {new : Labels × Annotations} {fails : Fault → Prop}

theorem checkDeadline_alone {r : Except Fault Unit} (hi : i.Solitary)
    (h : Runs i (checkDeadline deadline operation).run c tr r c') :
    c'.spaces = c.spaces ∧ ∀ fault, r = .error fault → fault.Outward := by
  rcases checkDeadline_runs h with ⟨-, -, rfl, rfl⟩ | ⟨limit, time, -, hm, -, -, rfl⟩
  · exact ⟨rfl, by rintro fault ⟨⟩⟩
  · refine ⟨hi.moves hm, fun fault hr => ?_⟩
    split at hr
    · cases hr
      trivial
    · cases hr

/-- A change of this namespace that leaves the namespaces alone, and works out just this unless it fails. -/
def Determined (i : Interference) (change : Change σ) (s : Space) (new : Labels × Annotations)
    (fails : Fault → Prop) : Prop :=
  ∀ {st c tr r c'}, Runs i ((change s.labels s.annotations).run st).run c tr r c' →
    c'.spaces = c.spaces ∧ (∀ p, r = .ok p → p.1 = new) ∧ ∀ fault, r = .error fault → fails fault

theorem Reads.alone {t : Space} (hi : i.Solitary) (hs : c.spaces space = some s)
    (h : Reads i space operation deadline c tr t c') : c'.spaces = c.spaces ∧ t = s := by
  obtain ⟨checked, moved, held, -⟩ := h
  have hsame := (hi.moves moved).trans (checkDeadline_alone hi checked).1
  rw [hsame, hs] at held
  exact ⟨hsame, (Option.some.inj held).symm⟩

theorem Plans.alone {t : Space} {new' : Labels × Annotations} (hi : i.Solitary) (hs : c.spaces space = some s)
    (hd : Determined i change s new fails) (h : Plans i space operation deadline change st c tr t new' st' c') :
    c'.spaces = c.spaces ∧ t = s ∧ new' = new := by
  obtain ⟨read, changed⟩ := h
  obtain ⟨hread, rfl⟩ := read.alone hi hs
  obtain ⟨hchanged, hnew, -⟩ := hd changed
  exact ⟨hchanged.trans hread, rfl, hnew _ rfl⟩

/-- An attempt puts the new labels and annotations in place, or fails without effect, or was outdated. -/
theorem attempted_alone {e : Ending σ} (hi : i.Solitary) (hs : c.spaces space = some s)
    (hd : Determined i change s new fails) (hout : ∀ fault, fault.Outward → fails fault)
    (h : Attempted i space operation deadline change st c tr e c') :
    (∀ st', e = .outdated st' → c'.spaces = c.spaces) ∧
      (∀ fault, e = .over (.error fault) → c'.spaces = c.spaces ∧ fails fault) ∧
      ∀ v, e = .over (.ok v) → c'.views = Function.update c.views space (some (.of new)) := by
  have hthere {c₀ c₁} (hm : i.moves c₀ c₁) (h₀ : c₀.spaces = c.spaces) : c₁.spaces space ≠ none := by
    rw [hi.moves hm, h₀, hs]
    exact Option.some_ne_none s
  cases h with
  | expired checked =>
    obtain ⟨hsame, hfault⟩ := checkDeadline_alone hi checked
    exact ⟨by simp, fun fault he => by cases he; exact ⟨hsame, hout _ (hfault _ rfl)⟩, by simp⟩
  | gone checked moved refused status =>
    exact absurd (hi.unread refused status) (hthere moved (checkDeadline_alone hi checked).1)
  | unread checked moved refused status =>
    have hsame := (hi.moves moved).trans (checkDeadline_alone hi checked).1
    exact ⟨by simp, fun fault he => by cases he; exact ⟨hsame, hout _ trivial⟩, by simp⟩
  | objected read changed =>
    obtain ⟨hread, rfl⟩ := read.alone hi hs
    obtain ⟨hchanged, -, hfault⟩ := hd changed
    exact ⟨by simp, fun fault he => by cases he; exact ⟨hchanged.trans hread, hfault _ rfl⟩, by simp⟩
  | idle planned same =>
    obtain ⟨hsame, rfl, rfl⟩ := planned.alone hi hs hd
    refine ⟨by simp, by simp, fun _ _ => ?_⟩
    rw [Cluster.views_congr hsame]
    exact (updated_of_unchanged hs same).views_eq
  | written planned differs moved held fresh =>
    obtain ⟨hsame, rfl, rfl⟩ := planned.alone hi hs hd
    refine ⟨by simp, by simp, fun _ _ => ?_⟩
    rw [(updated_put _ _).views_eq, Cluster.views_congr (hi.moves moved), Cluster.views_congr hsame]
  | lost planned differs moved =>
    obtain ⟨hsame, -, -⟩ := planned.alone hi hs hd
    exact ⟨fun _ _ => (hi.moves moved).trans hsame, by simp, by simp⟩
  | vanished planned differs moved refused status =>
    obtain ⟨hsame, -, -⟩ := planned.alone hi hs hd
    exact absurd (hi.unpatched refused status) (hthere moved hsame)
  | refused planned differs moved refused =>
    obtain ⟨hsame, -, -⟩ := planned.alone hi hs hd
    have hsame := (hi.moves moved).trans hsame
    exact ⟨by simp, fun fault he => by cases he; exact ⟨hsame, hout _ trivial⟩, by simp⟩

theorem Retried.alone (hi : i.Solitary) (hs : c.spaces space = some s) (hd : Determined i change s new fails)
    (hout : ∀ fault, fault.Outward → fails fault)
    (h : Retried i space operation deadline change st c tr st' c') : c'.spaces = c.spaces := by
  induction h with
  | none => rfl
  | again first _ ih =>
    have hsame := (attempted_alone hi hs hd hout first).1 _ rfl
    exact (ih (by rw [hsame, hs])).trans hsame

/-- An update puts the new labels and annotations in place, or it fails without effect. -/
theorem modify_alone {l : Ledger} {left : Nat} {r : Except Fault (Bool × σ)} (hi : i.Solitary)
    (hs : c.spaces space = some s) (hd : Determined i change s new fails)
    (hout : ∀ fault, fault.Outward → fails fault)
    (h : Runs i ((l.modify space operation deadline change left).run st).run c tr r c') :
    (∀ fault, r = .error fault → c'.spaces = c.spaces ∧ fails fault) ∧
      ∀ v, r = .ok v → c'.views = Function.update c.views space (some (.of new)) := by
  obtain ⟨tr₁, st₁, c₁, tr₂, rfl, hretried, hend⟩ := modify_runs h
  have hsame := hretried.alone hi hs hd hout
  rcases hend with hover | ⟨-, rfl, rfl⟩
  · obtain ⟨-, hfault, hdone⟩ := attempted_alone hi (by rw [hsame, hs]) hd hout hover
    rw [hsame] at hfault
    rw [Cluster.views_congr hsame] at hdone
    exact ⟨fun fault hr => hfault fault (hr ▸ rfl), fun v hr => hdone v (hr ▸ rfl)⟩
  · exact ⟨fun fault hr => by cases hr; exact ⟨hsame, hout _ trivial⟩, by simp⟩

end Ledger

namespace Mapper

open Ledger

variable {m : Mapper} {d : DynaKube} {owner space operation : String} {f : Feature} {features : List Feature}
  {deadline : Option Int} {s : Space} {st : Memory} {stale : List Claim} {claims : List (String × List Feature)}

theorem view_released (owner space : String) (f : Feature) (s : Space) :
    View.of (released f (some owner) s.labels s.annotations) = (Step.drop space f).change owner s.view := by
  have herased : View.of (TextMap.erase s.labels f.labelKey, marked s.annotations) =
      ({ s.view with labels := Function.update s.view.labels f.labelKey none } : View).mark := by
    refine View.ext (funext fun key => ?_) (funext fun key => ?_)
    · exact (TextMap.get?_erase _ _ _).trans (Function.update_apply ..).symm
    · exact (get?_marked_eq _ _).trans (Function.update_apply ..).symm
  have hlabel : s.view.labels f.labelKey = TextMap.get? s.labels f.labelKey := rfl
  rw [Step.change, hlabel, released]
  cases TextMap.get? s.labels f.labelKey with
  | none => rfl
  | some present =>
    by_cases hp : present = owner
    · simp [hp, herased]
    · simp [hp]
      rfl

theorem view_claimed (owner space : String) (features : List Feature) (s : Space) :
    View.of (claimed owner features s.labels, marked s.annotations) =
      (Step.claim space features).change owner s.view := by
  refine View.ext (funext fun key => get?_claimed _ _ _ _) (funext fun key => ?_)
  exact (get?_marked_eq _ _).trans (Function.update_apply ..).symm

theorem Step.apply_of_view (step : Step) {v : View} (hs : c.spaces step.space = some s)
    (h : v = step.change owner s.view) :
    Function.update c.views step.space (some v) = step.apply owner c.views := by
  rw [Step.apply, Cluster.views_eq hs, h]
  rfl

/-- A step neither removes a namespace nor makes one. -/
theorem Step.apply_eq_none_iff {views : String → Option View} {step : Step} {p : String} :
    step.apply owner views p = none ↔ views p = none := by
  by_cases hp : p = step.space
  · subst hp
    rw [Step.apply, Function.update_self, Option.map_eq_none_iff]
  · rw [Step.apply, Function.update_of_ne hp]

theorem carryOut_eq_none_iff {plan : List Step} {views : String → Option View} {p : String} :
    carryOut owner plan views p = none ↔ views p = none := by
  induction plan generalizing views with
  | nil => rfl
  | cons step rest ih => exact ih.trans Step.apply_eq_none_iff

theorem exists_space (h : c.views space ≠ none) : ∃ s, c.spaces space = some s :=
  Option.ne_none_iff_exists'.mp fun hnone => h (Cluster.views_eq_none_iff.mpr hnone)

/-- Dropping a claim is one step of a plan. -/
theorem remove_alone {r : Except Fault Bool} (hi : i.Solitary) (hs : c.views space ≠ none)
    (h : Runs i (m.ledger.remove space f (some owner) deadline).run c tr r c') :
    (∀ fault, r = .error fault → c'.spaces = c.spaces ∧ fault.Outward) ∧
      ∀ v, r = .ok v → c'.views = (Step.drop space f).apply owner c.views := by
  obtain ⟨s, hs⟩ := exists_space hs
  obtain ⟨v, hrun, rfl⟩ := Attempt.runs_state_forget.mp h
  have hd : Determined i (release space f (some owner)) s (released f (some owner) s.labels s.annotations)
      Fault.Outward := by
    intro st c tr r c' hrelease
    obtain ⟨rfl, rfl, -⟩ := release_runs hrelease
    exact ⟨rfl, by rintro p ⟨⟩; rfl, by rintro fault ⟨⟩⟩
  obtain ⟨hfault, hdone⟩ := modify_alone hi hs hd (fun _ => id) hrun
  cases v with
  | error fault => exact ⟨fun fault hr => by cases hr; exact hfault _ rfl, by rintro v ⟨⟩⟩
  | ok p =>
    refine ⟨by rintro fault ⟨⟩, fun _ _ => ?_⟩
    rw [hdone p rfl]
    exact Step.apply_of_view (.drop space f) hs (view_released owner space f s)

theorem get?_fails {name : Value} {fault : Fault}
    (h : Runs i (DynaKubes.get? name).run c tr (.error fault) c') : fault.Outward := by
  obtain ⟨tr₁, reply, c₁, tr₂, -, -, hend⟩ := Attempt.runs_lift_bind.mp h
  cases reply with
  | ok object =>
    rcases Attempt.runs_bind.mp hend with ⟨fault', hf, hread⟩ | ⟨_, _, _, _, -, -, hpure⟩
    · cases hf
      unfold DynaKubes.read at hread
      cases hd : DynaKube.ofObject object with
      | error e =>
        rw [hd] at hread
        obtain ⟨-, hf, -⟩ := Attempt.runs_throw.mp hread
        cases hf
        trivial
      | ok d =>
        rw [hd] at hread
        cases (Attempt.runs_pure.mp hread).2.1
    · cases (Attempt.runs_pure.mp hpure).2.1
  | error failure =>
    by_cases h404 : failure.status? = some 404
    · simp only [h404, if_true] at hend
      cases (Attempt.runs_pure.mp hend).2.1
    · simp only [h404, if_false] at hend
      obtain ⟨-, hf, -⟩ := Attempt.runs_throw.mp hend
      cases hf
      trivial

theorem peer_fails {name : String} {fault : Fault}
    (h : Runs i ((peer name).run st).run c tr (.error fault) c') : fault.Outward := by
  have hrun := Attempt.runs_state_get_bind.mp h
  cases hl : st.peers.lookup name with
  | some known =>
    simp only [hl] at hrun
    cases (Attempt.runs_state_pure.mp hrun).2.1
  | none =>
    simp only [hl] at hrun
    rcases Attempt.runs_state_lift_bind.mp hrun with ⟨fault', hf, hget⟩ | ⟨_, v, _, _, -, -, hrest⟩
    · cases hf
      exact get?_fails hget
    · rcases Attempt.runs_state_bind.mp hrest with ⟨fault', hf, hmodify⟩ | ⟨_, _, _, _, _, -, -, hend⟩
      · cases (Attempt.runs_state_modify.mp hmodify).2.1
      · cases (Attempt.runs_state_pure.mp hend).2.1

/-- A selector that is refused holds on to the namespace, so that a verdict fails for another reason. -/
theorem verdict_fails {labels : Labels} {found : Option DynaKube} {fault : Fault}
    (h : m.verdict owner f space labels found = .error fault) : fault.Outward := by
  cases found with
  | none => cases h
  | some d =>
    cases hf : d.enables f with
    | false =>
      simp only [verdict, hf, Bool.false_eq_true, if_false] at h
      cases h
    | true =>
      simp only [verdict, hf, if_true, holdsOn, selectsNamespace] at h
      by_cases hop : space = m.operatorNamespace
      · simp [hop, Except.map] at h
      · cases hread : LabelSelector.read (d.selectorFor f) with
        | ok parsed => simp [hop, hread, Except.map] at h
        | error fault' =>
          rcases LabelSelector.read_refuses _ _ hread with ⟨error, rfl⟩ | ⟨error, rfl⟩
          · simp [hop, hread, Except.map] at h
          · obtain rfl : .object error = fault := by simpa [hop, hread, Except.map] using h
            trivial

theorem liveOwner_fails {labels : Labels} {present : Option String} {fault : Fault}
    (h : Runs i ((m.liveOwner owner present f space labels).run st).run c tr (.error fault) c') :
    fault.Outward := by
  cases present with
  | none => cases (liveOwner_runs_free h).2.1
  | some other =>
    by_cases hself : other = owner
    · subst hself
      cases (liveOwner_runs_self h).2.1
    · rcases liveOwner_runs hself h with ⟨fault', hf, hpeer⟩ | ⟨found, st₁, -, hr⟩
      · cases hf
        exact peer_fails hpeer
      · cases hverdict : m.verdict other f space labels found with
        | ok live =>
          rw [hverdict] at hr
          cases hr
        | error fault' =>
          rw [hverdict] at hr
          cases hr
          exact verdict_fails hverdict

theorem judge_fails {labels : Labels} {present : Option String} {fault : Fault}
    (h : Runs i ((m.judge owner space f present labels).run st).run c tr (.error fault) c') :
    fault.About space := by
  rcases judge_runs h with ⟨fault', hf, hlive⟩ | ⟨live, _, _, _, -, -, -, hr⟩
  · cases hf
    exact .inl (liveOwner_fails hlive)
  · split at hr
    · cases hr
      exact .inr ⟨_, rfl, rfl⟩
    · cases hr

/-- A guard fails by a conflict over its namespace, or for a reason outside the mapping. -/
theorem consult_fails {labels : Labels} {fault : Fault}
    (h : Runs i ((consult (m.judge owner space) labels features).run st).run c tr (.error fault) c') :
    fault.About space := by
  induction features generalizing st c tr with
  | nil => cases (Attempt.runs_state_pure.mp h).2.1
  | cons f rest ih =>
    rcases Attempt.runs_state_bind.mp h with ⟨fault', hf, hshow⟩ | ⟨_, _, _, _, _, -, -, hrest⟩
    · cases hf
      obtain ⟨_, _, _, _, -, -, hjudge⟩ := Attempt.runs_state_session_bind.mp hshow
      exact judge_fails hjudge
    · exact ih hrest

/-- Claiming the features of a namespace is one step of a plan. -/
theorem claimOne_alone {r : Except Fault ((List Feature × List Feature) × Memory)} (hi : i.Solitary)
    (hs : c.views space ≠ none) (h : Runs i ((m.claimOne owner deadline space features).run st).run c tr r c') :
    (∀ fault, r = .error fault → c'.spaces = c.spaces ∧ fault.About space) ∧
      ∀ v, r = .ok v → c'.views = (Step.claim space features).apply owner c.views := by
  obtain ⟨s, hs⟩ := exists_space hs
  have hd : Determined i (guarded m owner space features) s (claimed owner features s.labels, marked s.annotations)
      (·.About space) := by
    intro st c tr r c' hclaim
    have hsame : c'.spaces = c.spaces := by
      refine hclaim.spaces_eq hi ((guarded_within s.labels s.annotations st).mono ?_)
      rintro _ ⟨name, rfl⟩
      rfl
    obtain ⟨v, hconsult, rfl⟩ := claim_runs hclaim
    cases v with
    | error fault => exact ⟨hsame, by rintro p ⟨⟩, fun _ hf => by cases hf; exact consult_fails hconsult⟩
    | ok p => exact ⟨hsame, by rintro p ⟨⟩; rfl, by rintro fault ⟨⟩⟩
  rcases claimOne_runs h with ⟨fault, rfl, hwrite⟩ | ⟨_, written, st₁, _, v, -, rfl, hwrite, -⟩
  · obtain ⟨hfault, -⟩ := modify_alone hi hs hd (fun _ => .inl) hwrite
    exact ⟨fun fault hr => by cases hr; exact hfault _ rfl, by rintro v ⟨⟩⟩
  · obtain ⟨-, hdone⟩ := modify_alone hi hs hd (fun _ => .inl) hwrite
    refine ⟨by rintro fault ⟨⟩, fun _ _ => ?_⟩
    rw [hdone _ rfl]
    exact Step.apply_of_view (.claim space features) hs (view_claimed owner space features s)

/-- The first of some removals have been done, all of them if none failed. -/
theorem releaseAll_prefix {noted : Claim → Session Unit} {r : Except Fault (List Claim)} (hi : i.Solitary)
    (hnoted : ∀ claim, (noted claim).Within fun _ => False) (hs : ∀ claim ∈ stale, c.views claim.1 ≠ none)
    (h : Runs i (m.releaseAll owner operation deadline noted stale).run c tr r c') :
    ∃ k ≤ stale.length, c'.views = carryOut owner (steps (stale.take k) []) c.views ∧
      (∀ v, r = .ok v → k = stale.length) ∧ ∀ fault, r = .error fault → fault.Outward := by
  induction stale generalizing c c' tr r with
  | nil =>
    obtain ⟨-, rfl, rfl⟩ := Attempt.runs_pure.mp h
    exact ⟨0, Nat.le_refl 0, rfl, fun _ _ => rfl, by rintro fault ⟨⟩⟩
  | cons claim rest ih =>
    rcases Attempt.runs_bind.mp h with ⟨fault, rfl, hcheck⟩ | ⟨_, _, c₁, tr₂, -, hcheck, hdrop⟩
    · obtain ⟨hsame, hfault⟩ := checkDeadline_alone hi hcheck
      exact ⟨0, Nat.zero_le _, Cluster.views_congr hsame, by rintro v ⟨⟩, fun _ hf => by cases hf; exact hfault _ rfl⟩
    have hchecked := Cluster.views_congr (checkDeadline_alone hi hcheck).1
    have hs₁ : c₁.views claim.1 ≠ none := hchecked ▸ hs claim List.mem_cons_self
    rcases Attempt.runs_bind.mp hdrop with ⟨fault, rfl, hremove⟩ | ⟨_, dropped, c₂, tr₄, -, hremove, hlater⟩
    · obtain ⟨hsame, hfault⟩ := (remove_alone hi hs₁ hremove).1 _ rfl
      exact ⟨0, Nat.zero_le _, (Cluster.views_congr hsame).trans hchecked, by rintro v ⟨⟩,
        fun _ hf => by cases hf; exact hfault⟩
    have hdone : c₂.views = (Step.drop claim.1 claim.2).apply owner c.views :=
      hchecked ▸ (remove_alone hi hs₁ hremove).2 _ rfl
    have hs₂ : ∀ other ∈ rest, c₂.views other.1 ≠ none := fun other hother => by
      rw [hdone, ne_eq, Step.apply_eq_none_iff]
      exact hs other (List.mem_cons_of_mem _ hother)
    have hrest : ∀ {tr r c'}, Runs i (m.releaseAll owner operation deadline noted rest).run c₂ tr r c' →
        ∃ k ≤ (claim :: rest).length, c'.views = carryOut owner (steps ((claim :: rest).take k) []) c.views ∧
          (∀ v, r = .ok v → k = (claim :: rest).length) ∧ ∀ fault, r = .error fault → fault.Outward := by
      intro tr r c' hrun
      obtain ⟨k, hk, hviews, hok, hfault⟩ := ih hs₂ hrun
      refine ⟨k + 1, Nat.succ_le_succ hk, ?_, fun v hr => congrArg Nat.succ (hok v hr), hfault⟩
      rw [hviews, hdone]
      rfl
    cases dropped with
    | false => exact hrest hlater
    | true =>
      obtain ⟨_, _, c₃, tr₆, -, hnote, hothers⟩ := Attempt.runs_lift_bind.mp hlater
      obtain ⟨-, rfl⟩ := hnote.onlyNotes (hnoted claim)
      rcases Attempt.runs_bind.mp hothers with ⟨fault, rfl, hfails⟩ | ⟨_, v, c₄, _, -, hall, hend⟩
      · obtain ⟨k, hk, hviews, -, hfault⟩ := hrest hfails
        exact ⟨k, hk, hviews, by rintro v ⟨⟩, fun _ hf => by cases hf; exact hfault _ rfl⟩
      · obtain ⟨-, rfl, rfl⟩ := Attempt.runs_pure.mp hend
        obtain ⟨k, hk, hviews, hok, -⟩ := hrest hall
        exact ⟨k, hk, hviews, fun _ _ => hok _ rfl, by rintro fault ⟨⟩⟩

/-- The first of some claims have been made, all of them if none failed. A conflict is over the next one. -/
theorem claimAll_prefix {r : Except Fault ((List Claim × List Claim) × Memory)} (hi : i.Solitary)
    (hs : ∀ entry ∈ claims, c.views entry.1 ≠ none)
    (h : Runs i ((m.claimAll owner deadline claims).run st).run c tr r c') :
    ∃ k ≤ claims.length, c'.views = carryOut owner (steps [] (claims.take k)) c.views ∧
      (∀ v, r = .ok v → k = claims.length) ∧ ∀ fault, r = .error fault →
        fault.Outward ∨ ∃ entry, claims[k]? = some entry ∧ fault.About entry.1 := by
  induction claims generalizing c c' st tr r with
  | nil =>
    obtain ⟨-, rfl, rfl⟩ := Attempt.runs_state_pure.mp h
    exact ⟨0, Nat.le_refl 0, rfl, fun _ _ => rfl, by rintro fault ⟨⟩⟩
  | cons entry rest ih =>
    obtain ⟨space, features⟩ := entry
    rcases claimAll_cons_runs h with ⟨fault, rfl, hcheck⟩ | ⟨_, c₁, _, -, hcheck, hone⟩
    · obtain ⟨hsame, hfault⟩ := checkDeadline_alone hi hcheck
      exact ⟨0, Nat.zero_le _, Cluster.views_congr hsame, by rintro v ⟨⟩,
        fun _ hf => by cases hf; exact .inl (hfault _ rfl)⟩
    have hchecked := Cluster.views_congr (checkDeadline_alone hi hcheck).1
    have hs₁ : c₁.views space ≠ none := hchecked ▸ hs _ List.mem_cons_self
    rcases hone with ⟨fault, rfl, hclaim⟩ | ⟨_, v, st₁, c₂, _, r', -, hclaim, hall, rfl⟩
    · obtain ⟨hsame, hfault⟩ := (claimOne_alone hi hs₁ hclaim).1 _ rfl
      exact ⟨0, Nat.zero_le _, (Cluster.views_congr hsame).trans hchecked, by rintro v ⟨⟩,
        fun _ hf => by cases hf; exact .inr ⟨_, rfl, hfault⟩⟩
    have hdone : c₂.views = (Step.claim space features).apply owner c.views :=
      hchecked ▸ (claimOne_alone hi hs₁ hclaim).2 _ rfl
    have hs₂ : ∀ other ∈ rest, c₂.views other.1 ≠ none := fun other hother => by
      rw [hdone, ne_eq, Step.apply_eq_none_iff]
      exact hs other (List.mem_cons_of_mem _ hother)
    obtain ⟨k, hk, hviews, hok, hfault⟩ := ih hs₂ hall
    have hviews : c'.views = carryOut owner (steps [] (((space, features) :: rest).take (k + 1))) c.views := by
      rw [hviews, hdone]
      rfl
    refine ⟨k + 1, Nat.succ_le_succ hk, hviews, fun v hv => ?_, fun fault hf => ?_⟩
    · cases r' with
      | error fault => cases hv
      | ok w => exact congrArg Nat.succ (hok w rfl)
    · cases r' with
      | error fault =>
        cases hf
        exact hfault _ rfl
      | ok w => cases hf

theorem take_steps (stale : List Claim) (claims : List (String × List Feature)) (k : Nat) :
    (steps stale claims).take k = steps (stale.take k) (claims.take (k - stale.length)) := by
  rw [steps, steps, List.take_append, List.map_take, List.map_take, List.length_map]

theorem length_steps (stale : List Claim) (claims : List (String × List Feature)) :
    (steps stale claims).length = stale.length + claims.length := by
  rw [steps, List.length_append, List.length_map, List.length_map]

theorem carryOut_steps_eq (owner : String) (stale : List Claim) (claims : List (String × List Feature))
    (views : String → Option View) :
    carryOut owner (steps stale claims) views = carryOut owner (steps [] claims) (carryOut owner (steps stale []) views) := by
  simp [carryOut, steps]

theorem getElem?_steps (stale : List Claim) (claims : List (String × List Feature)) (k : Nat) :
    (steps stale claims)[stale.length + k]? = claims[k]?.map fun entry => .claim entry.1 entry.2 := by
  rw [steps, List.getElem?_append_right (by simp), List.length_map, Nat.add_sub_cancel_left, List.getElem?_map]

theorem candidates_fails {records : List NamespaceRecord} {fault : Fault}
    (h : m.candidates d records = .error fault) : fault.OfReading := by
  refine LabelSelector.FailsBy.mapM (fun f => ?_) d.enabled fault h
  exact ((LabelSelector.read_refuses _).bind fun _ => .ok).bind fun _ => .ok

/-- How far a plan got: its first steps have been carried out, all of them if nothing failed. A conflict is over the
step that comes next. -/
structure Progress {α : Type} (d : DynaKube) (plan : List Step) (k : Nat) (c : Cluster) (r : Except Fault α)
    (c' : Cluster) : Prop where
  le : k ≤ plan.length
  views : c'.views = carryOut d.name (plan.take k) c.views
  ok : ∀ v, r = .ok v → k = plan.length
  error : ∀ fault, r = .error fault → fault.Outward ∨
    ∃ conflict features, fault = .ownership conflict ∧ plan[k]? = some (.claim conflict.namespaceName features)

/-- What a mapping does once it has made its plan. -/
theorem relabel_prefix {r : Except Fault MappingResult} {wanted : List (Feature × List String)} (hi : i.Solitary)
    (hstale : ∀ claim ∈ stale, c.views claim.1 ≠ none)
    (hclaims : ∀ entry ∈ claimsByNamespace wanted, c.views entry.1 ≠ none)
    (h : Runs i (do
      let released ← m.releaseAll d.name s!"mapping dynakube {d.name}" deadline (noteStale d.name) stale
      let (accepted, reaffirmed) ← (m.claimAll d.name deadline (claimsByNamespace wanted)).run' ⟨[], []⟩
      let result : MappingResult := ⟨.text d.name, accepted, reaffirmed, released⟩
      Session.info (s!"Mapped dynakube {d.name}: " ++ result.summary)
      return result : Attempt MappingResult).run c tr r c') :
    ∃ k, Progress d (steps stale (claimsByNamespace wanted)) k c r c' := by
  generalize claimsByNamespace wanted = claims at hclaims h ⊢
  rcases Attempt.runs_bind.mp h with ⟨fault, rfl, hrelease⟩ | ⟨_, released, c₁, tr₂, -, hrelease, hrest⟩
  · obtain ⟨k, hk, hviews, -, hfault⟩ := releaseAll_prefix hi (noteStale_within d.name) hstale hrelease
    refine ⟨k, ?_, ?_, by rintro v ⟨⟩, fun _ hf => by cases hf; exact .inl (hfault _ rfl)⟩
    · rw [length_steps]
      exact Nat.le_add_right_of_le hk
    · rw [hviews, take_steps, Nat.sub_eq_zero_of_le hk, List.take_zero]
  obtain ⟨k, -, hviews, hall, -⟩ := releaseAll_prefix hi (noteStale_within d.name) hstale hrelease
  rw [hall _ rfl, List.take_length] at hviews
  have hclaims₁ : ∀ entry ∈ claims, c₁.views entry.1 ≠ none := fun entry hentry => by
    rw [hviews, ne_eq, carryOut_eq_none_iff]
    exact hclaims entry hentry
  -- The claims that were made, after all that was stale has been dropped.
  have hprogress {k} (hk : k ≤ claims.length) {views : String → Option View}
      (hdone : views = carryOut d.name (steps [] (claims.take k)) c₁.views) :
      stale.length + k ≤ (steps stale claims).length ∧
        views = carryOut d.name ((steps stale claims).take (stale.length + k)) c.views := by
    refine ⟨by rw [length_steps]; omega, ?_⟩
    rw [take_steps, List.take_of_length_le (Nat.le_add_right _ k), Nat.add_sub_cancel_left, carryOut_steps_eq, hdone,
      hviews]
  rcases Attempt.runs_bind.mp hrest with ⟨fault, rfl, hclaim⟩ | ⟨_, v, c₂, tr₄, -, hclaim, hend⟩
  · obtain ⟨v, hrun, hv⟩ := Attempt.runs_state_forget.mp hclaim
    obtain ⟨k, hk, hdone, -, hfault⟩ := claimAll_prefix hi hclaims₁ hrun
    obtain ⟨hle, hviews⟩ := hprogress hk hdone
    refine ⟨_, hle, hviews, by rintro v ⟨⟩, ?_⟩
    rintro _ ⟨⟩
    cases v with
    | ok p => cases hv
    | error fault' =>
      cases hv
      rcases hfault fault rfl with hout | ⟨entry, hentry, hout | ⟨conflict, rfl, hspace⟩⟩
      · exact .inl hout
      · exact .inl hout
      · refine .inr ⟨conflict, entry.2, rfl, ?_⟩
        rw [getElem?_steps, hentry, hspace]
        rfl
  · obtain ⟨v', hrun, hv⟩ := Attempt.runs_state_forget.mp hclaim
    obtain ⟨k, hk, hdone, hok, -⟩ := claimAll_prefix hi hclaims₁ hrun
    obtain ⟨hle, hviews⟩ := hprogress hk hdone
    obtain ⟨_, _, c₃, _, -, hnote, hpure⟩ := Attempt.runs_lift_bind.mp hend
    obtain ⟨-, rfl, rfl⟩ := Attempt.runs_pure.mp hpure
    obtain ⟨-, -, rfl⟩ := Session.runs_note.mp hnote
    refine ⟨_, hle, hviews, fun _ _ => ?_, by rintro fault ⟨⟩⟩
    cases v' with
    | error fault => cases hv
    | ok p => rw [length_steps, hok p rfl]

/-- What comes of a mapping. Where it gets no further than its preparations only the listing was asked for; else it
has carried out the first steps of its plan. -/
theorem map_prefix {r : Except Fault MappingResult} (hi : i.Solitary)
    (h : Runs i (m.map d deadline).run c tr r c') :
    (c'.views = c.views ∧ (∀ x, .asked x ∈ tr → x.request = .api (.listNamespaces none)) ∧
        ∃ fault, r = .error fault ∧ ∀ conflict, fault ≠ .ownership conflict) ∨
      ∃ stale claims k, m.Planned d c stale claims ∧ Progress d (steps stale claims) k c r c' := by
  have honly : m.ledger.list.run.Within (· = .api (.listNamespaces none)) :=
    ⟨rfl, fun reply => by cases reply <;> trivial⟩
  rcases Attempt.runs_bind.mp h with ⟨fault, rfl, hlist⟩ | ⟨tr₁, records, c₁, tr₂, rfl, hlist, hrest⟩
  · refine .inl ⟨Cluster.views_congr (hlist.spaces_eq hi m.list_sparing), fun x => hlist.within honly, fault, rfl, ?_⟩
    rcases list_runs hlist with ⟨_, _, -, hf, -⟩ | ⟨_, -, -, hf, -⟩
    · cases hf
      exact fun _ => Fault.noConfusion
    · cases hf
  have hsame := hlist.spaces_eq hi m.list_sparing
  rcases Attempt.runs_bind.mp hrest with ⟨fault, rfl, hread⟩ | ⟨_, wanted, c₂, tr₄, -, hread, hmap⟩
  · obtain ⟨rfl, hfault, rfl⟩ := Attempt.runs_except.mp hread
    refine .inl ⟨Cluster.views_congr hsame, fun x hx => ?_, fault, rfl, fun conflict hconflict => ?_⟩
    · rw [List.append_nil] at hx
      exact hlist.within honly hx
    · rcases candidates_fails hfault.symm with ⟨error, rfl⟩ | ⟨error, rfl⟩ <;> cases hconflict
  obtain ⟨-, hwanted, rfl⟩ := Attempt.runs_except.mp hread
  rcases list_runs hlist with ⟨_, _, -, hr, -⟩ | ⟨objects, -, hlists, hr, -⟩
  · cases hr
  cases hr
  have hplanned := planned (hlists.congr hsame) hwanted.symm
  have hviews := Cluster.views_congr hsame
  obtain ⟨k, hprogress⟩ := relabel_prefix hi
    (fun claim hclaim => by rw [hviews, ne_eq, Cluster.views_eq_none_iff]; exact hplanned.spaces_of_mem_stale hclaim)
    (fun entry hentry => by rw [hviews, ne_eq, Cluster.views_eq_none_iff]; exact hplanned.spaces_of_mem_claims hentry) hmap
  exact .inr ⟨_, _, k, hplanned, hprogress.le, hviews ▸ hprogress.views, hprogress.ok, hprogress.error⟩

/-- A mapping that returns has carried out all of its plan. -/
theorem map_rewrites {v : MappingResult} (hi : i.Solitary) (h : Runs i (m.map d deadline).run c tr (.ok v) c') :
    Rewrites d.name (m.Candidate d c) (m.Stale d c) c.views c'.views := by
  rcases map_prefix hi h with ⟨-, -, _, hfault, -⟩ | ⟨stale, claims, k, hplanned, hprogress⟩
  · cases hfault
  · rw [hprogress.views, hprogress.ok v rfl, List.take_length]
    exact hplanned.rewrites

end Mapper
end NamespaceOwnership
