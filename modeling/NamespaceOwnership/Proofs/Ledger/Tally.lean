import NamespaceOwnership.Proofs.Ledger.Atomicity
import NamespaceOwnership.Proofs.Tally

/-!
# What an update counts

An update counts each of its outdated patches, and nothing else. What a change keeps in its state from one attempt to
the next is still there in the attempt whose patch is accepted (`Ledger.modify_written`).
-/
namespace NamespaceOwnership

open Session (Runs)

/-- What a patch that was accepted changed is what stood there and what was put in its place. -/
theorem Exchange.Replaces.relabels? {x : Exchange} {space : String} {s : Space} {new : Labels × Annotations}
    (h : x.Replaces space s new) (hx : x.patch?.isSome) (f : Feature) : x.relabels? f =
      some (TextMap.get? s.labels f.labelKey, TextMap.get? new.1 f.labelKey) := by
  obtain ⟨⟨place, patch⟩, hpatch⟩ := Option.isSome_iff_exists.mp hx
  obtain ⟨rfl, -⟩ := h.patch? hpatch
  obtain ⟨version, hspaces⟩ := h.spaces
  simp [Exchange.relabels?, hpatch, Cluster.label?, h.2.1, hspaces]

namespace Ledger

variable {σ : Type} {i : Interference} {c c' : Cluster} {tr : List Event} {space operation : String}
  {deadline : Option Int} {change : Change σ} {st st' : σ}

theorem checkDeadline_discreet (deadline : Option Int) (operation : String) :
    (checkDeadline deadline operation).run.Discreet := by
  cases deadline with
  | none => trivial
  | some limit =>
    refine Attempt.discreet_bind ⟨rfl, fun _ => trivial⟩ fun time => ?_
    split <;> trivial

theorem release_discreet (space : String) (f : Feature) (owner : Option String) (labels : Labels)
    (annotations : Annotations) (st : Unit) : ((release space f owner labels annotations).run st).run.Discreet := by
  unfold release
  cases TextMap.get? labels f.labelKey with
  | none => trivial
  | some present =>
    cases owner with
    | none => trivial
    | some expected =>
      by_cases hp : present = expected
      · simp only [hp, if_true]
        trivial
      · simp only [hp, if_false]
        exact Attempt.discreet_state_bind ⟨trivial, trivial⟩ fun _ _ => trivial

theorem Reads.uneventful {s : Space} (h : Reads i space operation deadline c tr s c') :
    Uneventful (tr.map Event.act) := by
  obtain ⟨checked, -, -, -⟩ := h
  rw [List.map_append]
  exact (checked.uneventful (checkDeadline_discreet deadline operation)).append (.asked rfl)

section Change

variable (hchange : ∀ labels annotations st, ((change labels annotations).run st).run.Discreet)

include hchange

theorem Plans.uneventful {s : Space} {new : Labels × Annotations}
    (h : Plans i space operation deadline change st c tr s new st' c') : Uneventful (tr.map Event.act) := by
  obtain ⟨read, changed⟩ := h
  rw [List.map_append]
  exact read.uneventful.append (changed.uneventful (hchange _ _ _))

/-- An attempt counts its patch if that is outdated, and nothing else. -/
theorem Attempted.unclaimed {e : Ending σ} (h : Attempted i space operation deadline change st c tr e c') :
    Unclaimed tr := by
  have hcheck {tr : List Event} {c c' : Cluster} {r : Except Fault Unit}
      (h : Runs i (checkDeadline deadline operation).run c tr r c') : Unclaimed tr :=
    (h.uneventful (checkDeadline_discreet deadline operation)).unclaimed
  cases h with
  | expired checked => exact hcheck checked
  | gone checked => exact (hcheck checked).append ⟨fun _ _ => by simp [Event.act], fun _ _ => by simp [Event.act], rfl⟩
  | unread checked => exact (hcheck checked).append ⟨fun _ _ => rfl, fun _ _ => rfl, rfl⟩
  | objected read changed =>
    exact read.uneventful.unclaimed.append (changed.uneventful (hchange _ _ _)).unclaimed
  | idle planned => exact (planned.uneventful hchange).unclaimed
  | written planned =>
    exact (planned.uneventful hchange).unclaimed.append ⟨fun _ _ => rfl, fun _ _ => rfl, rfl⟩
  | lost planned _ _ _ status =>
    refine (planned.uneventful hchange).unclaimed.append ⟨?_, ?_, ?_⟩
    · simp [Event.act, Exchange.call]
    · simp [Event.act, Exchange.call]
    · simp [Event.act, Exchange.call, updateCall, Event.outdated, status]
  | vanished planned _ _ _ status =>
    refine (planned.uneventful hchange).unclaimed.append ⟨?_, ?_, ?_⟩
    · simp [Event.act, Exchange.call]
    · simp [Event.act, Exchange.call]
    · simp [Event.act, Exchange.call, updateCall, Event.outdated, status]
  | refused planned _ _ _ _ outdated =>
    refine (planned.uneventful hchange).unclaimed.append ⟨?_, ?_, ?_⟩
    · simp [Event.act, Exchange.call]
    · simp [Event.act, Exchange.call]
    · simp [Event.act, Exchange.call, updateCall, Event.outdated, outdated]

theorem Retried.unclaimed (h : Retried i space operation deadline change st c tr st' c') : Unclaimed tr := by
  induction h with
  | none => exact .nil
  | again first _ ih => exact (first.unclaimed hchange).append ih

theorem modify_unclaimed {l : Ledger} {left : Nat} {r : Except Fault (Bool × σ)}
    (h : Runs i ((l.modify space operation deadline change left).run st).run c tr r c') : Unclaimed tr := by
  obtain ⟨tr₁, st₁, c₁, tr₂, rfl, hretried, hend⟩ := modify_runs h
  refine (hretried.unclaimed hchange).append ?_
  rcases hend with hover | ⟨rfl, -, -⟩
  · exact hover.unclaimed hchange
  · exact ⟨fun _ _ => by simp [Event.act], fun _ _ => by simp [Event.act], by simp [Event.act, Event.outdated]⟩

end Change

section Keeping

variable {Inv : σ → Prop} (hkeeps : ∀ labels annotations st c tr new st' c', Inv st →
    Runs i ((change labels annotations).run st).run c tr (.ok (new, st')) c' → Inv st')

include hkeeps

theorem Plans.keeps {s : Space} {new : Labels × Annotations}
    (h : Plans i space operation deadline change st c tr s new st' c') (hst : Inv st) : Inv st' := by
  obtain ⟨read, changed⟩ := h
  exact hkeeps _ _ _ _ _ _ _ _ hst changed

theorem Retried.keeps (h : Retried i space operation deadline change st c tr st' c') (hst : Inv st) : Inv st' := by
  induction h with
  | none => exact hst
  | again first _ ih =>
    cases first with
    | lost planned => exact ih (planned.keeps hkeeps hst)

/-- What a change keeps of its state is kept by the whole update. -/
theorem modify_keeps {l : Ledger} {left : Nat} {written : Bool}
    (h : Runs i ((l.modify space operation deadline change left).run st).run c tr (.ok (written, st')) c')
    (hst : Inv st) : Inv st' := by
  obtain ⟨tr₁, st₁, c₁, tr₂, rfl, hretried, hover | ⟨-, hr, -⟩⟩ := modify_runs h
  · have hkept : Inv st₁ := hretried.keeps hkeeps hst
    cases hover with
    | gone => exact hkept
    | idle planned => exact planned.keeps hkeeps hkept
    | written planned => exact planned.keeps hkeeps hkept
    | vanished planned => exact planned.keeps hkeeps hkept
  · cases hr

end Keeping

section Guarded

variable {l : Ledger} {features : List Feature} {owner : String} {guard : Guard σ}
  (hguard : ∀ f present labels st, ((guard f present labels).run st).run.Discreet)

include hguard

theorem consult_discreet (labels : Labels) (features : List Feature) (st : σ) :
    ((consult guard labels features).run st).run.Discreet := by
  induction features generalizing st with
  | nil => trivial
  | cons f rest ih => exact Attempt.discreet_state_bind ⟨trivial, hguard f _ labels st⟩ fun _ st => ih st

theorem claim_discreet (labels : Labels) (annotations : Annotations) (st : σ) :
    ((claim features owner (some guard) labels annotations).run st).run.Discreet :=
  Attempt.discreet_state_bind (consult_discreet hguard labels features st) fun _ _ => trivial

/-- A claim counts its outdated patches, and is done with one patch that rests on what the guard was shown. -/
theorem write_tally {r : Except Fault (Bool × σ)}
    (h : Runs i ((l.write space features owner (some guard) deadline).run st).run c tr r c') :
    Unclaimed tr ∧ match r with
      | .ok (true, st') => ∃ x s st₁ c₁ mid c₂, accepted tr = [x] ∧
          x.Replaces space s (claimed owner features s.labels, marked s.annotations) ∧
          Consulted i guard s.labels features st₁ c₁ mid st' c₂
      | _ => accepted tr = [] := by
  refine ⟨modify_unclaimed (claim_discreet hguard) h, ?_⟩
  obtain ⟨own, hown, ho⟩ := write_allOrNothing h
  have haccepted : accepted own = accepted tr := hown.accepted_eq fun mid hmid => by
    obtain ⟨g, hg, labels, st, c, r, c', hrun⟩ := hmid
    cases hg
    exact (hrun.uneventful (consult_discreet hguard labels features st)).accepted_eq
  rw [← haccepted]
  match r, ho with
  | .ok (true, st'), ⟨x, s, new, pre, mid, st₁, c₁, c₂, hx, hrep, _, _, hrun⟩ =>
    obtain ⟨v, hconsult, hv⟩ := claim_runs hrun
    cases v with
    | error fault => cases hv
    | ok p =>
      cases hv
      exact ⟨x, s, st₁, c₁, mid, c₂, hx, hrep, consult_runs hconsult⟩
  | .ok (false, st'), ho => exact ho
  | .error fault, ho => exact ho

end Guarded

/-- A release counts its outdated patches, and is done with one patch, which deletes the label. -/
theorem remove_tally {l : Ledger} {f : Feature} {owner : Option String} {r : Except Fault Bool}
    (h : Runs i (l.remove space f owner deadline).run c tr r c') :
    Unclaimed tr ∧ match r with
      | .ok true => ∃ x s present, accepted tr = [x] ∧ TextMap.get? s.labels f.labelKey = some present ∧
          x.Replaces space s (TextMap.erase s.labels f.labelKey, marked s.annotations)
      | _ => accepted tr = [] := by
  obtain ⟨v, hrun, -⟩ := Attempt.runs_state_forget.mp h
  refine ⟨modify_unclaimed (release_discreet space f owner) hrun, ?_⟩
  obtain ⟨own, v, hown, rfl, ho⟩ := remove_allOrNothing h
  rw [← hown]
  match v, ho with
  | .ok (true, st'), ⟨x, s, new, pre, mid, st₁, c₁, c₂, hx, hrep, hdiffers, _, hrun⟩ =>
    obtain ⟨hnew, -, -⟩ := release_runs hrun
    cases hnew
    obtain ⟨present, hpresent, -, hreleased⟩ := released_of_changed hdiffers
    rw [hreleased] at hrep
    exact ⟨x, s, present, hx, hpresent, hrep⟩
  | .ok (false, st'), ho => exact ho
  | .error fault, ho => exact ho

end Ledger

namespace Exchange

open Ledger

variable {x : Exchange} {space owner : String} {s : Space} {f : Feature}

/-- A claim sets the labels that named another owner, and drops none. -/
theorem Replaces.claims {features : List Feature}
    (h : x.Replaces space s (claimed owner features s.labels, marked s.annotations)) (hx : x.patch?.isSome)
    (g : Feature) : (x.sets g = true ↔ g ∈ features ∧ TextMap.get? s.labels g.labelKey ≠ some owner) ∧
      x.drops g = false := by
  unfold sets drops
  rw [h.relabels? hx, get?_claimed_feature]
  by_cases hg : g ∈ features <;> cases hold : TextMap.get? s.labels g.labelKey <;> simp [hg]

/-- A release drops the label that was there, and sets none. -/
theorem Replaces.releases {present : String}
    (h : x.Replaces space s (TextMap.erase s.labels f.labelKey, marked s.annotations)) (hx : x.patch?.isSome)
    (hpresent : TextMap.get? s.labels f.labelKey = some present) (g : Feature) :
    (x.drops g = true ↔ g = f) ∧ x.sets g = false := by
  unfold sets drops
  rw [h.relabels? hx, get?_erased_feature]
  by_cases hg : g = f
  · simp [hg, hpresent]
  · cases hold : TextMap.get? s.labels g.labelKey <;> simp [hg]

end Exchange
end NamespaceOwnership
