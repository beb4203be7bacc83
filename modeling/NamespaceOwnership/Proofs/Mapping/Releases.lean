import NamespaceOwnership.Proofs.Mapping.Relabelling
import NamespaceOwnership.Proofs.Sends

/-!
# Who loses a claim

A mapping releases only claims of its own DynaKube, and of those only the stale ones; all its other patches set
owners. An unmapping releases only claims of the name that it is given.
-/
namespace NamespaceOwnership

open Session (Runs)

/-- An accepted patch leaves a feature of a namespace, which was owned, without an owner. -/
structure Exchange.Releases (x : Exchange) (space : String) (f : Feature) (owner : String) : Prop where
  patched : x.patch?.isSome
  owned : x.before.owner? space f = some owner
  released : x.after.owner? space f = none

theorem Exchange.Replaces.owner? {x : Exchange} {space : String} {s : Space} {new : Labels × Annotations}
    (h : x.Replaces space s new) (p : String) (f : Feature) :
    x.after.owner? p f = if p = space then Labels.owner? new.1 f else x.before.owner? p f := by
  obtain ⟨version, hspaces⟩ := h.spaces
  unfold Cluster.owner?
  rw [hspaces p]
  by_cases hp : p = space
  · rw [if_pos hp, if_pos hp]
    rfl
  · rw [if_neg hp, if_neg hp]

theorem Grounded.of_mem {ground : List Event → Exchange → Prop} {tr : List Event} {x : Exchange}
    (h : Grounded ground [] tr) (hx : x ∈ accepted tr) : ∃ past, ground past x := by
  obtain ⟨hmem, hsome⟩ := mem_accepted.mp hx
  obtain ⟨pre, post, htr⟩ := List.append_of_mem hmem
  exact ⟨pre, h.split htr hsome⟩

namespace Mapper

open Ledger

variable {i : Interference} {c c' : Cluster} {tr : List Event} {m : Mapper} {self space owner : String}
  {f : Feature} {deadline : Option Int} {x : Exchange}

/-- The patch makes the DynaKube the owner of some features. -/
def Claims (self : String) (x : Exchange) : Prop :=
  ∃ space features s, x.Replaces space s (claimed self features s.labels, marked s.annotations)

/-- The patch drops one of these claims, which the DynaKube holds. -/
def Drops (self : String) (todo : List Claim) (x : Exchange) : Prop :=
  ∃ claim s, claim ∈ todo ∧ TextMap.get? s.labels claim.2.labelKey = some self ∧
    x.Replaces claim.1 s (TextMap.erase s.labels claim.2.labelKey, marked s.annotations)

theorem Claims.not_releases (h : Claims self x) (hself : self ≠ "") : ¬x.Releases space f owner := by
  intro hx
  obtain ⟨place, features, s, hrep⟩ := h
  have hnone := hx.released
  rw [hrep.owner?, owner?_claimed hself] at hnone
  by_cases hp : space = place
  · subst hp
    have howner := hx.owned
    rw [Cluster.owner?_eq hrep.2.1] at howner
    simp only [if_true, howner] at hnone
    split at hnone <;> cases hnone
  · rw [if_neg hp, hx.owned] at hnone
    cases hnone

/-- Where a feature loses its owner to such a patch, the owner is the DynaKube and nobody owns it then. -/
theorem Drops.of_changed {todo : List Claim} (h : Drops self todo x) (howner : x.before.owner? space f = some owner)
    (hchanged : x.after.owner? space f ≠ some owner) :
    owner = self ∧ (space, f) ∈ todo ∧ x.after.owner? space f = none := by
  obtain ⟨⟨place, g⟩, s, hclaim, hheld, hrep⟩ := h
  rw [hrep.owner?] at hchanged ⊢
  by_cases hp : space = place
  · subst hp
    rw [Cluster.owner?_eq hrep.2.1] at howner
    simp only [if_true, owner?_erased] at hchanged ⊢
    by_cases hf : f = g
    · subst hf
      rw [(Labels.owner?_eq_some_iff.mp howner).1] at hheld
      exact ⟨Option.some.inj hheld, hclaim, if_pos rfl⟩
    · rw [if_neg hf] at hchanged
      exact absurd howner hchanged
  · rw [if_neg hp] at hchanged
    exact absurd howner hchanged

theorem Drops.releases {todo : List Claim} (h : Drops self todo x) (hx : x.Releases space f owner) :
    owner = self ∧ (space, f) ∈ todo := by
  have hchanged : x.after.owner? space f ≠ some owner := by simp [hx.released]
  obtain ⟨howner, hclaim, -⟩ := h.of_changed hx.owned hchanged
  exact ⟨howner, hclaim⟩

theorem Drops.mono {todo todo' : List Claim} (h : Drops self todo x) (hsub : ∀ claim ∈ todo, claim ∈ todo') :
    Drops self todo' x := by
  obtain ⟨claim, s, hclaim, hrest⟩ := h
  exact ⟨claim, s, hsub claim hclaim, hrest⟩

/-- However the guard judges, an update under it claims. -/
theorem write_sends (features : List Feature) (st : Memory) :
    ((m.ledger.write space features self (some (m.judge self space)) deadline).run st).run.Sends i
      fun _ x => Claims self x := by
  refine .of_runs fun c tr r c' h => ?_
  obtain ⟨own, hwithout, hall⟩ := write_allOrNothing h
  have hown : accepted own = accepted tr := hwithout.accepted_eq fun mid hmid => by
    obtain ⟨g, hg, labels, st, c₁, v, c₂, hrun⟩ := hmid
    cases hg
    refine accepted_eq_nil fun x hx => ?_
    obtain ⟨name, hname⟩ := hrun.within (consult_within m self space labels features st) hx
    rw [hname]
    rfl
  rw [← hown]
  match r, hall with
  | .ok (true, st'), ⟨y, s, new, pre, mid, st₁, c₁, c₂, hy, hrep, _, _, hrun⟩ =>
    obtain ⟨v, -, hv⟩ := claim_runs hrun
    cases v with
    | error fault => cases hv
    | ok p =>
      cases hv
      rw [hy]
      intro x hx
      obtain rfl := List.mem_singleton.mp hx
      exact ⟨space, features, s, hrep⟩
  | .ok (false, st'), hall => simp [show accepted own = [] from hall]
  | .error fault, hall => simp [show accepted own = [] from hall]

theorem claimAll_sends (todo : List (String × List Feature)) (st : Memory) :
    ((m.claimAll self deadline todo).run st).run.Sends i fun _ x => Claims self x := by
  induction todo generalizing st with
  | nil => exact .done
  | cons entry rest ih =>
    have hcheck : ((liftM (checkDeadline deadline s!"mapping dynakube {self}") : Judging Unit).run st).run.Sends i
        fun _ x => Claims self x :=
      (Attempt.within_state_lift (checkDeadline_sparing deadline _)).sends
    refine Attempt.sends_state_then hcheck fun _ st => Attempt.sends_state_then ?_ fun v st => ?_
    · refine Attempt.sends_state_then .done fun _ st => Attempt.sends_state_then (write_sends _ st) fun written st => ?_
      have hsettle : (settle self entry.1 written st.decisions).Within Request.Sparing :=
        (settle_within self entry.1 written st.decisions).mono fun _ => False.elim
      exact (Attempt.within_state_lift (Attempt.within_lift hsettle)).sends
    · exact Attempt.sends_state_then (ih st) fun _ _ => .done

theorem remove_sends (claim : Claim) :
    (m.ledger.remove claim.1 claim.2 (some self) deadline).run.Sends i fun _ x => Drops self [claim] x := by
  refine .of_runs fun c tr r c' h x hx => ?_
  have hgrounded : Grounded (Ground self [claim] []) [] tr := remove_grounded List.mem_cons_self h
  obtain ⟨past, hground⟩ := hgrounded.of_mem hx
  cases hground with
  | dropped hmem hheld hrep => exact ⟨_, _, hmem, hheld, hrep⟩
  | claimed hmem => cases hmem

theorem releaseAll_sends {operation : String} {noted : Claim → Session Unit} (todo : List Claim)
    (hnoted : ∀ claim, (noted claim).Within fun _ => False) :
    (m.releaseAll self operation deadline noted todo).run.Sends i fun _ x => Drops self todo x := by
  induction todo with
  | nil => exact .done
  | cons claim rest ih =>
    have hrest := ih.mono fun _ x h => h.mono fun other hother => List.mem_cons_of_mem claim hother
    refine Attempt.sends_then (checkDeadline_sparing deadline _).sends fun _ => ?_
    refine Attempt.sends_then ((remove_sends claim).mono fun _ x h => h.mono fun other hother => ?_) fun dropped => ?_
    · rw [List.mem_singleton.mp hother]
      exact List.mem_cons_self
    · cases dropped with
      | false => exact hrest
      | true =>
        have hnote : (noted claim).Within Request.Sparing := (hnoted claim).mono fun _ => False.elim
        refine Attempt.sends_then (Attempt.within_lift hnote).sends fun _ => ?_
        exact Attempt.sends_then hrest fun _ => .done

/-- What a mapping does once it knows what the DynaKube wants. -/
theorem relabel_sends {m : Mapper} {d : DynaKube} (deadline : Option Int) (wanted : List (Feature × List String))
    (stale : List Claim) : (do
      let released ← m.releaseAll d.name s!"mapping dynakube {d.name}" deadline (noteStale d.name) stale
      let (accepted, reaffirmed) ← (m.claimAll d.name deadline (claimsByNamespace wanted)).run' ⟨[], []⟩
      let result : MappingResult := ⟨.text d.name, accepted, reaffirmed, released⟩
      Session.info (s!"Mapped dynakube {d.name}: " ++ result.summary)
      return result : Attempt MappingResult).run.Sends i fun _ x => Claims d.name x ∨ Drops d.name stale x := by
  refine Attempt.sends_then ((releaseAll_sends _ (noteStale_within d.name)).mono fun _ _ => .inr) fun released => ?_
  refine Attempt.sends_then (Attempt.sends_state_forget ((claimAll_sends _ _).mono fun _ _ => .inl)) fun v => ?_
  exact Attempt.sends_then (Attempt.sends_note _) fun _ => .done

/-- What a mapping releases is a claim of its own that was stale in the listing with which it starts. -/
theorem map_releases {d : DynaKube} {r : Except Fault MappingResult} (hname : d.name ≠ "")
    (h : Runs i (m.map d deadline).run c tr r c') (hmem : .asked x ∈ tr) (hx : x.Releases space f owner) :
    owner = d.name ∧ ∃ c₁ objects wanted rest,
      tr = .asked (.call c₁ (.listNamespaces none) (.ok objects) c₁) :: rest ∧
        m.candidates d (Namespaces.records objects) = .ok wanted ∧
        (space, f) ∈ staleClaims d.name wanted (Namespaces.records objects) := by
  have hacc : x ∈ accepted tr := mem_accepted.mpr ⟨hmem, hx.patched⟩
  rcases Attempt.runs_bind.mp h with ⟨fault, rfl, hlist⟩ | ⟨tr₁, records, c₁, tr₂, rfl, hlist, hrest⟩
  · rcases list_runs hlist with ⟨_, _, -, -, hnone⟩ | ⟨_, _, _, hr, _⟩
    · rw [hnone] at hacc
      cases hacc
    · cases hr
  rcases list_runs hlist with ⟨_, _, -, hr, -⟩ | ⟨objects, -, -, hr, rfl⟩
  · cases hr
  cases hr
  rcases Attempt.runs_bind.mp hrest with ⟨fault, rfl, hwanted⟩ | ⟨tr₃, wanted, c₂, tr₄, rfl, hwanted, hmap⟩
  · obtain ⟨rfl, -, -⟩ := Attempt.runs_except.mp hwanted
    cases hacc
  obtain ⟨rfl, hok, rfl⟩ := Attempt.runs_except.mp hwanted
  obtain ⟨mid, -, -, hclaims | hdrops⟩ := relabel_sends deadline wanted _ _ _ _ _ hmap x hacc
  · exact absurd hx (hclaims.not_releases hname)
  · obtain ⟨howner, hstale⟩ := hdrops.releases hx
    exact ⟨howner, _, objects, wanted, _, rfl, hok.symm, hstale⟩

/-- All that an unmapping sends drops claims of the name, which has none unless it is a text. -/
theorem unmap_sends (m : Mapper) (name : Value) (deadline : Option Int) :
    (m.unmap name deadline).run.Sends i fun _ x => ∃ text todo, name = .text text ∧ Drops text todo x := by
  have hnoted (claim : Claim) : (Session.count (.releases claim.2 .unmapped)).Within fun _ => False :=
    ⟨trivial, trivial⟩
  have hreleases (records : List NamespaceRecord) :
      (m.releaseAll name.shown ("unmapping dynakube " ++ name.shown) deadline
        (fun c => Session.count (.releases c.2 .unmapped)) (claimsOf name records)).run.Sends i
        fun _ x => ∃ text todo, name = .text text ∧ Drops text todo x := by
    cases name with
    | text text => exact (releaseAll_sends _ hnoted).mono fun _ x hx => ⟨text, _, rfl, hx⟩
    | _ => exact .done
  refine Attempt.sends_then m.list_sparing.sends fun records => ?_
  refine Attempt.sends_then (hreleases records) fun released => ?_
  exact Attempt.sends_then (Attempt.sends_note _) fun _ => .done

end Mapper
end NamespaceOwnership
