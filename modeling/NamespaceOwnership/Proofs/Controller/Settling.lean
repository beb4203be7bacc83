import NamespaceOwnership.Proofs.Controller.Bookkeeping
import NamespaceOwnership.Proofs.Controller.Operations
import NamespaceOwnership.Proofs.Mapping.Converged

/-!
# Settling the owners

In an orderly cluster in the calm, reconciling every DynaKube at least once, in any order, and then releasing
the owners that do not exist gives every place to the DynaKube that wants it and to nobody if none does,
whatever the labels were. What carries this over the reconciliations is that the DynaKubes reconciled so far own
what they want and nothing else (`Mapper.Settled`): no later one takes that away, since no two want the same.
-/
namespace NamespaceOwnership

open Session (Runs)

variable {pace : Pace} {c c' : Cluster} {b : Books}

namespace Mapper

variable {m : Mapper} {d : DynaKube} {done : DynaKube → Prop}

/-- These DynaKubes own what they want, with a marker, and nothing else. -/
def Settled (m : Mapper) (done : DynaKube → Prop) (c : Cluster) : Prop :=
  ∀ {d p s f}, done d → p ≠ "" → c.spaces p = some s →
    (m.Wants d f p s.labels → c.owner? p f = some d.name ∧ s.IsMarked) ∧
      (c.owner? p f = some d.name → m.Wants d f p s.labels)

/-- A mapping settles its DynaKube and unsettles no other. -/
theorem Settled.mapped (h : Settled m done c) (ho : m.Orderly c) (hdone : ∀ e, done e → c.Stored e)
    (hd : c.Stored d) (hm : Mapped m d c c') : Settled m (fun e => e = d ∨ done e) c' := by
  intro e p s' f he hp hs'
  obtain ⟨s, hs, hagree, hmark⟩ := hm.relabels.exists_before hs'
  have hstored : c.Stored e := he.elim (· ▸ hd) (hdone e)
  rw [ho.wants_congr hstored hagree]
  by_cases hname : e.name = d.name
  · obtain rfl := hstored.unique hd hname
    refine ⟨fun hw => ?_, fun howner => ?_⟩
    · obtain ⟨howner, t, ht, hmarked⟩ := hm.wanted hp hs hw
      cases hs'.symm.trans ht
      exact ⟨howner, hmarked⟩
    · by_contra hw
      rw [hm.other hp hs hw] at howner
      split at howner
      · cases howner
      · exact absurd howner ‹_›
  · have hbefore := h (f := f) (he.resolve_left fun heq => hname (by rw [heq])) hp hs
    refine ⟨fun hw => ?_, fun howner => ?_⟩
    · obtain ⟨howner, hmarked⟩ := hbefore.1 hw
      have hother : ¬m.Wants d f p s.labels := fun hwd => hname (ho.alone hs hstored hd hw hwd)
      rw [hm.other hp hs hother, howner, if_neg fun heq => hname (Option.some.inj heq)]
      exact ⟨rfl, hmark hmarked⟩
    · by_cases hw : m.Wants d f p s.labels
      · rw [(hm.wanted hp hs hw).1] at howner
        exact absurd (Option.some.inj howner).symm hname
      · rw [hm.other hp hs hw] at howner
        split at howner
        · cases howner
        · exact hbefore.2 howner

end Mapper

namespace Controller

open Mapper (Settled)

variable {k : Controller}

/-- Reconciliations in any order settle all of their DynaKubes. -/
theorem reconcileEach_yields {ds : List DynaKube} {done : DynaKube → Prop} (ho : k.mapper.Orderly c)
    (hds : ∀ d ∈ ds, c.Stored d) (hdone : ∀ d, done d → c.Stored d) (hsettled : Settled k.mapper done c) :
    Control.Yields (.timely k.reconcileTimeout) c b (ds.mapM k.reconcile) fun results _ c' =>
      (results.length = ds.length ∧ ∀ r ∈ results, r.isSome) ∧ c.Relabels c' ∧
        Settled k.mapper (fun d => d ∈ ds ∨ done d) c' := by
  induction ds generalizing c b done with
  | nil =>
    refine .pure ⟨⟨rfl, by simp⟩, .refl c, fun {d p s f} hd => hsettled ?_⟩
    exact hd.resolve_left List.not_mem_nil
  | cons d rest ih =>
    rw [List.mapM_cons]
    have hd : c.Stored d := hds d List.mem_cons_self
    refine (reconcile_yields ho hd).bind fun result b₁ c₁ hfirst => ?_
    obtain ⟨hresult, hmapped⟩ := hfirst
    have hc₁ := hmapped.relabels
    have hrest : ∀ e ∈ rest, c₁.Stored e := fun e he =>
      (hds e (List.mem_cons_of_mem _ he)).congr hc₁.dynakubes
    have hdone₁ : ∀ e, e = d ∨ done e → c₁.Stored e := fun e he =>
      (he.elim (· ▸ hd) (hdone e)).congr hc₁.dynakubes
    have hsettled₁ : Settled k.mapper (fun e => e = d ∨ done e) c₁ := hsettled.mapped ho hdone hd hmapped
    refine (ih (ho.relabels hc₁) hrest hdone₁ hsettled₁).bind fun results b₂ c₂ hlater => .pure ?_
    obtain ⟨⟨hlength, hsome⟩, hc₂, hall⟩ := hlater
    refine ⟨⟨by simp [hlength], ?_⟩, hc₁.trans hc₂, fun {e p s f} he => hall ?_⟩
    · intro r hr
      rcases List.mem_cons.mp hr with rfl | hr
      · exact hresult
      · exact hsome r hr
    · rcases he with he | he
      · rcases List.mem_cons.mp he with rfl | he
        · exact .inr (.inl rfl)
        · exact .inl he
      · exact .inr (.inr he)

/-- The owners that are unmapped own nothing, and all others own what they did. -/
theorem unmapOrphans_yields (todo : List String) :
    Control.Yields (.timely k.reconcileTimeout) c b (k.unmapOrphans todo) fun _ _ c' =>
      c.Relabels c' ∧ ∀ p f, p ≠ "" → c'.owner? p f = (c.owner? p f).filter (· ∉ todo) := by
  induction todo generalizing c b with
  | nil =>
    refine .pure ⟨.refl c, fun p f _ => ?_⟩
    cases c.owner? p f <;> simp [Option.filter]
  | cons orphan rest ih =>
    refine (Control.yields_note _).bind fun _ b₁ c₁ hc => ?_
    obtain ⟨rfl, rfl⟩ := hc
    refine (unmap_yields orphan).bind fun _ b₂ c₂ hunmapped => ?_
    obtain ⟨hc₂, howner⟩ := hunmapped
    refine ih.mono fun _ _ c₃ hrest => ⟨hc₂.trans hrest.1, fun p f hp => ?_⟩
    rw [hrest.2 p f hp, howner p f hp]
    cases hown : c₁.owner? p f with
    | none => simp
    | some owner =>
      by_cases horphan : owner = orphan
      · simp [horphan, Option.filter]
      · simp [horphan, Option.filter]

/-- Where all DynaKubes are settled, nothing is left to do but to release the owners that are not known. -/
theorem converged_of_settled {known : List String} {objects : List (Option NamespaceObject)}
    {done : DynaKube → Prop} (ho : k.mapper.Orderly c) (hsettled : Settled k.mapper done c)
    (hdone : ∀ d, c.Stored d → done d) (hknown : ∀ name, name ∈ known ↔ c.dynakubes name ≠ none)
    (hlists : c.Lists objects) (hr : c.Relabels c') (howner : ∀ p f, p ≠ "" →
      c'.owner? p f = (c.owner? p f).filter (· ∉ orphans known (Namespaces.records objects))) :
    k.mapper.Converged c' where
  owned := by
    intro d p s' f hd hp hs' hw
    have hd : c.Stored d := hd.congr hr.dynakubes.symm
    obtain ⟨s, hs, hagree, hmark⟩ := hr.exists_before hs'
    have hwants : k.mapper.Wants d f p s.labels := (ho.wants_congr hd hagree).mp hw
    obtain ⟨hown, hmarked⟩ := (hsettled (hdone d hd) hp hs).1 hwants
    have hkept : d.name ∉ orphans known (Namespaces.records objects) := fun horphan =>
      (mem_orphans.mp horphan).1 ((hknown d.name).mpr hd.dynakubes_ne_none)
    rw [howner p f hp, hown]
    exact ⟨by simp [Option.filter, hkept], hmark hmarked⟩
  only := by
    intro p s' f name hp hs' hown
    rw [howner p f hp, Option.filter_eq_some_iff] at hown
    obtain ⟨hown, hkept⟩ := hown
    obtain ⟨s, hs, hagree, -⟩ := hr.exists_before hs'
    have hrecord : s.record p ∈ Namespaces.records objects :=
      (Mapper.mem_records hlists).mpr ⟨hp, s, hs, rfl⟩
    have hname : name ∈ known := by
      by_contra hunknown
      have howns : Labels.owner? (s.record p).labels f = some name :=
        (Mapper.owner?_record hlists hrecord f).symm.trans hown
      exact of_decide_eq_true hkept (mem_orphans.mpr ⟨hunknown, _, hrecord, f, howns⟩)
    obtain ⟨d, hd, rfl⟩ := ho.exists_stored ((hknown name).mp hname)
    have hwants : k.mapper.Wants d f p s.labels := (hsettled (hdone d hd) hp hs).2 hown
    exact ⟨d, hd.congr hr.dynakubes, rfl, (ho.wants_congr hd hagree).mpr hwants⟩

/-- Reconciliations one after another, and then the owners that are not known are released. -/
def settle (k : Controller) (known : List String) (ds : List DynaKube) :
    Control (List (Option MappingResult)) := do
  let results ← ds.mapM k.reconcile
  let namespaces ← Control.attempt k.mapper.ledger.list
  k.unmapOrphans (orphans known namespaces)
  return results

theorem reconcileAll_eq (k : Controller) (ds : List DynaKube) :
    k.reconcileAll ds = (do let _ ← ds.mapM k.reconcile) := by
  induction ds with
  | nil => simp [reconcileAll]
  | cons d rest ih => simp [reconcileAll, ih]

/-- A resync settles the DynaKubes in the order in which they are listed. -/
theorem resync_eq (k : Controller) : k.resync = do
    let (ds, version) ← Control.attempt DynaKubes.list
    let _ ← k.settle (ds.map (·.name)) ds
    k.planResync
    return version := by
  simp [resync, settle, reconcileAll_eq]

theorem settle_yields {known : List String} {ds : List DynaKube} (ho : k.mapper.Orderly c)
    (hds : ∀ d, d ∈ ds ↔ c.Stored d) (hknown : ∀ name, name ∈ known ↔ c.dynakubes name ≠ none) :
    Control.Yields (.timely k.reconcileTimeout) c b (k.settle known ds) fun results _ c' =>
      (results.length = ds.length ∧ ∀ r ∈ results, r.isSome) ∧ c.Relabels c' ∧
        k.mapper.Converged c' := by
  have hnone : Settled k.mapper (fun _ => False) c := fun hd => hd.elim
  refine (reconcileEach_yields ho (fun d hd => (hds d).mp hd) (fun _ hd => hd.elim) hnone).bind
    fun results b₁ c₁ heach => ?_
  obtain ⟨hresults, hc₁, hsettled⟩ := heach
  have hdone : ∀ d, c₁.Stored d → d ∈ ds ∨ False := fun d hd =>
    .inl ((hds d).mpr (hd.congr hc₁.dynakubes.symm))
  have hknown₁ : ∀ name, name ∈ known ↔ c₁.dynakubes name ≠ none := fun name => by
    rw [hknown, hc₁.dynakubes]
  refine (Control.yields_attempt Mapper.list_yields).bind fun records b₂ c₂ hlist => ?_
  obtain ⟨⟨rfl, objects, hlists, rfl⟩, rfl⟩ := hlist
  refine (unmapOrphans_yields _).bind fun _ b₃ c₃ hunmapped => .pure ?_
  obtain ⟨hc₃, howner⟩ := hunmapped
  refine ⟨hresults, hc₁.trans hc₃, ?_⟩
  exact converged_of_settled (ho.relabels hc₁) hsettled hdone hknown₁ hlists hc₃ howner

end Controller
end NamespaceOwnership
