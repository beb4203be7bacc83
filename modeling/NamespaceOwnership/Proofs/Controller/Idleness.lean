import NamespaceOwnership.Proofs.Controller.Listing
import NamespaceOwnership.Proofs.Controller.Parts
import NamespaceOwnership.Proofs.Controller.Settling

/-!
# A resync of what has converged

A resync of a cluster that has converged finds nobody to release, and each of its mappings has nothing to do.
Nothing else that the controller does sends a patch of a namespace, so a resync sends none then, whether it
succeeds or not.
-/
namespace NamespaceOwnership

open Session (Runs)

variable {α : Type} {c : Cluster}

namespace DynaKubes

/-- In a cluster in which every DynaKube can be read, exactly those that are there are listed. -/
theorem mem_list {tr : List Event} {ds : List DynaKube} {version : Value} {c' : Cluster}
    (hvalid : ∀ {name object}, c.dynakubes name = some object →
      ∃ d, DynaKube.ofObject object = .ok d ∧ d.name = name)
    (h : Runs .calm list.run c tr (.ok (ds, version)) c') (d : DynaKube) : d ∈ ds ↔ c.Stored d := by
  obtain ⟨c₁, listing, rest, hm, -, hsorts⟩ := list_runs h
  obtain rfl : c = c₁ := hm
  constructor
  · intro hd
    obtain ⟨object, ⟨name, hname⟩, hread⟩ := hsorts.read d hd
    obtain ⟨e, he, rfl⟩ := hvalid hname
    cases hread.symm.trans he
    exact ⟨object, hname, hread⟩
  · rintro ⟨object, hname, hread⟩
    rcases hsorts.seen object ⟨_, hname⟩ with ⟨e, he, hread'⟩ | ⟨fault, hskipped, -⟩
    · cases hread.symm.trans hread'
      exact he
    · cases hread.symm.trans hskipped

end DynaKubes

namespace Controller

open Control (Idle)

variable {k : Controller} {d : DynaKube}

theorem reconcileAll_idle {ds : List DynaKube} (h : k.mapper.Converged c) (hds : ∀ d ∈ ds, c.Stored d) :
    Idle c (k.reconcileAll ds) := by
  refine (reconcileAll_composed ds).idle fun x hx => ?_
  obtain ⟨_, limit, ⟨d, hd, rfl⟩, rfl⟩ := hx
  exact Mapper.map_idle h (hds d hd) (some limit)

/-- Nobody is left to be released. -/
theorem orphans_eq_nil {known : List String} {objects : List (Option NamespaceObject)}
    (h : k.mapper.Converged c) (hlists : c.Lists objects) (hknown : ∀ d, c.Stored d → d.name ∈ known) :
    orphans known (Namespaces.records objects) = [] := by
  refine List.eq_nil_iff_forall_not_mem.mpr fun orphan horphan => ?_
  obtain ⟨hunknown, r, hr, f, howner⟩ := mem_orphans.mp horphan
  obtain ⟨hne, s, hs, -⟩ := (Mapper.mem_records hlists).mp hr
  have hown : c.owner? r.name f = some orphan := (Mapper.owner?_record hlists hr f).trans howner
  obtain ⟨d, hd, rfl, -⟩ := h.only hne hs hown
  exact hunknown (hknown d hd)

/-- A resync of an orderly cluster that has converged sends no patch. -/
theorem resync_idle (h : k.mapper.Converged c) (ho : k.mapper.Orderly c) : Idle c k.resync := by
  have hlist : ∀ b tr p b' c', Runs .calm ((Control.attempt DynaKubes.list).run.run b) c tr (.ok p, b') c' →
      ∀ d, d ∈ p.1 ↔ c.Stored d := by
    intro b tr p b' c' hrun
    exact DynaKubes.mem_list ho.valid (Control.runs_attempt.mp hrun).1
  refine (Control.Within.attempt DynaKubes.list_sparing).idle.bind hlist ?_
  rintro ⟨ds, version⟩ hds
  refine (reconcileAll_idle h fun d hd => (hds d).mp hd).then fun _ => ?_
  have hrecords : ∀ b tr records b' c',
      Runs .calm ((Control.attempt k.mapper.ledger.list).run.run b) c tr (.ok records, b') c' →
        orphans (ds.map (·.name)) records = [] := by
    intro b tr records b' c' hrun
    obtain ⟨objects, hlists, -, hr, -⟩ := Mapper.list_calm (Control.runs_attempt.mp hrun).1
    cases hr
    exact orphans_eq_nil h hlists fun d hd => List.mem_map.mpr ⟨d, (hds d).mpr hd, rfl⟩
  refine (Control.idle_attempt Mapper.list_idle).bind hrecords fun records hnobody => ?_
  rw [hnobody]
  exact Idle.pure.then fun _ => (planResync_sparing k).idle.then fun _ => .pure

end Controller
end NamespaceOwnership
