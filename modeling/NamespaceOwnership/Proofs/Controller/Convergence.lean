import NamespaceOwnership.Proofs.Controller.Idleness

/-!
# Convergence

From whatever labels an orderly cluster starts, and in whatever order and however often its DynaKubes are
reconciled, each of them at least once: once the owners that do not exist are released, every feature of every
namespace belongs to the DynaKube that wants it and to nobody if none does, and a resync changes nothing more.
-/
namespace NamespaceOwnership

open Session (Runs)

namespace Mapper

/-- Where a cluster has converged, the labels name those who want the places. -/
theorem Converged.mem_owners {m : Mapper} {c : Cluster} {space name : String} {s : Space} {f : Feature}
    (h : m.Converged c) (hne : space ≠ "") (hs : c.spaces space = some s) :
    (f, name) ∈ Labels.owners s.labels ↔ ∃ d, c.Stored d ∧ d.name = name ∧ m.Wants d f space s.labels := by
  rw [Labels.mem_owners_iff, ← Cluster.owner?_eq hs]
  constructor
  · exact h.only hne hs
  · rintro ⟨d, hd, rfl, hw⟩
    exact (h.owned hd hne hs hw).1

end Mapper

namespace Controller

/-- Reconciliations of all DynaKubes of an orderly cluster, followed by the release of the owners that do not
exist, succeed and give every place to the one who wants it, and then a resync sends no patch. -/
theorem converges {k : Controller} {c c' : Cluster} {b b' : Books} {known : List String} {ds : List DynaKube}
    {tr : List Event} {r : Except Fault (List (Option MappingResult))} (ho : k.mapper.Orderly c)
    (hds : ∀ d, d ∈ ds ↔ c.Stored d) (hknown : ∀ name, name ∈ known ↔ c.dynakubes name ≠ none)
    (h : Runs .calm ((k.settle known ds).run.run b) c tr (r, b') c') (ht : Timely k.reconcileTimeout tr) :
    (∃ results, r = .ok results ∧ results.length = ds.length ∧ ∀ result ∈ results, result.isSome) ∧
      (∀ space s, space ≠ "" → c.spaces space = some s → ∃ s', c'.spaces space = some s' ∧
        s'.labels.AgreeElsewhere s.labels ∧ ∀ f name, (f, name) ∈ Labels.owners s'.labels ↔
          ∃ d, c.Stored d ∧ d.name = name ∧ k.mapper.Wants d f space s.labels) ∧
      ∀ books tr' result c'', Runs .calm (k.resync.run.run books) c' tr' result c'' →
        c'' = c' ∧ ∀ x, .asked x ∈ tr' → x.request.isPatch = false := by
  obtain ⟨results, rfl, ⟨hlength, hsome⟩, hrelabels, hconverged⟩ := settle_yields ho hds hknown _ _ _ h ht
  refine ⟨⟨results, rfl, hlength, hsome⟩, fun space s hne hs => ?_, ?_⟩
  · obtain ⟨s', hs', hagree, -⟩ := hrelabels.some hs
    refine ⟨s', hs', hagree, fun f name => ?_⟩
    rw [hconverged.mem_owners hne hs']
    have hstored (d : DynaKube) : c'.Stored d ↔ c.Stored d :=
      ⟨fun hd => hd.congr hrelabels.dynakubes.symm, fun hd => hd.congr hrelabels.dynakubes⟩
    constructor
    · rintro ⟨d, hd, hname, hw⟩
      have hd := (hstored d).mp hd
      exact ⟨d, hd, hname, (ho.wants_congr hd hagree).mp hw⟩
    · rintro ⟨d, hd, hname, hw⟩
      exact ⟨d, (hstored d).mpr hd, hname, (ho.wants_congr hd hagree).mpr hw⟩
  · exact fun books => resync_idle hconverged (ho.relabels hrelabels) books

/-- A resync of an orderly cluster that returns has made it converge. -/
theorem resync_converges {k : Controller} {c c' : Cluster} {b b' : Books} {tr : List Event} {version : Value}
    (ho : k.mapper.Orderly c) (h : Runs .calm (k.resync.run.run b) c tr (.ok version, b') c')
    (ht : Timely k.reconcileTimeout tr) : c.Relabels c' ∧ k.mapper.Converged c' := by
  rw [resync_eq] at h
  rcases Control.runs_bind.mp h with ⟨fault, hf, -⟩ | ⟨tr₁, ⟨ds, v⟩, b₁, c₁, tr₂, rfl, hlist, hrest⟩
  · cases hf
  have hlisted := (Control.runs_attempt.mp hlist).1
  obtain ⟨rfl, -⟩ := DynaKubes.list_sparing.idle (fun _ h => h) _ _ _ hlisted
  have hds : ∀ d, d ∈ ds ↔ c₁.Stored d := DynaKubes.mem_list ho.valid hlisted
  have hknown : ∀ name, name ∈ ds.map (·.name) ↔ c₁.dynakubes name ≠ none := by
    intro name
    rw [List.mem_map]
    constructor
    · rintro ⟨d, hd, rfl⟩
      exact ((hds d).mp hd).dynakubes_ne_none
    · intro hname
      obtain ⟨d, hd, rfl⟩ := ho.exists_stored hname
      exact ⟨d, (hds d).mpr hd, rfl⟩
  rcases Control.runs_bind.mp hrest with ⟨fault, hf, -⟩ | ⟨tr₃, _, b₂, c₂, tr₄, rfl, hsettle, hend⟩
  · cases hf
  have htimely : Timely k.reconcileTimeout tr₃ := ((Pace.timely _).split ((Pace.timely _).split ht).2).1
  obtain ⟨results, -, -, hrelabels, hconverged⟩ := settle_yields ho hds hknown _ _ _ hsettle htimely
  have hidle : Control.Idle c₂ (do k.planResync; return v) := (planResync_sparing k).idle.then fun _ => .pure
  obtain ⟨rfl, -⟩ := hidle b₂ _ _ _ hend
  exact ⟨hrelabels, hconverged⟩

/-- A DynaKube, and a namespace on which one that is gone has left both of its labels. -/
private def littered : Cluster :=
  (Cluster.blank.put "n" ⟨Ledger.claimed "gone" Feature.all .empty, .empty, "1"⟩).setDynaKube "a"
    (some (Mapper.everywhereObject "a"))

private theorem littered_dynakubes {name : String} {object : Value} :
    littered.dynakubes name = some object ↔ name = "a" ∧ object = Mapper.everywhereObject "a" := by
  by_cases hname : name = "a"
  · subst hname
    exact ⟨fun h => ⟨rfl, (Option.some.inj h).symm⟩, fun h => congrArg some h.2.symm⟩
  · have hnone : littered.dynakubes name = none := Function.update_of_ne hname _ _
    simp [hnone, hname]

private theorem stored_littered {d : DynaKube} : littered.Stored d ↔ d = Mapper.everywhere "a" := by
  constructor
  · rintro ⟨object, hobject, hd⟩
    obtain ⟨-, rfl⟩ := littered_dynakubes.mp hobject
    exact Except.ok.inj (hd.symm.trans (Mapper.ofObject_everywhere (by decide)))
  · rintro rfl
    exact ⟨_, rfl, Mapper.ofObject_everywhere (by decide)⟩

private theorem orderly_littered (m : Mapper) : m.Orderly littered where
  valid hobject := by
    obtain ⟨rfl, rfl⟩ := littered_dynakubes.mp hobject
    exact ⟨_, Mapper.ofObject_everywhere (by decide), rfl⟩
  plain := by
    intro d f hd hf
    obtain rfl := stored_littered.mp hd
    have hread := Mapper.read_everywhere "a" f
    exact ⟨_, hread, Mapper.everywhere_plain hread⟩
  alone _ hd he _ _ := by rw [stored_littered.mp hd, stored_littered.mp he]

/-- The DynaKube is given what it wants, and the other label is gone. -/
theorem converges_littered : ∃ (k : Controller) (tr : List Event) (results : List (Option MappingResult))
    (b' : Books) (c' : Cluster) (s' : Space),
    Runs .calm ((k.settle ["a"] [Mapper.everywhere "a"]).run.run {}) littered tr (.ok results, b') c' ∧
      c'.spaces "n" = some s' ∧ (.codeModules, "a") ∈ Labels.owners s'.labels ∧
      ∀ name, (.dataIngest, name) ∉ Labels.owners s'.labels := by
  let k : Controller := ⟨⟨⟨2, by decide⟩, "operator"⟩, 30, 300⟩
  have hfinite : littered.Finite := (Cluster.blank_finite.put _ _).setDynaKube _ _
  obtain ⟨tr, ⟨r, b'⟩, c', hrun, -, hstill⟩ :=
    Session.exists_calm_run hfinite 0 ((k.settle ["a"] [Mapper.everywhere "a"]).run.run {})
  have htimely : Timely k.reconcileTimeout tr :=
    .of_still (Clock.later_of_near (by decide) (by decide)) (by decide) hstill
  have hds : ∀ d, d ∈ [Mapper.everywhere "a"] ↔ littered.Stored d := fun d => by
    rw [List.mem_singleton, stored_littered]
  have hknown : ∀ name, name ∈ ["a"] ↔ littered.dynakubes name ≠ none := fun name => by
    rw [List.mem_singleton, Option.ne_none_iff_exists']
    simp [littered_dynakubes]
  obtain ⟨⟨results, rfl, -⟩, howners, -⟩ := converges (orderly_littered k.mapper) hds hknown hrun htimely
  obtain ⟨s', hs', -, hmem⟩ := howners "n" _ (by decide) rfl
  refine ⟨k, tr, results, b', c', s', hrun, hs', (hmem _ _).mpr ?_, fun name hname => ?_⟩
  · exact ⟨_, stored_littered.mpr rfl, rfl, Mapper.wants_everywhere (by decide) _⟩
  · obtain ⟨d, hd, -, hw⟩ := (hmem _ _).mp hname
    rw [stored_littered.mp hd] at hw
    exact absurd hw.1 (by decide)

end Controller
end NamespaceOwnership
