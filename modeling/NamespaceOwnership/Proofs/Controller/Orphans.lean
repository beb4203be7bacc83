import NamespaceOwnership.Proofs.Controller.Listing
import NamespaceOwnership.Proofs.Controller.Parts
import NamespaceOwnership.Proofs.Controller.Settling
import NamespaceOwnership.Proofs.Mapping.Releases

/-!
# Whom a resync releases

A resync maps the DynaKubes that it could read and then releases the owners that are not among them. So an owner
loses a claim only where its own mapping finds the claim stale, or where no object of its name could be read:
there may be none, but there may also be one with an invalid value, and then a DynaKube that exists loses all of
its claims.
-/
namespace NamespaceOwnership.Controller

open Session (Runs)
open Control (Sends)

variable {α : Type} {i : Interference} {how : List Event → Exchange → Prop} {k : Controller} {c c' : Cluster}
  {b b' : Books} {tr : List Event}

/-- A stretch of a trace that is the mapping of a DynaKube. -/
def IsMapping (i : Interference) (k : Controller) (d : DynaKube) (mid : List Event) : Prop :=
  ∃ limit c r c', Runs i (k.mapper.map d (some limit)).run c mid r c'

/-- A patch that drops a claim of a name. -/
def Unmaps (name : String) (x : Exchange) : Prop := ∃ todo, Mapper.Drops name todo x

/-- The patches of a call are sent in a mapping, or drop claims of the name that is unmapped. -/
theorem Makes.sends {calls : Mapper.Call → Prop} {x : Attempt MappingResult} (hx : k.Makes calls x)
    (hmapping : ∀ d, calls (.mapping d) → ∀ mid x, IsMapping i k d mid → how mid x)
    (hunmapping : ∀ name, calls (.unmapping (.text name)) → ∀ mid x, Unmaps name x → how mid x) :
    x.run.Sends i how := by
  obtain ⟨call, limit, hcall, rfl⟩ := hx
  cases call with
  | mapping d => exact .of_runs fun c tr r c' h x _ => hmapping d hcall tr x ⟨limit, c, r, c', h⟩
  | unmapping name =>
    refine (Mapper.unmap_sends k.mapper name (some limit)).mono fun mid x h => ?_
    obtain ⟨text, todo, rfl, hdrops⟩ := h
    exact hunmapping text hcall mid x ⟨todo, hdrops⟩

theorem reconcile_sends (d : DynaKube) : Sends i (fun mid _ => IsMapping i k d mid) (k.reconcile d) := by
  refine (reconcile_composed d).sends fun x hx => hx.sends ?_ ?_
  · rintro _ ⟨⟩ mid x h
    exact h
  · rintro name ⟨⟩

theorem unmap_sends (name : Value) :
    Sends i (fun _ x => ∃ text, name = .text text ∧ Unmaps text x) (k.unmap name) := by
  refine (unmap_composed name).sends fun x hx => hx.sends ?_ ?_
  · rintro d ⟨⟩
  · rintro text ⟨⟩ mid x h
    exact ⟨text, rfl, h⟩

theorem unmapOrphans_sends (todo : List String) :
    Sends i (fun _ x => ∃ orphan ∈ todo, Unmaps orphan x) (k.unmapOrphans todo) := by
  refine (unmapOrphans_composed todo).sends fun x hx => hx.sends ?_ ?_
  · rintro d ⟨orphan, -, ⟨⟩⟩
  · rintro name ⟨orphan, horphan, ⟨⟩⟩ mid x h
    exact ⟨name, horphan, h⟩

/-- Everything that is sent then belongs to a mapping of one of them or drops a claim of another name. -/
theorem resyncListed_sends (ds : List DynaKube) (version : Value) :
    Sends i (fun mid x => (∃ d ∈ ds, IsMapping i k d mid) ∨ ∃ orphan, orphan ∉ ds.map (·.name) ∧ Unmaps orphan x)
      (k.resyncListed ds version) := by
  refine (resyncListed_composed ds version).sends fun x hx => hx.sends ?_ ?_
  · rintro d (⟨e, he, ⟨⟩⟩ | ⟨orphan, -, ⟨⟩⟩) mid x h
    exact .inl ⟨d, he, h⟩
  · rintro name (⟨d, -, ⟨⟩⟩ | ⟨orphan, horphan, ⟨⟩⟩) mid x h
    exact .inr ⟨name, horphan, h⟩

/-- The claim of the DynaKube was stale in the listing with which its mapping starts. -/
def StaleIn (k : Controller) (d : DynaKube) (mapping : List Event) (claim : Claim) : Prop :=
  ∃ c objects wanted rest, mapping = .asked (.call c (.listNamespaces none) (.ok objects) c) :: rest ∧
    k.mapper.candidates d (Namespaces.records objects) = .ok wanted ∧
    claim ∈ Mapper.staleClaims d.name wanted (Namespaces.records objects)

/-- Whatever others do and whichever calls fail: an owner loses a claim in a resync only if a DynaKube of its name
was listed and its mapping dropped the claim as stale, or if every listed object of its name was skipped because
of an invalid value. -/
theorem resync_releases {r : Except Fault Value} {x : Exchange} {space owner : String} {f : Feature}
    (h : Runs i (k.resync.run.run b) c tr (r, b') c') (hmem : .asked x ∈ tr) (hx : x.Releases space f owner) :
    ∃ c₀ listing rest, i.moves c c₀ ∧ tr = .asked (.call c₀ .listDynaKubes (.ok listing) c₀) :: rest ∧
      ((∃ object d mapping, c₀.Holds object ∧ DynaKube.ofObject object = .ok d ∧ d.name = owner ∧
          mapping <:+: tr ∧ IsMapping i k d mapping ∧ .asked x ∈ mapping ∧ StaleIn k d mapping (space, f)) ∨
        ∀ object, c₀.Holds object → object.IsNamed owner → object.Skipped) := by
  have hacc : x ∈ accepted tr := mem_accepted.mpr ⟨hmem, hx.patched⟩
  rcases Control.runs_bind.mp h with ⟨fault, rfl, hlist⟩ | ⟨tr₁, ⟨ds, version⟩, b₁, c₁, tr₂, rfl, hlist, hrest⟩
  · rw [hlist.accepted_eq (Control.Within.attempt DynaKubes.list_sparing b)] at hacc
    cases hacc
  rw [accepted_append, hlist.accepted_eq (Control.Within.attempt DynaKubes.list_sparing b), List.nil_append] at hacc
  obtain ⟨c₀, listing, rest, hm, rfl, hsorts⟩ := DynaKubes.list_runs (Control.runs_attempt.mp hlist).1
  refine ⟨c₀, listing, rest ++ tr₂, hm, rfl, ?_⟩
  obtain ⟨mid, hmid, hmem, ⟨d, hd, hmapping⟩ | ⟨orphan, hunknown, todo, hdrops⟩⟩ :=
    resyncListed_sends ds version b₁ c₁ tr₂ _ c' hrest x hacc
  · obtain ⟨object, hobject, hread⟩ := hsorts.read d hd
    obtain ⟨limit, c₂, v, c₃, hrun⟩ := id hmapping
    obtain ⟨rfl, hstale⟩ := Mapper.map_releases (DynaKube.name_ne_empty hread) hrun hmem hx
    exact .inl ⟨object, d, mid, hobject, hread, rfl, hmid.trans (List.suffix_append _ tr₂).isInfix, hmapping, hmem,
      hstale⟩
  · obtain ⟨rfl, -⟩ := hdrops.releases hx
    refine .inr fun object hobject hnamed => (hsorts.seen object hobject).resolve_left ?_
    rintro ⟨d, hd, hread⟩
    exact hunknown (List.mem_map.mpr ⟨d, hd, DynaKube.name_of_isNamed hnamed hread⟩)

section Crippled

/-- In the calm, where no deadline passes, the owners to be released lose every claim. -/
theorem unmapOrphans_releases {todo : List String} {r : Except Fault Unit} {space owner : String} {f : Feature}
    (h : Runs .calm ((k.unmapOrphans todo).run.run b) c tr (r, b') c') (ht : Timely k.reconcileTimeout tr)
    (hne : space ≠ "") (hmem : owner ∈ todo) (howner : c.owner? space f = some owner) :
    ∃ x, .asked x ∈ tr ∧ x.Releases space f owner := by
  obtain ⟨_, -, -, hafter⟩ := unmapOrphans_yields todo _ _ _ h ht
  have hgone : c'.owner? space f ≠ some owner := by
    rw [hafter space f hne, howner]
    simp [Option.filter, hmem]
  obtain ⟨x, hx, hbefore, hchanged⟩ := h.exists_change (fun c => c.owner? space f = some owner) howner hgone
  obtain ⟨mid, -, -, orphan, -, dropped, hdrops⟩ := unmapOrphans_sends todo b _ _ _ _ h x hx
  obtain ⟨hasked, hpatched⟩ := mem_accepted.mp hx
  exact ⟨x, hasked, hpatched, hbefore, (hdrops.of_changed hbefore hchanged).2.2⟩

private def crippled : Value :=
  .fields [("metadata", .fields [("name", .text "a")]),
    ("spec", .fields [("codeModules", .fields [("enabled", .int 5)])])]

private theorem crippled_skipped : crippled.Skipped :=
  ⟨.flagNotBoolean .codeModules (.int 5), rfl, rfl⟩

private theorem crippled_isNamed : crippled.IsNamed "a" := ⟨_, _, rfl, rfl, by decide, rfl⟩

private def taken : Space := ⟨Ledger.claimed "a" [.codeModules] .empty, .empty, "1"⟩

/-- The only DynaKube has a flag that is no truth value, and it owns a namespace. -/
private def damaged : Cluster := (Cluster.blank.put "n" taken).setDynaKube "a" (some crippled)

private theorem damaged_dynakubes {name : String} {object : Value} :
    damaged.dynakubes name = some object ↔ name = "a" ∧ object = crippled := by
  by_cases hname : name = "a"
  · subst hname
    exact ⟨fun h => ⟨rfl, (Option.some.inj h).symm⟩, fun h => congrArg some h.2.symm⟩
  · have hnone : damaged.dynakubes name = none := Function.update_of_ne hname _ _
    simp [hnone, hname]

private def manager : Controller := ⟨⟨⟨2, Nat.two_pos⟩, "operator"⟩, 30, 300⟩

private def damagedListing : Value := .fields [("items", .list [crippled])]

private theorem damaged_lists : damaged.ListsDynaKubes damagedListing := by
  refine ⟨_, ["a"], rfl, by simp, fun name => ?_, rfl⟩
  rw [List.mem_singleton, Option.ne_none_iff_exists']
  simp [damaged_dynakubes]

private theorem damaged_listed :
    ∃ tr version, Runs .calm DynaKubes.list.run damaged tr (.ok ([], version)) damaged := by
  have hlisted : Interference.calm.Answers damaged (.api .listDynaKubes) (.ok damagedListing) damaged :=
    ⟨rfl, damaged_lists⟩
  have hsorted : ∃ tr ds version, ds = [] ∧ Runs .calm DynaKubes.list.run damaged tr (.ok (ds, version)) damaged :=
    ⟨_, _, _, List.mergeSort_nil, .ask rfl hlisted (.tell (.done _ _))⟩
  obtain ⟨tr, ds, version, rfl, hrun⟩ := hsorted
  exact ⟨tr, version, hrun⟩

/-- What follows the listing takes the namespace away. -/
private theorem damaged_releases {version : Value} {r : Except Fault Value}
    (h : Runs .calm ((manager.resyncListed [] version).run.run {}) damaged tr (r, b') c')
    (hstill : ∀ x, .asked x ∈ tr → ∀ time ∈ x.time?, time = 0) :
    ∃ x, .asked x ∈ tr ∧ x.Releases "n" .codeModules "a" := by
  have hkept {tr' : List Event} (hsub : ∀ e ∈ tr', e ∈ tr) : Timely manager.reconcileTimeout tr' :=
    .of_still (Clock.later_of_near (by decide) (by decide)) (by decide) fun x hx => hstill x (hsub _ hx)
  have howner : damaged.owner? "n" .codeModules = some "a" := rfl
  rcases Control.runs_bind.mp h with ⟨fault, -, hnone⟩ | ⟨tr₁, _, b₁, c₁, tr₂, rfl, hnone, hrest⟩
  · obtain ⟨-, hr, -⟩ := Session.runs_done.mp hnone
    cases hr
  obtain ⟨rfl, hr, rfl⟩ := Session.runs_done.mp hnone
  cases hr
  rcases Control.runs_bind.mp hrest with ⟨fault, -, hlist⟩ | ⟨tr₃, records, b₂, c₂, tr₄, rfl, hlist, hrest⟩
  · obtain ⟨_, -, -, hr, -⟩ := Mapper.list_calm (Control.runs_attempt.mp hlist).1
    cases hr
  obtain ⟨objects, hlists, rfl, hr, -⟩ := Mapper.list_calm (Control.runs_attempt.mp hlist).1
  cases hr
  have hrecord : taken.record "n" ∈ Namespaces.records objects :=
    (Mapper.mem_records hlists).mpr ⟨by decide, taken, rfl, rfl⟩
  have horphan : "a" ∈ orphans [] (Namespaces.records objects) :=
    mem_orphans.mpr ⟨List.not_mem_nil, _, hrecord, .codeModules, rfl⟩
  rcases Control.runs_bind.mp hrest with ⟨fault, -, hunmap⟩ | ⟨tr₅, _, b₃, c₃, tr₆, rfl, hunmap, -⟩
  all_goals
    obtain ⟨x, hx, hreleases⟩ := unmapOrphans_releases hunmap (hkept (by simp +contextual)) (by decide) horphan howner
    exact ⟨x, by simp [hx], hreleases⟩

private theorem damaged_run : ∃ tr r b' c' x, Runs .calm (manager.resync.run.run {}) damaged tr (r, b') c' ∧
    .asked x ∈ tr ∧ x.Releases "n" .codeModules "a" := by
  have hfinite : damaged.Finite := (Cluster.blank_finite.put _ _).setDynaKube _ _
  obtain ⟨tr₁, version, hlist⟩ := damaged_listed
  obtain ⟨tr₂, ⟨r, b'⟩, c', hrest, -, hstill⟩ :=
    Session.exists_calm_run hfinite 0 ((manager.resyncListed [] version).run.run {})
  obtain ⟨x, hx, hreleases⟩ := damaged_releases hrest hstill
  have hattempt : Runs .calm ((Control.attempt DynaKubes.list).run.run {}) damaged tr₁ (.ok ([], version), {})
      damaged := Control.runs_attempt.mpr ⟨hlist, rfl⟩
  exact ⟨tr₁ ++ tr₂, r, b', c', x, Control.runs_bind.mpr (.inr ⟨_, _, _, _, _, rfl, hattempt, hrest⟩),
    List.mem_append_right _ hx, hreleases⟩

/-- A DynaKube that exists throughout loses a claim, though it was not mapped, since it was skipped. -/
theorem skipped_dynakube_released : ∃ (k : Controller) (c c' : Cluster) (tr : List Event) (r : Except Fault Value)
    (b' : Books) (x : Exchange) (object : Value), Runs .calm (k.resync.run.run {}) c tr (r, b') c' ∧
      .asked x ∈ tr ∧ x.Releases "n" .codeModules "a" ∧ c.dynakubes "a" = some object ∧ object.IsNamed "a" ∧
      ∀ other d, c.Holds other → DynaKube.ofObject other = .ok d → d.name ≠ "a" := by
  obtain ⟨tr, r, b', c', x, hrun, hx, hreleases⟩ := damaged_run
  refine ⟨manager, damaged, c', tr, r, b', x, crippled, hrun, hx, hreleases, rfl, crippled_isNamed, ?_⟩
  rintro other d ⟨name, hname⟩ hread
  obtain ⟨-, rfl⟩ := damaged_dynakubes.mp hname
  obtain ⟨e, he, -⟩ := crippled_skipped
  cases hread.symm.trans he

/-- There the theorem says that the object of the owner was skipped. -/
theorem resync_releases_skipped : ∃ (k : Controller) (c c' : Cluster) (tr : List Event) (r : Except Fault Value)
    (b' : Books) (x : Exchange), Runs .calm (k.resync.run.run {}) c tr (r, b') c' ∧ .asked x ∈ tr ∧
      x.Releases "n" .codeModules "a" ∧ ∀ object, c.Holds object → object.IsNamed "a" → object.Skipped := by
  obtain ⟨tr, r, b', c', x, hrun, hx, hreleases⟩ := damaged_run
  refine ⟨manager, damaged, c', tr, r, b', x, hrun, hx, hreleases, ?_⟩
  obtain ⟨c₀, listing, rest, hm, -, ⟨object, d, -, ⟨name, hname⟩, hread, -⟩ | hskipped⟩ :=
    resync_releases hrun hx hreleases
  · obtain rfl : damaged = c₀ := hm
    obtain ⟨-, rfl⟩ := damaged_dynakubes.mp hname
    obtain ⟨e, he, -⟩ := crippled_skipped
    cases hread.symm.trans he
  · obtain rfl : damaged = c₀ := hm
    exact hskipped

end Crippled

end NamespaceOwnership.Controller
