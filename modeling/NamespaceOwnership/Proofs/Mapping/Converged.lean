import NamespaceOwnership.Proofs.Mapping.Relabelling

/-!
# A mapping of what has converged

A cluster has converged if every place belongs to the DynaKube that wants it, with a marker, and to nobody if
none does. A mapping has nothing to do there: none of its claims is stale, and each place that it claims has the
labels and the marker already. It sends no patch then, whatever its deadline is.
-/
namespace NamespaceOwnership

open Session (Runs)

variable {c : Cluster} {space : String} {s : Space}

/-- A claim of what its owner has got, with the marker, changes nothing. -/
theorem Ledger.unchanged_claimed {owner : String} {features : List Feature}
    (h : ∀ f ∈ features, Labels.owner? s.labels f = some owner) (hmarked : s.IsMarked) :
    Ledger.unchanged (s.record space) (Ledger.claimed owner features s.labels, Ledger.marked s.annotations) =
      true := by
  refine Bool.and_eq_true_iff.mpr ⟨(TextMap.same_iff _ _).mpr fun key => ?_,
    (TextMap.same_iff _ _).mpr fun key => ?_⟩
  · rw [Ledger.get?_claimed, Space.record_labels]
    split
    · obtain ⟨f, hf, rfl⟩ := ‹_›
      exact (Labels.owner?_eq_some_iff.mp (h f hf)).1.symm
    · rfl
  · rw [Space.record_annotations]
    by_cases hkey : key = markerKey
    · rw [hkey, Ledger.get?_marked, hmarked]
    · exact Ledger.get?_marked_of_ne _ hkey

namespace Mapper

open Ledger

/-- Every place belongs to the DynaKube that wants it, with a marker, and to nobody if none does. -/
structure Converged (m : Mapper) (c : Cluster) : Prop where
  owned : ∀ {d p s f}, c.Stored d → p ≠ "" → c.spaces p = some s → m.Wants d f p s.labels →
    c.owner? p f = some d.name ∧ s.IsMarked
  only : ∀ {p s f name}, p ≠ "" → c.spaces p = some s → c.owner? p f = some name →
    ∃ d, c.Stored d ∧ d.name = name ∧ m.Wants d f p s.labels

variable {m : Mapper} {d : DynaKube} {deadline : Option Int} {objects : List (Option NamespaceObject)}
  {wanted : List (Feature × List String)}

/-- The DynaKube has what it wants, with markers, and nothing else. -/
structure Satisfied (m : Mapper) (d : DynaKube) (c : Cluster) : Prop where
  owned : ∀ {p s f}, p ≠ "" → c.spaces p = some s → m.Wants d f p s.labels →
    c.owner? p f = some d.name ∧ s.IsMarked
  only : ∀ {p s f}, p ≠ "" → c.spaces p = some s → c.owner? p f = some d.name → m.Wants d f p s.labels

theorem Converged.satisfied (h : m.Converged c) (hd : c.Stored d) : m.Satisfied d c where
  owned := h.owned hd
  only hne hs hown := by
    obtain ⟨e, he, hname, hw⟩ := h.only hne hs hown
    obtain rfl := he.unique hd hname
    exact hw

/-- Nothing that it owns is stale. -/
theorem Satisfied.staleClaims_eq_nil (h : m.Satisfied d c) (hlists : c.Lists objects)
    (hwanted : m.candidates d (Namespaces.records objects) = .ok wanted) :
    staleClaims d.name wanted (Namespaces.records objects) = [] := by
  refine List.eq_nil_iff_forall_not_mem.mpr fun claim hclaim => ?_
  obtain ⟨p, f⟩ := claim
  obtain ⟨hne, hown⟩ := (mem_heldBy_records hlists).mp (List.mem_filter.mp hclaim).1
  obtain ⟨s, hs, -⟩ := Option.bind_eq_some_iff.mp hown
  obtain ⟨-, hunwanted⟩ := (stale_iff hlists hwanted hne hs).mp hclaim
  exact hunwanted (h.only hne hs hown)

/-- The places that are to be claimed are owned. -/
theorem Satisfied.claims_owned (h : m.Satisfied d c) (hlists : c.Lists objects)
    (hwanted : m.candidates d (Namespaces.records objects) = .ok wanted) :
    ∀ entry ∈ claimsByNamespace wanted, ∃ s, c.spaces entry.1 = some s ∧ s.IsMarked ∧
      ∀ f ∈ entry.2, Labels.owner? s.labels f = some d.name := by
  intro entry hentry
  obtain ⟨hspace, hne, s, hs, hw⟩ := wanted_claims hlists hwanted entry hentry
  have hclaimed : ∀ f ∈ entry.2, c.owner? entry.1 f = some d.name ∧ s.IsMarked :=
    fun f hf => h.owned hspace hs (hw f hf)
  obtain ⟨f, hf⟩ := List.exists_mem_of_ne_nil _ hne
  refine ⟨s, hs, (hclaimed f hf).2, fun g hg => ?_⟩
  rw [← Cluster.owner?_eq hs]
  exact (hclaimed g hg).1

variable {features : List Feature} {self : String}

theorem claimOne_idle (hs : c.spaces space = some s) (hmarked : s.IsMarked)
    (hown : ∀ f ∈ features, Labels.owner? s.labels f = some self) (st : Memory) :
    ((m.claimOne self deadline space features).run st).run.Idle c := by
  have hreading : ∀ request : Request, request.IsReading → request.isPatch = false := by
    rintro _ ⟨name, rfl⟩
    rfl
  refine Attempt.idle_state_bind .done fun _ st₁ => Attempt.idle_state_bind ?_ fun written st₂ => ?_
  · refine modify_idle hs ((guarded_within s.labels s.annotations st₁).idle hreading) ?_
    intro tr new st' c' hrun
    obtain ⟨v, -, hv⟩ := claim_runs hrun
    cases v with
    | error fault => cases hv
    | ok p =>
      cases hv
      exact unchanged_claimed hown hmarked
  · change ((liftM (settle self space written st₂.decisions) : Judging _).run st₂).run.Idle c
    exact Attempt.idle_state_lift (Attempt.idle_session
      ((settle_within self space written st₂.decisions).idle fun _ => False.elim))

theorem claimAll_idle {todo : List (String × List Feature)}
    (h : ∀ entry ∈ todo, ∃ s, c.spaces entry.1 = some s ∧ s.IsMarked ∧
      ∀ f ∈ entry.2, Labels.owner? s.labels f = some self) (st : Memory) :
    ((m.claimAll self deadline todo).run st).run.Idle c := by
  induction todo generalizing st with
  | nil => exact .done
  | cons entry rest ih =>
    obtain ⟨s, hs, hmarked, hown⟩ := h entry List.mem_cons_self
    have hrest := ih fun entry he => h entry (List.mem_cons_of_mem _ he)
    refine Attempt.idle_state_bind (Attempt.idle_state_lift (checkDeadline_idle deadline _)) fun _ st₁ => ?_
    refine Attempt.idle_state_bind (claimOne_idle hs hmarked hown st₁) fun _ st₂ => ?_
    exact Attempt.idle_state_bind (hrest st₂) fun _ _ => .done

theorem list_idle : m.ledger.list.run.Idle c := Attempt.idle_then (Attempt.idle_call rfl) fun _ => .done

/-- A mapping of what is satisfied sends no patch. -/
theorem Satisfied.map_idle (h : m.Satisfied d c) (deadline : Option Int) : (m.map d deadline).run.Idle c := by
  have hlist : ∀ tr records c', Runs .calm m.ledger.list.run c tr (.ok records) c' →
      ∃ objects, c.Lists objects ∧ records = Namespaces.records objects := by
    intro tr records c' hrun
    obtain ⟨objects, hlists, -, hr, -⟩ := list_calm hrun
    exact ⟨objects, hlists, Except.ok.inj hr⟩
  refine Attempt.idle_bind list_idle hlist ?_
  rintro _ ⟨objects, hlists, rfl⟩
  have hwanted : ∀ tr wanted c', Runs .calm
      (liftM (m.candidates d (Namespaces.records objects)) : Attempt _).run c tr (.ok wanted) c' →
      m.candidates d (Namespaces.records objects) = .ok wanted :=
    fun _ _ _ hrun => (Attempt.runs_except.mp hrun).2.1.symm
  have hread : (liftM (m.candidates d (Namespaces.records objects)) : Attempt _).run.Idle c := by
    cases m.candidates d (Namespaces.records objects) <;> exact .done
  refine Attempt.idle_bind hread hwanted fun wanted hwanted => ?_
  rw [h.staleClaims_eq_nil hlists hwanted]
  refine Attempt.idle_then (.done : (pure [] : Attempt (List Claim)).run.Idle c) fun released => ?_
  refine Attempt.idle_then (Attempt.idle_state_forget (claimAll_idle (h.claims_owned hlists hwanted) _))
    fun v => ?_
  exact Attempt.idle_then (Attempt.idle_session (Session.idle_note _)) fun _ => .done

/-- A mapping of what has converged sends no patch. -/
theorem map_idle (h : m.Converged c) (hd : c.Stored d) (deadline : Option Int) :
    (m.map d deadline).run.Idle c := (h.satisfied hd).map_idle deadline

end Mapper
end NamespaceOwnership
