import NamespaceOwnership.Proofs.Mapping.Exactness

/-!
# Mapping after a failure

Where nobody else writes namespaces, a mapping that fails has claimed some candidates and dropped some stale places,
and has done nothing else (`Mapper.Underway`). If its selectors do not look at the labels of the features, then what
is left to do is what the next mapping finds: the candidates are the same ones, and the stale places are those that
were not dropped. So a mapping that returns in the end, after however many that failed, has made of the namespaces
what the first one would have made of them (`Mapper.map_resumes`).
-/
namespace NamespaceOwnership

open Session (Runs)

namespace Mapper

variable {i : Interference} {m : Mapper} {d : DynaKube} {c c' e e' : Cluster} {deadline : Option Int}
  {claims drops claims' drops' : String → Feature → Prop} {p : String} {f : Feature} {tr : List Event}

/-- Some of the candidates have been claimed and some of the stale places dropped, and all else is as it was. -/
structure Underway (m : Mapper) (d : DynaKube) (claims drops : String → Feature → Prop) (c e : Cluster) : Prop where
  candidate : ∀ {p f}, claims p f → m.Candidate d c p f
  stale : ∀ {p f}, drops p f → m.Stale d c p f
  rewrites : Rewrites d.name claims drops c.views e.views

/-- Calls of a mapping of the same DynaKube one after another, whatever comes of them. Nobody else writes namespaces
while they are on or in between. -/
inductive Repeated (m : Mapper) (d : DynaKube) (c : Cluster) : Cluster → Prop where
  | none {e : Cluster} (same : e.views = c.views) : Repeated m d c e
  | again {i : Interference} {deadline : Option Int} {tr : List Event} {r : Except Fault MappingResult}
      {e e' e'' : Cluster} (before : Repeated m d c e) (alone : i.Solitary)
      (call : Runs i (m.map d deadline).run e tr r e') (same : e''.views = e'.views) : Repeated m d c e''

theorem Underway.refl (h : e.views = c.views) : m.Underway d (fun _ _ => False) (fun _ _ => False) c e :=
  ⟨False.elim, False.elim, by rw [h]; exact .refl c.views⟩

/-- A mapping is under way when it ends. -/
theorem map_underway {r : Except Fault MappingResult} (hi : i.Solitary)
    (h : Runs i (m.map d deadline).run c tr r c') : ∃ claims drops, m.Underway d claims drops c c' := by
  rcases map_prefix hi h with ⟨hsame, -⟩ | ⟨stale, claims, k, hplanned, hprogress⟩
  · exact ⟨_, _, .refl hsame⟩
  · have hrewrites := hplanned.rewrites_part (stale.take_subset k) (claims.take_subset (k - stale.length))
    rw [← take_steps, ← hprogress.views] at hrewrites
    refine ⟨_, _, fun hp => hplanned.places_iff.mp ?_, fun hmem => hplanned.stale_iff.mp ?_, hrewrites⟩
    · obtain ⟨entry, hentry, hrest⟩ := hp
      exact ⟨entry, List.mem_of_mem_take hentry, hrest⟩
    · exact List.mem_of_mem_take hmem

section Plain

variable (hplain : ∀ f, d.enables f = true → ∀ parsed, LabelSelector.read (d.selectorFor f) = .ok parsed → parsed.Plain)

include hplain

/-- The candidates stay the same. -/
theorem Underway.candidate_iff (h : m.Underway d claims drops c e) : m.Candidate d e p f ↔ m.Candidate d c p f := by
  constructor
  · rintro ⟨hne, t, ht, hw⟩
    obtain ⟨s, hs, hrewritten⟩ := h.rewrites.exists_before ht
    exact ⟨hne, s, hs, hw.congr hrewritten.agreeElsewhere (hplain f hw.1)⟩
  · rintro ⟨hne, s, hs, hw⟩
    obtain ⟨t, ht, hrewritten⟩ := h.rewrites.exists_space hs
    exact ⟨hne, t, ht, hw.congr hrewritten.agreeElsewhere.symm (hplain f hw.1)⟩

/-- The stale places are those that were not dropped. -/
theorem Underway.stale_iff (h : m.Underway d claims drops c e) :
    m.Stale d e p f ↔ m.Stale d c p f ∧ ¬drops p f := by
  rw [Stale, Stale, h.candidate_iff hplain]
  constructor
  · rintro ⟨hne, howner, hnot⟩
    obtain ⟨t, ht, hlabel⟩ := Option.bind_eq_some_iff.mp howner
    obtain ⟨s, hs, hrewritten⟩ := h.rewrites.exists_before ht
    have hclaims : ¬claims p f := fun hp => hnot (h.candidate hp)
    have hdrops : ¬drops p f := by
      intro hp
      have hnone := hrewritten.dropped hclaims hp
      rw [show t.view.labels f.labelKey = _ from (Labels.owner?_eq_some_iff.mp hlabel).1] at hnone
      cases hnone
    refine ⟨⟨hne, ?_, hnot⟩, hdrops⟩
    rw [Cluster.owner?_eq hs, ← hlabel]
    exact Labels.owner?_congr (hrewritten.kept hclaims hdrops).symm
  · rintro ⟨⟨hne, howner, hnot⟩, hdrops⟩
    obtain ⟨s, hs, hlabel⟩ := Option.bind_eq_some_iff.mp howner
    obtain ⟨t, ht, hrewritten⟩ := h.rewrites.exists_space hs
    refine ⟨hne, ?_, hnot⟩
    rw [Cluster.owner?_eq ht, ← hlabel]
    exact Labels.owner?_congr (hrewritten.kept (fun hp => hnot (h.candidate hp)) hdrops)

/-- What is under way may go on. -/
theorem Underway.trans (h : m.Underway d claims drops c c') (h' : m.Underway d claims' drops' c' e) :
    m.Underway d (fun p f => claims p f ∨ claims' p f) (fun p f => drops p f ∨ drops' p f) c e where
  candidate hp := hp.elim h.candidate fun hp => (h.candidate_iff hplain).mp (h'.candidate hp)
  stale hp := hp.elim h.stale fun hp => ((h.stale_iff hplain).mp (h'.stale hp)).1
  rewrites := h.rewrites.trans h'.rewrites fun hdrop hclaim =>
    (h'.stale hdrop).2.2 ((h.candidate_iff hplain).mpr (h.candidate hclaim))

theorem Repeated.underway (h : m.Repeated d c e) : ∃ claims drops, m.Underway d claims drops c e := by
  induction h with
  | none same => exact ⟨_, _, .refl same⟩
  | again before alone call same ih =>
    obtain ⟨_, _, hbefore⟩ := ih
    obtain ⟨_, _, hcall⟩ := map_underway alone call
    exact ⟨_, _, (hbefore.trans hplain hcall).trans hplain (.refl same)⟩

/-- Carrying out what is left completes it. -/
theorem Underway.completed (h : m.Underway d claims drops c e)
    (hrest : Rewrites d.name (m.Candidate d e) (m.Stale d e) e.views e'.views) :
    Rewrites d.name (m.Candidate d c) (m.Stale d c) c.views e'.views := by
  have hall := h.trans hplain ⟨id, id, hrest⟩
  refine hall.rewrites.congr (fun p f => ⟨hall.candidate, fun hp => .inr ?_⟩) fun p f => ⟨hall.stale, fun hp => ?_⟩
  · exact (h.candidate_iff hplain).mpr hp
  · exact (em (drops p f)).imp_right fun hnot => (h.stale_iff hplain).mpr ⟨hp, hnot⟩

end Plain

/-- A claim that is the next step of a plan is on a namespace where so far only stale claims were dropped. -/
theorem Planned.next_claim {stale : List Claim} {claims : List (String × List Feature)} {features : List Feature}
    {k : Nat} (h : m.Planned d c stale claims) (hnext : (steps stale claims)[k]? = some (.claim p features)) :
    ∃ v w, c.views p = some v ∧ carryOut d.name ((steps stale claims).take k) c.views p = some w ∧
      v.Rewritten d.name (fun _ => False) (m.Stale d c p) w := by
  have hk : stale.length ≤ k := by
    by_contra hlt
    rw [steps, List.getElem?_append_left (by simpa using hlt)] at hnext
    simp at hnext
  obtain ⟨j, rfl⟩ := Nat.exists_eq_add_of_le hk
  rw [getElem?_steps] at hnext
  obtain ⟨entry, hentry, hstep⟩ := Option.map_eq_some_iff.mp hnext
  cases hstep
  have hafter {other} (hother : other ∈ claims.take j) : other.1 < entry.1 := by
    have hsorted := h.claims_sorted
    rw [← claims.take_append_drop j] at hsorted
    refine (List.pairwise_append.mp hsorted).2.2 other hother entry (List.mem_of_getElem? (i := 0) ?_)
    rw [List.getElem?_drop]
    exact hentry
  have hfree (f : Feature) : ¬Places (claims.take j) entry.1 f := by
    rintro ⟨other, hother, hname, -⟩
    exact String.lt_irrefl _ (hname ▸ hafter hother)
  have hrewrites := h.rewrites_part (List.Subset.refl stale) (claims.take_subset j)
  obtain ⟨s, hs⟩ := Option.ne_none_iff_exists'.mp (h.spaces_of_mem_claims (List.mem_of_getElem? hentry))
  obtain ⟨w, hw, hrewritten⟩ := hrewrites.some (Cluster.views_eq hs)
  rw [take_steps, List.take_of_length_le (Nat.le_add_right _ j), Nat.add_sub_cancel_left]
  refine ⟨_, w, Cluster.views_eq hs, hw, hrewritten.congr (fun f => ?_) fun f => h.stale_iff⟩
  exact iff_false_intro (hfree f)

/-- What a mapping that failed has left behind. -/
structure Aborted (m : Mapper) (d : DynaKube) (c : Cluster) (tr : List Event) (fault : Fault) (c' : Cluster) :
    Prop where
  part : c'.views = c.views ∨ ∃ stale claims k, m.Planned d c stale claims ∧ k ≤ (steps stale claims).length ∧
    c'.views = carryOut d.name ((steps stale claims).take k) c.views
  refused : ∀ error, fault = .selector error →
    c'.views = c.views ∧ ∀ x, .asked x ∈ tr → x.request = .api (.listNamespaces none)
  opposed : ∀ conflict, fault = .ownership conflict → ∃ v w, c.views conflict.namespaceName = some v ∧
    c'.views conflict.namespaceName = some w ∧
    v.Rewritten d.name (fun _ => False) (m.Stale d c conflict.namespaceName) w

/-- On the namespace of a conflict nothing has happened if there was nothing to drop. -/
theorem Aborted.untouched {fault : Fault} {conflict : OwnershipConflict} (h : m.Aborted d c tr fault c')
    (hconflict : fault = .ownership conflict) (hnone : ∀ f, ¬m.Stale d c conflict.namespaceName f) :
    c'.views conflict.namespaceName = c.views conflict.namespaceName := by
  obtain ⟨v, w, hv, hw, hrewritten⟩ := h.opposed conflict hconflict
  have hsame := hrewritten.congr (fun _ => Iff.rfl) fun f => iff_false_intro (hnone f)
  rw [hv, hw, hsame.unique (.refl v)]

theorem map_aborted {fault : Fault} (hi : i.Solitary) (h : Runs i (m.map d deadline).run c tr (.error fault) c') :
    m.Aborted d c tr fault c' := by
  rcases map_prefix hi h with ⟨hsame, honly, fault', hfault, hother⟩ | ⟨stale, claims, k, hplanned, hprogress⟩
  · cases hfault
    exact ⟨.inl hsame, fun _ _ => ⟨hsame, honly⟩, fun conflict hconflict => absurd hconflict (hother conflict)⟩
  · refine ⟨.inr ⟨stale, claims, k, hplanned, hprogress.le, hprogress.views⟩, ?_, ?_⟩
    · rintro error rfl
      rcases hprogress.error _ rfl with hout | ⟨_, _, hconflict, -⟩
      · exact hout.elim
      · cases hconflict
    · rintro conflict rfl
      rcases hprogress.error _ rfl with hout | ⟨_, features, hconflict, hnext⟩
      · exact hout.elim
      · cases hconflict
        rw [hprogress.views]
        exact hplanned.next_claim hnext

/-- What a mapping that failed has left behind, and what a mapping that returns makes of it in the end. -/
theorem map_resumes {fault : Fault} (hi : i.Solitary) (h : Runs i (m.map d deadline).run c tr (.error fault) c') :
    m.Aborted d c tr fault c' ∧
      (∀ conflict, fault = .ownership conflict → (∀ f, ¬m.Stale d c conflict.namespaceName f) →
        c'.views conflict.namespaceName = c.views conflict.namespaceName) ∧
      ((∀ f, d.enables f = true → ∀ parsed, LabelSelector.read (d.selectorFor f) = .ok parsed → parsed.Plain) →
        ∀ {e i' deadline' tr' v e'}, m.Repeated d c' e → i'.Solitary →
          Runs i' (m.map d deadline').run e tr' (.ok v) e' →
          Rewrites d.name (m.Candidate d c) (m.Stale d c) c.views e'.views ∧
            ∀ {i'' deadline'' tr'' w c''}, i''.Solitary → Runs i'' (m.map d deadline'').run c tr'' (.ok w) c'' →
              e'.views = c''.views) := by
  have haborted := map_aborted hi h
  refine ⟨haborted, fun conflict hconflict hnone => haborted.untouched hconflict hnone,
    fun hplain e i' deadline' tr' v e' hrepeated hi' hagain => ?_⟩
  obtain ⟨_, _, hfailed⟩ := map_underway hi h
  obtain ⟨_, _, hbetween⟩ := hrepeated.underway hplain
  have hdone := (hfailed.trans hplain hbetween).completed hplain (map_rewrites hi' hagain)
  exact ⟨hdone, fun hi'' hdirect => hdone.unique (map_rewrites hi'' hdirect)⟩

section Parted

/-- Where `b` defends its code modules, a mapping of `a` meets a conflict. -/
theorem exists_conflict : ∃ tr conflict c', Runs .calm (warden.map (everywhere "a") none).run defended tr
    (.error (.ownership conflict)) c' ∧ c'.Finite := by
  obtain ⟨tr, r, c', hrun, hfinite, -⟩ := Session.exists_calm_run defended_finite 0 (warden.map (everywhere "a") none).run
  rcases map_calm (read_everywhere_of "a") (fun _ _ => defended_interpretable _) hrun with ⟨-, conflict, rfl⟩ | ⟨hfree, -⟩
  · exact ⟨tr, conflict, c', hrun, hfinite⟩
  · exact absurd defended_opposed hfree

theorem map_resumes_parted : ∃ (tr tr' : List Event) (conflict : OwnershipConflict) (c e : Cluster)
    (v : MappingResult) (w : View),
    Runs .calm (warden.map (everywhere "a") none).run defended tr (.error (.ownership conflict)) c ∧
      Runs .calm (warden.map (everywhere "a") none).run (c.setDynaKube "b" none) tr' (.ok v) e ∧ e.views "n" = some w ∧
      w.labels Feature.codeModules.labelKey = some "a" ∧ w.labels Feature.dataIngest.labelKey = none ∧
      w.annotations markerKey = some "true" := by
  obtain ⟨tr, conflict, c, hfirst, hfinite⟩ := exists_conflict
  obtain ⟨tr', r, e, hsecond, -, -⟩ :=
    Session.exists_calm_run (hfinite.setDynaKube "b" none) 0 (warden.map (everywhere "a") none).run
  have hnobody : (c.setDynaKube "b" none).dynakubes = fun _ => none := by
    funext name
    by_cases hname : name = "b"
    · simp [hname, Cluster.setDynaKube]
    · have hother : defended.dynakubes name = none := Function.update_of_ne hname ..
      exact (Function.update_of_ne hname ..).trans ((congrFun hfirst.dynakubes_eq name).trans hother)
  rcases map_calm (read_everywhere_of "a") (fun _ _ => .of_none (congrFun hnobody _)) hsecond with ⟨hopposed, -⟩ | ⟨-, v, rfl⟩
  · exact absurd hopposed (not_opposed hnobody)
  have hbetween : warden.Repeated (everywhere "a") c (c.setDynaKube "b" none) := .none (Cluster.views_congr rfl)
  have hrewrites := ((map_resumes Interference.calm_solitary hfirst).2.2 (fun f _ _ => everywhere_plain) hbetween
    Interference.calm_solitary hsecond).1
  obtain ⟨w, hw, hrewritten⟩ := hrewrites.some (Cluster.views_eq defended_spaces)
  have hstale := parted_stale defended_spaces
  exact ⟨tr, tr', conflict, c, e, v, w, hfirst, hsecond, hw, hrewritten.claimed (parted_candidate defended_spaces),
    hrewritten.dropped hstale.2.2 hstale, hrewritten.marker (.inr hstale)⟩

/-- The namespace of that conflict has lost a label of `a`. -/
theorem conflict_touches : ∃ tr conflict c', Interference.calm.Solitary ∧
    (∀ f, (everywhere "a").enables f = true → ∀ parsed,
      LabelSelector.read ((everywhere "a").selectorFor f) = .ok parsed → parsed.Plain) ∧
    Runs .calm (warden.map (everywhere "a") none).run defended tr (.error (.ownership conflict)) c' ∧
    c'.views conflict.namespaceName ≠ defended.views conflict.namespaceName := by
  obtain ⟨tr, conflict, c', hrun, -⟩ := exists_conflict
  refine ⟨tr, conflict, c', Interference.calm_solitary, fun f _ _ => everywhere_plain, hrun, fun hsame => ?_⟩
  obtain ⟨v, w, hv, hw, hrewritten⟩ := (map_aborted Interference.calm_solitary hrun).opposed conflict rfl
  obtain ⟨s, hs, rfl⟩ := Cluster.views_eq_some_iff.mp hv
  have hname : conflict.namespaceName = "n" := by
    by_contra hne
    rw [show defended.spaces conflict.namespaceName = none from Cluster.put_spaces_of_ne _ _ hne] at hs
    cases hs
  rw [hname] at hs hv hw hsame hrewritten
  cases hs.symm.trans defended_spaces
  cases hw.symm.trans (hsame.trans hv)
  have hnone := hrewritten.dropped not_false (parted_stale defended_spaces)
  exact absurd hnone (by decide)

end Parted

end Mapper
end NamespaceOwnership
