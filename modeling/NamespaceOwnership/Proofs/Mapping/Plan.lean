import NamespaceOwnership.Proofs.Ascending
import NamespaceOwnership.Proofs.Mapping.Steps

/-!
# The plan of a mapping

A place is a candidate if the DynaKube wants it, and stale if the DynaKube has it and does not want it. The plan of
a mapping is to drop what is stale, one place after another in the order of namespaces and features, and then to
claim the candidates, one namespace after another in the order of their names. From a listing that is right and
selectors that can be read such a plan is made (`Mapper.planned`), and to carry it out is to rewrite the candidates
and the stale places and nothing else (`Mapper.Planned.rewrites`).
-/
namespace NamespaceOwnership

theorem Cluster.Lists.congr {c c' : Cluster} {objects : List (Option NamespaceObject)} (h : c'.Lists objects)
    (hsame : c'.spaces = c.spaces) : c.Lists objects := by
  rw [Cluster.Lists, hsame] at h
  exact h

theorem Labels.owners_sorted (labels : Labels) :
    (Labels.owners labels).Pairwise fun a b => a.1.name < b.1.name := by
  have hall : Feature.all.Pairwise fun a b => a.name < b.name := by decide
  refine hall.filterMap _ fun f g hlt a ha b hb => ?_
  obtain ⟨_, -, rfl⟩ := Option.map_eq_some_iff.mp ha
  obtain ⟨_, -, rfl⟩ := Option.map_eq_some_iff.mp hb
  exact hlt

namespace Mapper

def Candidate (m : Mapper) (d : DynaKube) (c : Cluster) (p : String) (f : Feature) : Prop :=
  p ≠ "" ∧ ∃ s, c.spaces p = some s ∧ m.Wants d f p s.labels

def Stale (m : Mapper) (d : DynaKube) (c : Cluster) (p : String) (f : Feature) : Prop :=
  p ≠ "" ∧ c.owner? p f = some d.name ∧ ¬m.Candidate d c p f

structure Planned (m : Mapper) (d : DynaKube) (c : Cluster) (stale : List Claim)
    (claims : List (String × List Feature)) : Prop where
  stale_iff : ∀ {p f}, (p, f) ∈ stale ↔ m.Stale d c p f
  stale_sorted : stale.Pairwise fun a b => a.1 < b.1 ∨ a.1 = b.1 ∧ a.2.name < b.2.name
  places_iff : ∀ {p f}, Places claims p f ↔ m.Candidate d c p f
  claims_nonempty : ∀ entry ∈ claims, entry.2 ≠ []
  claims_sorted : claims.Pairwise fun a b => a.1 < b.1

variable {m : Mapper} {d : DynaKube} {c c' : Cluster} {objects : List (Option NamespaceObject)}
  {wanted : List (Feature × List String)} {stale : List Claim} {claims : List (String × List Feature)} {p : String}
  {f : Feature}

/-- A place is a candidate if its record says so. -/
theorem candidate_iff (h : c.Lists objects) :
    (∃ r ∈ Namespaces.records objects, r.name = p ∧ m.Wants d f p r.labels) ↔ m.Candidate d c p f := by
  constructor
  · rintro ⟨r, hr, rfl, hw⟩
    obtain ⟨hne, s, hs, hrecord⟩ := (mem_records h).mp hr
    rw [hrecord, Space.record_labels] at hw
    exact ⟨hne, s, hs, hw⟩
  · rintro ⟨hne, s, hs, hw⟩
    exact ⟨s.record p, (mem_records h).mpr ⟨hne, s, hs, rfl⟩, rfl, hw⟩

theorem records_sorted (h : c.Lists objects) :
    (Namespaces.records objects).Pairwise fun a b => a.name < b.name := by
  refine mergeSort_ascending NamespaceRecord.name ?_
  exact ((List.filter_sublist (p := fun r => r.name != "")).map NamespaceRecord.name).nodup h.1

theorem heldBy_sorted {records : List NamespaceRecord} (h : records.Pairwise fun a b => a.name < b.name)
    (name : String) :
    (heldBy name records).Pairwise fun a b => a.1 < b.1 ∨ a.1 = b.1 ∧ a.2.name < b.2.name := by
  refine List.pairwise_flatMap.mpr ⟨fun r _ => ?_, h.imp fun {r r'} hlt => ?_⟩
  · exact ((Labels.owners_sorted r.labels).filter _).map _ fun _ _ hlt => .inr ⟨rfl, hlt⟩
  · intro a ha b hb
    obtain ⟨_, -, rfl⟩ := List.mem_map.mp ha
    obtain ⟨_, -, rfl⟩ := List.mem_map.mp hb
    exact .inl hlt

theorem claimsByNamespace_sorted (wanted : List (Feature × List String)) :
    (claimsByNamespace wanted).Pairwise fun a b => a.1 < b.1 := by
  refine List.Pairwise.map _ (fun _ _ hlt => hlt) (mergeSort_ascending id ?_)
  rw [List.map_id]
  exact nodup_eraseDups _

/-- What the lists of a mapping amount to. -/
theorem planned (hlists : c.Lists objects)
    (hwanted : m.candidates d (Namespaces.records objects) = .ok wanted) :
    m.Planned d c (staleClaims d.name wanted (Namespaces.records objects)) (claimsByNamespace wanted) where
  stale_iff := by
    intro p f
    rw [mem_staleClaims hwanted, ← mem_heldBy, mem_heldBy_records hlists, candidate_iff hlists, Stale, and_assoc]
  stale_sorted := (heldBy_sorted (records_sorted hlists) d.name).filter _
  places_iff := by
    intro p f
    rw [← candidate_iff hlists]
    constructor
    · rintro ⟨entry, hentry, rfl, hf⟩
      exact ((mem_claims hwanted hentry).2 f).mp hf
    · rintro ⟨r, hr, rfl, hw⟩
      obtain ⟨features, hclaim, hf⟩ := exists_claim hwanted hr hw
      exact ⟨_, hclaim, rfl, hf⟩
  claims_nonempty _ hentry := (mem_claims hwanted hentry).1
  claims_sorted := claimsByNamespace_sorted wanted

/-- The features of a claim come in their order. -/
theorem claims_features_sorted {records : List NamespaceRecord} (hwanted : m.candidates d records = .ok wanted)
    {entry : String × List Feature} (hentry : entry ∈ claimsByNamespace wanted) :
    entry.2.Pairwise fun f g => f.name ≤ g.name := by
  obtain ⟨name, -, rfl⟩ := List.mem_map.mp hentry
  have hall : Feature.all.Pairwise fun f g => f.name ≤ g.name := by decide
  have hfeatures : (wanted.map Prod.fst).Pairwise fun f g => f.name ≤ g.name := by
    rw [candidates_features hwanted]
    exact hall.filter _
  rw [List.pairwise_map] at hfeatures
  refine List.pairwise_flatMap.mpr ⟨fun w _ => ?_, hfeatures.imp fun {w w'} hle f hf g hg => ?_⟩
  · exact List.pairwise_replicate.mpr (.inr (String.le_refl _))
  · obtain rfl := (List.mem_replicate.mp hf).2
    obtain rfl := (List.mem_replicate.mp hg).2
    exact hle

namespace Planned

theorem spaces_of_mem_stale (h : m.Planned d c stale claims) {claim : Claim} (hc : claim ∈ stale) :
    c.spaces claim.1 ≠ none := by
  obtain ⟨-, howner, -⟩ := h.stale_iff.mp hc
  intro hnone
  rw [Cluster.owner?, hnone] at howner
  cases howner

theorem spaces_of_mem_claims (h : m.Planned d c stale claims) {entry : String × List Feature}
    (hentry : entry ∈ claims) : c.spaces entry.1 ≠ none := by
  obtain ⟨f, hf⟩ := List.exists_mem_of_ne_nil _ (h.claims_nonempty entry hentry)
  obtain ⟨-, s, hs, -⟩ := h.places_iff.mp ⟨entry, hentry, rfl, hf⟩
  rw [hs]
  exact Option.some_ne_none s

theorem operator_not_claimed (h : m.Planned d c stale claims) {entry : String × List Feature}
    (hentry : entry ∈ claims) : entry.1 ≠ m.operatorNamespace := by
  obtain ⟨f, hf⟩ := List.exists_mem_of_ne_nil _ (h.claims_nonempty entry hentry)
  obtain ⟨-, s, -, hw⟩ := h.places_iff.mp ⟨entry, hentry, rfl, hf⟩
  exact hw.2.1

end Planned

/-- The label of a place names its owner. -/
theorem bears_of_owner {owner : String} (h : c.owner? p f = some owner) : Bears owner c.views p f := by
  obtain ⟨s, hs, howner⟩ := Option.bind_eq_some_iff.mp h
  exact ⟨s.view, Cluster.views_eq hs, (Labels.owner?_eq_some_iff.mp howner).1⟩

/-- A part of the plan has claimed its candidates and dropped its stale places. -/
theorem Planned.rewrites_part {stale' : List Claim} {claims' : List (String × List Feature)}
    (h : m.Planned d c stale claims) (hs : stale' ⊆ stale) (hc : claims' ⊆ claims) :
    Rewrites d.name (Places claims') (fun p f => (p, f) ∈ stale') c.views
      (carryOut d.name (steps stale' claims') c.views) := by
  refine (carryOut_steps (fun entry hentry => h.claims_nonempty entry (hc hentry)) stale' c.views).congr
    (fun _ _ => Iff.rfl) fun p f => ⟨And.left, fun hmem => ⟨hmem, ?_⟩⟩
  exact bears_of_owner (h.stale_iff.mp (hs hmem)).2.1

/-- The whole plan has claimed the candidates and dropped what was stale. -/
theorem Planned.rewrites (h : m.Planned d c stale claims) :
    Rewrites d.name (m.Candidate d c) (m.Stale d c) c.views (carryOut d.name (steps stale claims) c.views) :=
  (h.rewrites_part (List.Subset.refl _) (List.Subset.refl _)).congr (fun _ _ => h.places_iff)
    fun _ _ => h.stale_iff

/-- The owners are then what a mapping is to make of them. -/
theorem Mapped.of_rewrites (hname : d.name ≠ "") (hc : c'.dynakubes = c.dynakubes)
    (h : Rewrites d.name (m.Candidate d c) (m.Stale d c) c.views c'.views) : Mapped m d c c' where
  relabels := by
    refine ⟨hc, fun hs => ?_, fun hs => ?_⟩
    · exact Cluster.views_eq_none_iff.mp (h.none (Cluster.views_eq_none_iff.mpr hs))
    · obtain ⟨t, ht, hrewritten⟩ := h.exists_space hs
      exact ⟨t, ht, hrewritten.agreeElsewhere, hrewritten.marked⟩
  wanted := by
    intro p s f hne hs hw
    obtain ⟨t, ht, hrewritten⟩ := h.exists_space hs
    have hcandidate : m.Candidate d c p f := ⟨hne, s, hs, hw⟩
    refine ⟨?_, t, ht, hrewritten.marker (.inl hcandidate)⟩
    rw [Cluster.owner?_eq ht]
    exact Labels.owner?_eq_some_iff.mpr ⟨hrewritten.claimed hcandidate, hname⟩
  other := by
    intro p s f hne hs hw
    obtain ⟨t, ht, hrewritten⟩ := h.exists_space hs
    have hcandidate : ¬m.Candidate d c p f := by
      rintro ⟨-, s', hs', hw'⟩
      cases hs.symm.trans hs'
      exact hw hw'
    by_cases howner : c.owner? p f = some d.name
    · have hnone : TextMap.get? t.labels f.labelKey = none := hrewritten.dropped hcandidate ⟨hne, howner, hcandidate⟩
      rw [if_pos howner, Cluster.owner?_eq ht, Labels.owner?, hnone]
    · rw [if_neg howner, Cluster.owner?_eq ht, Cluster.owner?_eq hs]
      exact Labels.owner?_congr (hrewritten.kept hcandidate fun hstale => howner hstale.2.1)

end Mapper
end NamespaceOwnership
