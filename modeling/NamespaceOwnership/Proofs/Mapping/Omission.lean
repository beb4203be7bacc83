import NamespaceOwnership.Proofs.Mapping.Plan

/-!
# Plans for a listing that omits a namespace

If a namespace is missing in a listing, the plan of a mapping is what it would be, but for the places of that namespace:
the same claims are stale (`Mapper.staleClaims_without`), and the same are to be made
(`Mapper.claimsByNamespace_without`).
-/
namespace NamespaceOwnership

/-- A listing without the namespace of a name. -/
def Namespaces.without (space : String) (objects : List (Option NamespaceObject)) : List (Option NamespaceObject) :=
  objects.filter fun object => (NamespaceRecord.ofObject object).name != space

namespace Mapper

variable {m : Mapper} {d : DynaKube} {c : Cluster} {space : String} {objects : List (Option NamespaceObject)}
  {records : List NamespaceRecord} {wanted : List (Feature × List String)}

theorem records_without (h : c.Lists objects) : Namespaces.records (Namespaces.without space objects) =
    (Namespaces.records objects).filter (·.name != space) := by
  have hsorted : (Namespaces.records (Namespaces.without space objects)).Pairwise fun a b => a.name < b.name := by
    refine mergeSort_ascending NamespaceRecord.name (List.Nodup.sublist ?_ h.1)
    refine ((List.filter_sublist (p := fun r => r.name != "")).trans ?_).map NamespaceRecord.name
    exact List.filter_sublist.map NamespaceRecord.ofObject
  refine eq_of_ascending (fun _ _ => String.lt_asymm) hsorted ((records_sorted h).filter _) fun r => ?_
  simp only [Namespaces.records, Namespaces.without, List.mem_mergeSort, List.mem_filter, List.mem_map]
  constructor
  · rintro ⟨⟨object, ⟨hobject, hspace⟩, rfl⟩, hname⟩
    exact ⟨⟨⟨object, hobject, rfl⟩, hname⟩, hspace⟩
  · rintro ⟨⟨⟨object, hobject, rfl⟩, hname⟩, hspace⟩
    exact ⟨⟨object, ⟨hobject, hspace⟩, rfl⟩, hname⟩

theorem selectedNames_without {operatorNamespace : String} {selector : Value} {names : List String}
    (h : selectedNames operatorNamespace selector (records.map fun r => (r.name, r.labels)) = .ok names) :
    selectedNames operatorNamespace selector ((records.filter (·.name != space)).map fun r => (r.name, r.labels)) =
      .ok (names.filter (· != space)) := by
  unfold selectedNames at h ⊢
  cases hread : LabelSelector.read selector with
  | error fault =>
    rw [hread] at h
    cases h
  | ok parsed =>
    rw [hread] at h
    cases h
    refine congrArg Except.ok (List.Perm.eq_of_pairwise (fun a b _ _ hab hba => String.le_antisymm hab hba)
      (ascending_mergeSort id _) ((ascending_mergeSort id _).filter _) ?_)
    refine (List.mergeSort_perm _ _).trans (.trans (.of_eq ?_) ((List.mergeSort_perm _ _).filter _).symm)
    simp only [List.filter_map, List.map_map, List.filter_filter]
    congr 2
    funext r
    exact Bool.and_comm ..

private theorem mapM_map {α β ε : Type} {g g' : α → Except ε β} {h : β → β} {l : List α} {ys : List β}
    (hg : ∀ a b, g a = .ok b → g' a = .ok (h b)) (hl : l.mapM g = .ok ys) : l.mapM g' = .ok (ys.map h) :=
  LabelSelector.mapM_eq_ok_iff.mpr
    (List.forall₂_map_right_iff.mpr ((LabelSelector.mapM_eq_ok_iff.mp hl).imp fun a b => hg a b))

theorem candidates_without (space : String) (h : m.candidates d records = .ok wanted) :
    m.candidates d (records.filter (·.name != space)) = .ok (wanted.map fun w => (w.1, w.2.filter (· != space))) := by
  refine mapM_map (fun f w hw => ?_) h
  cases hs : selectedNames m.operatorNamespace (d.selectorFor f) (records.map fun r => (r.name, r.labels)) with
  | error fault =>
    rw [hs] at hw
    cases hw
  | ok names =>
    rw [hs] at hw
    cases hw
    rw [selectedNames_without hs]
    rfl

/-- The claims on other namespaces are the same, in the same order. -/
theorem claimsByNamespace_without (space : String) (wanted : List (Feature × List String)) :
    claimsByNamespace (wanted.map fun w => (w.1, w.2.filter (· != space))) =
      (claimsByNamespace wanted).filter (·.1 != space) := by
  have hsorted := fun names => mergeSort_ascending (l := names) (id : String → String)
  have hnames : ((wanted.map fun w => (w.1, w.2.filter (· != space))).flatMap (·.2)).eraseDups.mergeSort
        (fun a b => decide (a ≤ b)) =
      ((wanted.flatMap (·.2)).eraseDups.mergeSort fun a b => decide (a ≤ b)).filter (· != space) := by
    refine eq_of_ascending (fun _ _ => String.lt_asymm) (hsorted _ ?_) ((hsorted _ ?_).filter _) fun name => ?_
    · rw [List.map_id]
      exact nodup_eraseDups _
    · rw [List.map_id]
      exact nodup_eraseDups _
    · simp only [List.mem_mergeSort, List.mem_eraseDups, List.mem_flatMap, List.mem_map, List.mem_filter]
      constructor
      · rintro ⟨_, ⟨w, hw, rfl⟩, hname⟩
        obtain ⟨hname, hspace⟩ := List.mem_filter.mp hname
        exact ⟨⟨w, hw, hname⟩, hspace⟩
      · rintro ⟨⟨w, hw, hname⟩, hspace⟩
        exact ⟨_, ⟨w, hw, rfl⟩, List.mem_filter.mpr ⟨hname, hspace⟩⟩
  rw [claimsByNamespace, hnames, claimsByNamespace, List.filter_map]
  refine List.map_congr_left fun name hname => ?_
  have hspace : (name != space) = true := (List.mem_filter.mp hname).2
  rw [List.flatMap_map]
  refine congrArg (name, ·) (List.flatMap_congr fun w _ => ?_)
  exact congrArg (List.replicate · w.1) (List.count_filter (p := (· != space)) hspace)

/-- The stale claims on other namespaces are the same, in the same order. -/
theorem staleClaims_without (hsorted : records.Pairwise fun a b => a.name < b.name)
    (h : m.candidates d records = .ok wanted) :
    staleClaims d.name (wanted.map fun w => (w.1, w.2.filter (· != space))) (records.filter (·.name != space)) =
      (staleClaims d.name wanted records).filter (·.1 != space) := by
  have hasymm : ∀ a b : Claim, (a.1 < b.1 ∨ a.1 = b.1 ∧ a.2.name < b.2.name) →
      ¬(b.1 < a.1 ∨ b.1 = a.1 ∧ b.2.name < a.2.name) := by
    rintro a b (hlt | ⟨heq, hlt⟩) (hgt | ⟨heq', hgt⟩)
    · exact String.lt_asymm hlt hgt
    · exact absurd heq' (String.ne_of_lt hlt).symm
    · exact absurd heq (String.ne_of_lt hgt).symm
    · exact String.lt_asymm hlt hgt
  refine eq_of_ascending hasymm ((heldBy_sorted (hsorted.filter _) d.name).filter _)
    (((heldBy_sorted hsorted d.name).filter _).filter _) fun ⟨p, f⟩ => ?_
  have hrecord (P : NamespaceRecord → Prop) : (∃ r ∈ records.filter (·.name != space), r.name = p ∧ P r) ↔
      p ≠ space ∧ ∃ r ∈ records, r.name = p ∧ P r := by
    simp only [List.mem_filter, bne_iff_ne]
    constructor
    · rintro ⟨r, ⟨hr, hne⟩, rfl, hP⟩
      exact ⟨hne, r, hr, rfl, hP⟩
    · rintro ⟨hne, r, hr, rfl, hP⟩
      exact ⟨r, ⟨hr, hne⟩, rfl, hP⟩
  rw [mem_staleClaims (candidates_without space h), List.mem_filter, mem_staleClaims h, hrecord, hrecord, bne_iff_ne]
  constructor
  · rintro ⟨⟨hne, hheld⟩, hunwanted⟩
    exact ⟨⟨hheld, fun hwanted => hunwanted ⟨hne, hwanted⟩⟩, hne⟩
  · rintro ⟨⟨hheld, hunwanted⟩, hne⟩
    exact ⟨⟨hne, hheld⟩, fun hwanted => hunwanted hwanted.2⟩

end Mapper
end NamespaceOwnership
