import Mathlib.Data.List.Forall2
import NamespaceOwnership.Mapping
import NamespaceOwnership.Proofs.Ledger.Changes
import NamespaceOwnership.Proofs.Reading

/-!
# What a mapping wants

A DynaKube wants a feature of a namespace if it enables the feature and its selector, which then can be read,
selects the labels of the namespace, unless that is the namespace of the operator. The claims of a mapping are
the places that it wants, and its stale claims are those that it has and does not want.
-/
namespace NamespaceOwnership

/-- A selector looks at the labels of its requirements and at no others. -/
theorem LabelSelector.selects_congr {s : LabelSelector} {a b : Labels}
    (h : ∀ r ∈ s.requirements, TextMap.get? a r.key = TextMap.get? b r.key) : s.selects a = s.selects b := by
  have hholds : ∀ r ∈ s.requirements, r.holds a = r.holds b := by
    intro r hr
    have hkey := h r hr
    cases r with
    | oneOf k vs => exact congrArg (fun v : Option String => v.any (vs.contains ·)) hkey
    | noneOf k vs => exact congrArg (fun v : Option String => !v.any (vs.contains ·)) hkey
    | present k => exact congrArg Option.isSome hkey
    | absent k => exact congrArg (fun v : Option String => !v.isSome) hkey
  rw [Bool.eq_iff_iff, selects_iff, selects_iff]
  exact forall₂_congr fun r hr => by rw [hholds r hr]

/-- No requirement is on the label of a feature. -/
def LabelSelector.Plain (s : LabelSelector) : Prop :=
  ∀ r ∈ s.requirements, ∀ f : Feature, r.key ≠ f.labelKey

/-- A plain selector cannot see who owns what. -/
theorem LabelSelector.Plain.selects_congr {s : LabelSelector} (h : s.Plain) {a b : Labels}
    (hab : a.AgreeElsewhere b) : s.selects a = s.selects b :=
  LabelSelector.selects_congr fun r hr => hab r.key (h r hr)

/-- The first enabled feature whose selector cannot be read, and why. -/
def DynaKube.FirstUnread (d : DynaKube) (f : Feature) (fault : Fault) : Prop :=
  ∃ before after, d.enabled = before ++ f :: after ∧
    (∀ g ∈ before, ∃ parsed, LabelSelector.read (d.selectorFor g) = .ok parsed) ∧
    LabelSelector.read (d.selectorFor f) = .error fault

namespace Mapper

def Wants (m : Mapper) (d : DynaKube) (f : Feature) (space : String) (labels : Labels) : Prop :=
  d.enables f = true ∧ space ≠ m.operatorNamespace ∧
    ∃ parsed, LabelSelector.read (d.selectorFor f) = .ok parsed ∧ parsed.selects labels = true

theorem Wants.congr {m : Mapper} {d : DynaKube} {f : Feature} {space : String} {a b : Labels}
    (h : m.Wants d f space a) (hab : a.AgreeElsewhere b)
    (hplain : ∀ parsed, LabelSelector.read (d.selectorFor f) = .ok parsed → parsed.Plain) :
    m.Wants d f space b := by
  obtain ⟨hf, hop, parsed, hread, hselects⟩ := h
  exact ⟨hf, hop, parsed, hread, ((hplain parsed hread).selects_congr hab).symm.trans hselects⟩

private instance decidableExistsOk {ε α : Type} {p : α → Prop} [DecidablePred p] :
    (x : Except ε α) → Decidable (∃ a, x = .ok a ∧ p a)
  | .ok a => decidable_of_iff (p a) ⟨fun h => ⟨a, rfl, h⟩, fun ⟨_, h, hp⟩ => Except.ok.inj h ▸ hp⟩
  | .error _ => isFalse fun ⟨_, h, _⟩ => nomatch h

instance (m : Mapper) (d : DynaKube) (f : Feature) (space : String) (labels : Labels) :
    Decidable (m.Wants d f space labels) := inferInstanceAs (Decidable (_ ∧ _ ∧ _))

variable {m : Mapper} {d : DynaKube} {records : List NamespaceRecord}
  {wanted : List (Feature × List String)}

theorem mem_selectedNames {operatorNamespace space : String} {selector : Value} {names : List String}
    (h : selectedNames operatorNamespace selector (records.map fun r => (r.name, r.labels)) = .ok names) :
    ∃ parsed, LabelSelector.read selector = .ok parsed ∧
      (space ∈ names ↔ ∃ r ∈ records, r.name = space ∧ space ≠ operatorNamespace ∧
        parsed.selects r.labels = true) := by
  unfold selectedNames at h
  cases hread : LabelSelector.read selector with
  | error fault =>
    rw [hread] at h
    cases h
  | ok parsed =>
    rw [hread] at h
    cases h
    refine ⟨parsed, rfl, ?_⟩
    simp only [List.mem_mergeSort, List.mem_map, List.mem_filter, Bool.and_eq_true, bne_iff_ne]
    constructor
    · rintro ⟨_, ⟨⟨r, hr, rfl⟩, hop, hsel⟩, rfl⟩
      exact ⟨r, hr, rfl, hop, hsel⟩
    · rintro ⟨r, hr, rfl, hop, hsel⟩
      exact ⟨_, ⟨⟨r, hr, rfl⟩, hop, hsel⟩, rfl⟩

theorem mem_enabled {f : Feature} : f ∈ d.enabled ↔ d.enables f = true := by
  simp [DynaKube.enabled]

/-- There are candidates if the selectors of the enabled features can be read. -/
theorem exists_candidates (m : Mapper) (records : List NamespaceRecord)
    (h : ∀ f, d.enables f = true → ∃ parsed, LabelSelector.read (d.selectorFor f) = .ok parsed) :
    ∃ wanted, m.candidates d records = .ok wanted := by
  refine LabelSelector.exists_mapM_ok fun f hf => ?_
  obtain ⟨parsed, hread⟩ := h f (mem_enabled.mp hf)
  unfold selectedNames
  rw [hread]
  exact ⟨_, rfl⟩

theorem selectedNames_eq_error {operatorNamespace : String} {selector : Value} {fault : Fault}
    (h : LabelSelector.read selector = .error fault) (namespaces : List (String × Labels)) :
    selectedNames operatorNamespace selector namespaces = .error fault := by
  rw [selectedNames, h]
  rfl

/-- There are no candidates if the selector of an enabled feature cannot be read. -/
theorem candidates_eq_error {f : Feature} {fault : Fault} (h : d.FirstUnread f fault)
    (records : List NamespaceRecord) : m.candidates d records = .error fault := by
  obtain ⟨before, after, henabled, hbefore, hread⟩ := h
  rw [candidates, henabled]
  refine LabelSelector.mapM_eq_error (fun g hg => ?_) ?_
  · obtain ⟨parsed, hparsed⟩ := hbefore g hg
    exact ⟨_, by rw [selectedNames, hparsed]; rfl⟩
  · rw [selectedNames_eq_error hread]
    rfl

/-- That is the only reason why there are none. -/
theorem firstUnread_of_candidates {fault : Fault} (h : m.candidates d records = .error fault) :
    ∃ f, d.FirstUnread f fault := by
  have hfailing : LabelSelector.FailsBy (fun fault => ∃ f, d.FirstUnread f fault) (m.candidates d records) := by
    refine .mapM_of fun before f after henabled hbefore fault hfails => ?_
    refine ⟨f, before, after, henabled, fun g hg => (hbefore g hg).elim fun _ hw => ?_, ?_⟩
    · cases hparsed : LabelSelector.read (d.selectorFor g) with
      | error fault =>
        rw [selectedNames_eq_error hparsed] at hw
        cases hw
      | ok parsed => exact ⟨parsed, rfl⟩
    · cases hparsed : LabelSelector.read (d.selectorFor f) with
      | error fault' =>
        rw [selectedNames_eq_error hparsed] at hfails
        cases hfails
        rfl
      | ok parsed =>
        rw [selectedNames, hparsed] at hfails
        cases hfails
  exact hfailing fault h

/-- The features come in their order. -/
theorem candidates_features (h : m.candidates d records = .ok wanted) : wanted.map Prod.fst = d.enabled := by
  have hall := LabelSelector.mapM_eq_ok_iff.mp h
  clear h
  generalize d.enabled = features at hall ⊢
  induction hall with
  | nil => rfl
  | @cons f w _ _ hw _ ih =>
    rw [List.map_cons, ih]
    cases hs : selectedNames m.operatorNamespace (d.selectorFor f) (records.map fun r => (r.name, r.labels)) with
    | error fault =>
      rw [hs] at hw
      cases hw
    | ok names =>
      rw [hs] at hw
      cases hw
      rfl

/-- The candidates of a feature are the namespaces on which it is wanted. -/
theorem candidates_ok (h : m.candidates d records = .ok wanted) :
    (∀ w ∈ wanted, ∀ space, space ∈ w.2 ↔ ∃ r ∈ records, r.name = space ∧ m.Wants d w.1 space r.labels) ∧
      ∀ f, d.enables f = true ↔ ∃ w ∈ wanted, w.1 = f := by
  have hall := LabelSelector.mapM_eq_ok_iff.mp h
  have hname : ∀ f w, (do
      let names ← selectedNames m.operatorNamespace (d.selectorFor f)
        (records.map fun r => (r.name, r.labels))
      return (f, names) : Except Fault (Feature × List String)) = .ok w →
        w.1 = f ∧ selectedNames m.operatorNamespace (d.selectorFor f)
          (records.map fun r => (r.name, r.labels)) = .ok w.2 := by
    intro f w hw
    cases hs : selectedNames m.operatorNamespace (d.selectorFor f)
        (records.map fun r => (r.name, r.labels)) with
    | error fault =>
      rw [hs] at hw
      cases hw
    | ok names =>
      rw [hs] at hw
      cases hw
      exact ⟨rfl, rfl⟩
  refine ⟨fun w hw space => ?_, fun f => ⟨fun hf => ?_, ?_⟩⟩
  · obtain ⟨f, hf, hfw⟩ := LabelSelector.exists_of_forall₂ hall.flip _ hw
    obtain ⟨rfl, hsel⟩ := hname f w hfw
    obtain ⟨parsed, hread, hmem⟩ := mem_selectedNames hsel
    rw [hmem]
    constructor
    · rintro ⟨r, hr, hn, hop, hselects⟩
      exact ⟨r, hr, hn, mem_enabled.mp hf, hop, parsed, hread, hselects⟩
    · rintro ⟨r, hr, hn, -, hop, parsed', hread', hselects⟩
      rw [hread] at hread'
      cases hread'
      exact ⟨r, hr, hn, hop, hselects⟩
  · obtain ⟨w, hw, hfw⟩ := LabelSelector.exists_of_forall₂ hall _ (mem_enabled.mpr hf)
    exact ⟨w, hw, (hname f w hfw).1⟩
  · rintro ⟨w, hw, rfl⟩
    obtain ⟨f, hf, hfw⟩ := LabelSelector.exists_of_forall₂ hall.flip _ hw
    rw [(hname f w hfw).1]
    exact mem_enabled.mp hf

/-- There are candidates only if the selectors of the enabled features can be read. -/
theorem candidates_readable (h : m.candidates d records = .ok wanted) {f : Feature} (hf : d.enables f = true) :
    ∃ parsed, LabelSelector.read (d.selectorFor f) = .ok parsed := by
  obtain ⟨w, -, hw⟩ := LabelSelector.exists_of_forall₂ (LabelSelector.mapM_eq_ok_iff.mp h) f (mem_enabled.mpr hf)
  cases hread : LabelSelector.read (d.selectorFor f) with
  | error fault => simp [selectedNames, hread, bind, Except.bind] at hw
  | ok parsed => exact ⟨parsed, rfl⟩

theorem mem_lookup (h : m.candidates d records = .ok wanted) {f : Feature} {space : String} :
    space ∈ (wanted.lookup f).getD [] ↔ ∃ r ∈ records, r.name = space ∧ m.Wants d f space r.labels := by
  obtain ⟨hmem, henabled⟩ := candidates_ok h
  cases hl : wanted.lookup f with
  | none =>
    have hnone := List.lookup_eq_none_iff.mp hl
    simp only [Option.getD_none, List.not_mem_nil, false_iff]
    rintro ⟨r, -, -, hf, -⟩
    obtain ⟨w, hw, rfl⟩ := (henabled f).mp hf
    simpa using hnone w hw
  | some names =>
    obtain ⟨l₁, l₂, rfl, -⟩ := List.lookup_eq_some_iff.mp hl
    exact hmem (f, names) (by simp) space

/-- Exactly the features that are wanted are claimed, and each claim is for at least one. -/
theorem mem_claims (h : m.candidates d records = .ok wanted) {space : String} {features : List Feature}
    (hc : (space, features) ∈ claimsByNamespace wanted) :
    features ≠ [] ∧
      ∀ f, f ∈ features ↔ ∃ r ∈ records, r.name = space ∧ m.Wants d f space r.labels := by
  obtain ⟨hmem, henabled⟩ := candidates_ok h
  simp only [claimsByNamespace, List.mem_map, List.mem_mergeSort, List.mem_eraseDups, List.mem_flatMap,
    Prod.mk.injEq] at hc
  obtain ⟨n, ⟨w, hw, hn⟩, rfl, rfl⟩ := hc
  have hfeatures : ∀ f, (f ∈ wanted.flatMap fun w => List.replicate (w.2.count n) w.1) ↔
      ∃ r ∈ records, r.name = n ∧ m.Wants d f n r.labels := by
    intro f
    simp only [List.mem_flatMap, List.mem_replicate, ne_eq, List.count_eq_zero, not_not]
    constructor
    · rintro ⟨v, hv, hnv, rfl⟩
      exact (hmem v hv n).mp hnv
    · rintro ⟨r, hr, hrn, hwants⟩
      obtain ⟨v, hv, rfl⟩ := (henabled f).mp hwants.1
      exact ⟨v, hv, (hmem v hv n).mpr ⟨r, hr, hrn, hwants⟩, rfl⟩
  refine ⟨?_, hfeatures⟩
  exact List.ne_nil_of_mem ((hfeatures w.1).mpr ((hmem w hw n).mp hn))

theorem exists_claim (h : m.candidates d records = .ok wanted) {r : NamespaceRecord} {f : Feature}
    (hr : r ∈ records) (hw : m.Wants d f r.name r.labels) :
    ∃ features, (r.name, features) ∈ claimsByNamespace wanted ∧ f ∈ features := by
  obtain ⟨hmem, henabled⟩ := candidates_ok h
  obtain ⟨w, hw', rfl⟩ := (henabled f).mp hw.1
  have hname : r.name ∈ w.2 := (hmem w hw' r.name).mpr ⟨r, hr, rfl, hw⟩
  have hclaim : (r.name, wanted.flatMap fun w => List.replicate (w.2.count r.name) w.1) ∈
      claimsByNamespace wanted := by
    simp only [claimsByNamespace, List.mem_map, List.mem_mergeSort, List.mem_eraseDups, List.mem_flatMap,
      Prod.mk.injEq]
    exact ⟨r.name, ⟨w, hw', hname⟩, rfl, rfl⟩
  exact ⟨_, hclaim, ((mem_claims h hclaim).2 w.1).mpr ⟨r, hr, rfl, hw⟩⟩

/-- The records of a listing are the namespaces with a name. -/
theorem mem_records {c : Cluster} {objects : List (Option NamespaceObject)} (h : c.Lists objects) {r : NamespaceRecord} :
    r ∈ Namespaces.records objects ↔
      r.name ≠ "" ∧ ∃ s, c.spaces r.name = some s ∧ r = s.record r.name := by
  simp only [Namespaces.records, List.mem_mergeSort, List.mem_filter, bne_iff_ne]
  rw [h.2 r, and_comm]

/-- A namespace with a name has one record in a listing. -/
theorem exists_record_iff {c : Cluster} {objects : List (Option NamespaceObject)} {space : String} {s : Space}
    {P : NamespaceRecord → Prop} (h : c.Lists objects) (hne : space ≠ "") (hs : c.spaces space = some s) :
    (∃ r ∈ Namespaces.records objects, r.name = space ∧ P r) ↔ P (s.record space) := by
  constructor
  · rintro ⟨r, hr, rfl, hp⟩
    obtain ⟨-, t, ht, hrecord⟩ := (mem_records h).mp hr
    cases hs.symm.trans ht
    rwa [hrecord] at hp
  · exact fun hp => ⟨s.record space, (mem_records h).mpr ⟨hne, s, hs, rfl⟩, rfl, hp⟩

theorem mem_heldBy {name space : String} {f : Feature} :
    (space, f) ∈ heldBy name records ↔
      ∃ r ∈ records, r.name = space ∧ Labels.owner? r.labels f = some name := by
  simp only [heldBy, List.mem_flatMap, List.mem_map, List.mem_filter, beq_iff_eq, Prod.exists,
    Prod.mk.injEq]
  constructor
  · rintro ⟨r, hr, g, owner, ⟨hg, rfl⟩, rfl, rfl⟩
    exact ⟨r, hr, rfl, Labels.mem_owners_iff.mp hg⟩
  · rintro ⟨r, hr, rfl, howner⟩
    exact ⟨r, hr, f, name, ⟨Labels.mem_owners_iff.mpr howner, rfl⟩, rfl, rfl⟩

/-- A claim is stale if it is held and not wanted. -/
theorem mem_staleClaims (h : m.candidates d records = .ok wanted) {name space : String} {f : Feature} :
    (space, f) ∈ staleClaims name wanted records ↔
      (∃ r ∈ records, r.name = space ∧ Labels.owner? r.labels f = some name) ∧
        ¬∃ r ∈ records, r.name = space ∧ m.Wants d f space r.labels := by
  simp only [staleClaims, List.mem_filter, mem_heldBy, Bool.not_eq_true', List.contains_eq_mem,
    decide_eq_false_iff_not]
  rw [mem_lookup h]

section Everywhere

/-- A DynaKube that wants code modules on every namespace. -/
def everywhere (name : String) : DynaKube := ⟨name, .null, [(.codeModules, .null)], none⟩

def everywhereObject (name : String) : Value :=
  .fields [("metadata", .fields [("name", .text name)]), ("spec", .fields [("codeModules", .fields [])])]

theorem ofObject_everywhere {name : String} (h : name ≠ "") :
    DynaKube.ofObject (everywhereObject name) = .ok (everywhere name) := by
  have htruthy : (Value.text name).truthy = true := bne_iff_ne.mpr h
  have hname : ¬(!(Value.text name).truthy) = true := by rw [htruthy]; exact Bool.false_ne_true
  change (do if !(Value.text name).truthy then throw ObjectError.nameless
             return everywhere name : Except ObjectError DynaKube) = _
  rw [if_neg hname]
  rfl

theorem read_everywhere (name : String) (f : Feature) :
    LabelSelector.read ((everywhere name).selectorFor f) = .ok .everything := by
  cases f <;> rfl

theorem read_everywhere_of (name : String) (f : Feature) (_ : (everywhere name).enables f = true) :
    ∃ parsed, LabelSelector.read ((everywhere name).selectorFor f) = .ok parsed := ⟨_, read_everywhere name f⟩

theorem wants_everywhere {name space : String} (h : space ≠ m.operatorNamespace) (labels : Labels) :
    m.Wants (everywhere name) .codeModules space labels := ⟨rfl, h, _, read_everywhere name _, rfl⟩

theorem everywhere_plain {name : String} {f : Feature} {parsed : LabelSelector}
    (h : LabelSelector.read ((everywhere name).selectorFor f) = .ok parsed) : parsed.Plain := by
  cases h.symm.trans (read_everywhere name f)
  simp [LabelSelector.Plain, LabelSelector.everything]

end Everywhere

end Mapper
end NamespaceOwnership
