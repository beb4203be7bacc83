import NamespaceOwnership.Ledger
import NamespaceOwnership.Proofs.Patch

/-!
# The two changes of the ledger

Claiming sets the labels of the features after the guard was shown every one of them together with the labels
that were read; releasing erases the label of one feature. Either touches no other label, and no annotation but
the marker.
-/
namespace NamespaceOwnership

open Session (Runs)

theorem Labels.owner?_eq_some_iff {labels : Labels} {f : Feature} {owner : String} :
    Labels.owner? labels f = some owner ↔ TextMap.get? labels f.labelKey = some owner ∧ owner ≠ "" := by
  unfold Labels.owner?
  cases TextMap.get? labels f.labelKey with
  | none => simp
  | some present =>
    by_cases h : present = ""
    · simp only [h, if_true, Option.some.injEq, reduceCtorEq, false_iff]
      rintro ⟨rfl, hne⟩
      exact hne rfl
    · simp only [h, if_false, Option.some.injEq]
      constructor
      · rintro rfl
        exact ⟨rfl, h⟩
      · exact And.left

theorem Labels.owner?_congr {labels labels' : Labels} {f : Feature}
    (h : TextMap.get? labels' f.labelKey = TextMap.get? labels f.labelKey) :
    Labels.owner? labels' f = Labels.owner? labels f := by
  unfold Labels.owner?
  rw [h]

/-- Both have the same labels apart from those of the features. -/
def Labels.AgreeElsewhere (a b : Labels) : Prop :=
  ∀ key, (∀ f : Feature, key ≠ f.labelKey) → TextMap.get? a key = TextMap.get? b key

theorem Labels.AgreeElsewhere.trans {a b c : Labels} (h : a.AgreeElsewhere b)
    (h' : b.AgreeElsewhere c) : a.AgreeElsewhere c := fun key hkey => (h key hkey).trans (h' key hkey)

theorem Labels.AgreeElsewhere.symm {a b : Labels} (h : a.AgreeElsewhere b) : b.AgreeElsewhere a :=
  fun key hkey => (h key hkey).symm

namespace Ledger

variable {σ : Type} {i : Interference} {c c' : Cluster} {tr : List Event}

theorem get?_claimed (owner : String) (features : List Feature) (labels : Labels) (key : String) :
    TextMap.get? (claimed owner features labels) key =
      if ∃ f ∈ features, key = f.labelKey then some owner else TextMap.get? labels key := by
  induction features generalizing labels with
  | nil => simp [claimed]
  | cons f rest ih =>
    have hstep : claimed owner (f :: rest) labels =
      claimed owner rest (TextMap.set labels f.labelKey owner) := rfl
    rw [hstep, ih, TextMap.get?_set]
    by_cases hrest : ∃ g ∈ rest, key = g.labelKey
    · rw [if_pos hrest, if_pos]
      obtain ⟨g, hg, hkey⟩ := hrest
      exact ⟨g, List.mem_cons_of_mem _ hg, hkey⟩
    · rw [if_neg hrest]
      by_cases hf : key = f.labelKey
      · rw [if_pos hf, if_pos ⟨f, List.mem_cons_self, hf⟩]
      · rw [if_neg hf, if_neg]
        rintro ⟨g, hg, hkey⟩
        rcases List.mem_cons.mp hg with rfl | hg
        · exact hf hkey
        · exact hrest ⟨g, hg, hkey⟩

theorem get?_claimed_feature (owner : String) (features : List Feature) (labels : Labels) (f : Feature) :
    TextMap.get? (claimed owner features labels) f.labelKey =
      if f ∈ features then some owner else TextMap.get? labels f.labelKey := by
  rw [get?_claimed]
  simp [Feature.labelKey_inj]

theorem get?_erased_feature (labels : Labels) (f g : Feature) :
    TextMap.get? (TextMap.erase labels f.labelKey) g.labelKey =
      if g = f then none else TextMap.get? labels g.labelKey := by
  rw [TextMap.get?_erase]
  simp [Feature.labelKey_inj]

theorem claimed_agree (owner : String) (features : List Feature) (labels : Labels) :
    (claimed owner features labels).AgreeElsewhere labels := by
  intro key hkey
  rw [get?_claimed, if_neg]
  rintro ⟨g, -, hg⟩
  exact hkey g hg

theorem erased_agree (labels : Labels) (f : Feature) :
    Labels.AgreeElsewhere (TextMap.erase labels f.labelKey) labels := by
  intro key hkey
  rw [TextMap.get?_erase, if_neg (hkey f)]

/-- An owner with a name owns what it claims, and the other feature stays as it was. -/
theorem owner?_claimed {owner : String} (h : owner ≠ "") (features : List Feature) (labels : Labels)
    (f : Feature) : Labels.owner? (claimed owner features labels) f =
      if f ∈ features then some owner else Labels.owner? labels f := by
  by_cases hf : f ∈ features
  · rw [if_pos hf, Labels.owner?_eq_some_iff, get?_claimed, if_pos ⟨f, hf, rfl⟩]
    exact ⟨rfl, h⟩
  · rw [if_neg hf]
    refine Labels.owner?_congr ?_
    rw [get?_claimed, if_neg]
    rintro ⟨g, hg, hkey⟩
    exact hf (Feature.labelKey_inj.mp hkey ▸ hg)

theorem owner?_erased (labels : Labels) (f g : Feature) :
    Labels.owner? (TextMap.erase labels f.labelKey) g =
      if g = f then none else Labels.owner? labels g := by
  by_cases hg : g = f
  · rw [if_pos hg]
    unfold Labels.owner?
    rw [TextMap.get?_erase, if_pos (Feature.labelKey_inj.mpr hg)]
  · rw [if_neg hg]
    refine Labels.owner?_congr ?_
    rw [TextMap.get?_erase, if_neg fun hkey => hg (Feature.labelKey_inj.mp hkey)]

theorem get?_marked_eq (annotations : Annotations) (key : String) : TextMap.get? (marked annotations) key =
    if key = markerKey then some "true" else TextMap.get? annotations key := TextMap.get?_set _ _ _ _

theorem get?_marked (annotations : Annotations) :
    TextMap.get? (marked annotations) markerKey = some "true" := by simp [get?_marked_eq]

theorem get?_marked_of_ne (annotations : Annotations) {key : String} (h : key ≠ markerKey) :
    TextMap.get? (marked annotations) key = TextMap.get? annotations key := by
  simp [get?_marked_eq, h]

theorem unchanged_self (record : NamespaceRecord) : unchanged record (record.labels, record.annotations) = true := by
  simp [unchanged, TextMap.same_iff]

/-- What dropping a feature makes of labels and annotations. -/
def released (f : Feature) (owner : Option String) (labels : Labels) (annotations : Annotations) :
    Labels × Annotations :=
  match TextMap.get? labels f.labelKey with
  | none => (labels, annotations)
  | some present =>
    if ∀ o ∈ owner, present = o then (TextMap.erase labels f.labelKey, marked annotations)
    else (labels, annotations)

/-- It leaves them as they are, or erases a label that names the owner to be dropped. -/
theorem released_cases (f : Feature) (owner : Option String) (labels : Labels) (annotations : Annotations) :
    released f owner labels annotations = (labels, annotations) ∨
      ∃ present, TextMap.get? labels f.labelKey = some present ∧ (∀ o ∈ owner, present = o) ∧
        released f owner labels annotations = (TextMap.erase labels f.labelKey, marked annotations) := by
  unfold released
  cases TextMap.get? labels f.labelKey with
  | none => exact .inl rfl
  | some present =>
    by_cases ho : ∀ o ∈ owner, present = o
    · exact .inr ⟨present, rfl, ho, if_pos ho⟩
    · exact .inl (if_neg ho)

theorem released_agree (f : Feature) (owner : Option String) (labels : Labels) (annotations : Annotations) :
    (released f owner labels annotations).1.AgreeElsewhere labels := by
  rcases released_cases f owner labels annotations with hsame | ⟨present, -, -, hreleased⟩
  · rw [hsame]
    exact fun _ _ => rfl
  · rw [hreleased]
    exact erased_agree labels f

theorem released_marked (f : Feature) (owner : Option String) (labels : Labels) {annotations : Annotations}
    (h : TextMap.get? annotations markerKey = some "true") :
    TextMap.get? (released f owner labels annotations).2 markerKey = some "true" := by
  rcases released_cases f owner labels annotations with hsame | ⟨present, -, -, hreleased⟩
  · rw [hsame]
    exact h
  · rw [hreleased]
    exact get?_marked annotations

/-- A release takes the feature from the owner, and nothing from anybody else. -/
theorem owner?_released (f g : Feature) (owner : String) (labels : Labels) (annotations : Annotations) :
    Labels.owner? (released f (some owner) labels annotations).1 g =
      if g = f ∧ Labels.owner? labels f = some owner then none else Labels.owner? labels g := by
  unfold released
  cases hkey : TextMap.get? labels f.labelKey with
  | none =>
    rw [if_neg]
    rintro ⟨-, howner⟩
    rw [(Labels.owner?_eq_some_iff.mp howner).1] at hkey
    cases hkey
  | some present =>
    by_cases hp : present = owner
    · subst hp
      simp only [Option.mem_some_iff, forall_eq', if_true]
      rw [owner?_erased]
      by_cases hg : g = f
      · subst hg
        rw [if_pos rfl]
        by_cases hempty : present = ""
        · rw [if_neg, Labels.owner?, hkey]
          · simp [hempty]
          · rintro ⟨-, howner⟩
            exact (Labels.owner?_eq_some_iff.mp howner).2 hempty
        · rw [if_pos ⟨rfl, Labels.owner?_eq_some_iff.mpr ⟨hkey, hempty⟩⟩]
      · rw [if_neg hg, if_neg (fun h => hg h.1)]
    · simp only [Option.mem_some_iff, forall_eq', hp, if_false]
      rw [if_neg]
      rintro ⟨-, howner⟩
      rw [(Labels.owner?_eq_some_iff.mp howner).1] at hkey
      exact hp (Option.some.inj hkey).symm

/-- A release is worked out with notes alone. -/
theorem release_run (space : String) (f : Feature) (owner : Option String) (labels : Labels)
    (annotations : Annotations) (st : Unit) : ∃ notes : Session Unit, (notes.Within fun _ => False) ∧
      ((release space f owner labels annotations).run st).run =
        notes >>= fun _ => .done (.ok (released f owner labels annotations, ())) := by
  unfold release released
  cases TextMap.get? labels f.labelKey with
  | none => exact ⟨.done (), trivial, rfl⟩
  | some present =>
    cases owner with
    | none => exact ⟨.done (), trivial, by simp⟩
    | some expected =>
      by_cases hp : present = expected
      · exact ⟨.done (), trivial, by simp [hp]⟩
      · exact ⟨Session.info _, ⟨trivial, trivial⟩, by simp [hp]; rfl⟩

theorem release_runs {space : String} {f : Feature} {owner : Option String} {labels : Labels}
    {annotations : Annotations} {st : Unit} {r : Except Fault ((Labels × Annotations) × Unit)}
    (h : Runs i ((release space f owner labels annotations).run st).run c tr r c') :
    r = .ok (released f owner labels annotations, ()) ∧ c' = c ∧ OnlyNotes tr := by
  obtain ⟨notes, hnotes, hrun⟩ := release_run space f owner labels annotations st
  rw [hrun] at h
  obtain ⟨tr₁, _, c₁, tr₂, rfl, hfirst, hend⟩ := Session.runs_bind.mp h
  obtain ⟨rfl, rfl, rfl⟩ := Session.runs_done.mp hend
  obtain ⟨honly, rfl⟩ := hfirst.onlyNotes hnotes
  exact ⟨rfl, rfl, honly.append .nil⟩

theorem release_within (space : String) (f : Feature) (owner : Option String) (labels : Labels)
    (annotations : Annotations) (st : Unit) :
    ((release space f owner labels annotations).run st).run.Within fun _ => False := by
  obtain ⟨notes, hnotes, hrun⟩ := release_run space f owner labels annotations st
  rw [hrun]
  exact hnotes.bind fun _ => trivial

/-- The guard was shown every feature together with one state of the labels and objected to none. -/
inductive Consulted (i : Interference) (guard : Guard σ) (labels : Labels) :
    List Feature → σ → Cluster → List Event → σ → Cluster → Prop where
  | nil (st : σ) (c : Cluster) : Consulted i guard labels [] st c [] st c
  | cons {f : Feature} {rest : List Feature} {st st₁ st₂ : σ} {c c₁ c₂ : Cluster}
      {tr₁ tr₂ : List Event}
      (shown : Runs i ((guard f (Labels.owner? labels f) labels).run st).run c tr₁ (.ok ((), st₁)) c₁)
      (others : Consulted i guard labels rest st₁ c₁ tr₂ st₂ c₂) :
      Consulted i guard labels (f :: rest) st c
        (.told (.examined f (Labels.owner? labels f) labels) :: (tr₁ ++ tr₂)) st₂ c₂

theorem consult_runs {guard : Guard σ} {labels : Labels} {features : List Feature} {st st' : σ}
    {u : Unit} (h : Runs i ((consult guard labels features).run st).run c tr (.ok (u, st')) c') :
    Consulted i guard labels features st c tr st' c' := by
  induction features generalizing st c tr with
  | nil =>
    obtain ⟨rfl, hst, rfl⟩ := Attempt.runs_state_pure.mp h
    cases hst
    exact .nil _ _
  | cons f rest ih =>
    rcases Attempt.runs_state_bind.mp h with ⟨fault, hf, -⟩ |
      ⟨tr₁, _, st₁, c₁, tr₂, rfl, hshow, hrest⟩
    · cases hf
    obtain ⟨tr₃, _, c₂, tr₄, rfl, hnote, hguard⟩ := Attempt.runs_state_session_bind.mp hshow
    obtain ⟨rfl, rfl⟩ := Session.runs_note.mp hnote
    exact .cons hguard (ih hrest)

/-- A claim fails in the guard, or passes it and then sets every label. -/
theorem claim_runs {features : List Feature} {owner : String} {guard : Option (Guard σ)}
    {labels : Labels} {annotations : Annotations} {st : σ}
    {r : Except Fault ((Labels × Annotations) × σ)}
    (h : Runs i ((claim features owner guard labels annotations).run st).run c tr r c') :
    match guard with
    | none => tr = [] ∧ r = .ok ((claimed owner features labels, marked annotations), st) ∧ c' = c
    | some g => ∃ v, Runs i ((consult g labels features).run st).run c tr v c' ∧
        r = v.map fun p => ((claimed owner features labels, marked annotations), p.2) := by
  cases guard with
  | none =>
    obtain ⟨rfl, rfl, rfl⟩ := Attempt.runs_state_pure.mp h
    exact ⟨rfl, rfl, rfl⟩
  | some g =>
    rcases Attempt.runs_state_bind.mp h with ⟨fault, rfl, hg⟩ | ⟨tr₁, _, st₁, c₁, tr₂, rfl, hg, hend⟩
    · exact ⟨_, hg, rfl⟩
    · obtain ⟨rfl, rfl, rfl⟩ := Attempt.runs_state_pure.mp hend
      exact ⟨_, by simpa using hg, rfl⟩

end Ledger
end NamespaceOwnership
