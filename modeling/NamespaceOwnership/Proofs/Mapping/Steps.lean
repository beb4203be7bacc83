import Mathlib.Data.Option.Basic
import NamespaceOwnership.Proofs.Ledger.Updates
import NamespaceOwnership.Proofs.Mapping.Relabelling

/-!
# The steps of a mapping

All that labels and annotations mean is what can be looked up in them, and the `View` of a namespace is just that.
A mapping rewrites the views in steps, each on one namespace: a stale claim is dropped, or all features that are
wanted on a namespace are claimed there. `carryOut` does one step after another. What comes of it is found feature
by feature (`View.Rewritten`), and there is only one view that can come of it.
-/
namespace NamespaceOwnership

/-- What can be looked up in the labels and in the annotations of a namespace. -/
@[ext]
structure View where
  labels : String → Option String
  annotations : String → Option String

def View.of (new : Labels × Annotations) : View := ⟨TextMap.get? new.1, TextMap.get? new.2⟩

def View.mark (v : View) : View := { v with annotations := Function.update v.annotations markerKey (some "true") }

@[simp] theorem View.mark_marker (v : View) : v.mark.annotations markerKey = some "true" := by simp [mark]

theorem View.mark_of_ne (v : View) {key : String} (h : key ≠ markerKey) : v.mark.annotations key = v.annotations key := by
  simp [mark, h]

def Space.view (s : Space) : View := .of (s.labels, s.annotations)

def Cluster.views (c : Cluster) (space : String) : Option View := (c.spaces space).map Space.view

namespace Cluster

variable {c c' : Cluster} {space : String} {s : Space} {v : View}

theorem views_eq (h : c.spaces space = some s) : c.views space = some s.view := by rw [views, h]; rfl

theorem views_eq_some_iff : c.views space = some v ↔ ∃ s, c.spaces space = some s ∧ s.view = v :=
  Option.map_eq_some_iff

theorem views_eq_none_iff : c.views space = none ↔ c.spaces space = none :=
  Option.map_eq_none_iff

theorem views_congr (h : c'.spaces = c.spaces) : c'.views = c.views := by
  funext space
  rw [views, views, h]

theorem Updated.views_eq {new : Labels × Annotations} (h : c.Updated space new c') :
    c'.views = Function.update c.views space (some (.of new)) := by
  funext other
  by_cases hother : other = space
  · subst hother
    obtain ⟨s, hs, hlabels, hannotations⟩ := h.self
    rw [Cluster.views_eq hs, Function.update_self]
    exact congrArg some (View.ext (funext hlabels) (funext hannotations))
  · rw [Function.update_of_ne hother, views, views, h.others other hother]

end Cluster

namespace View

/-- An owner has got the labels of some features, those of others were dropped, there is a marker if there were any
of either, and all else is as it was. -/
structure Rewritten (owner : String) (claims drops : Feature → Prop) (v w : View) : Prop where
  claimed : ∀ {f}, claims f → w.labels f.labelKey = some owner
  dropped : ∀ {f}, ¬claims f → drops f → w.labels f.labelKey = none
  labels : ∀ {key}, (∀ f, key = f.labelKey → ¬claims f ∧ ¬drops f) → w.labels key = v.labels key
  marker : ∀ {f}, claims f ∨ drops f → w.annotations markerKey = some "true"
  annotations : ∀ {key}, (key = markerKey → ∀ f, ¬claims f ∧ ¬drops f) → w.annotations key = v.annotations key

namespace Rewritten

variable {owner : String} {claims drops claims' drops' : Feature → Prop} {u v w : View} {f : Feature}

theorem refl (v : View) : Rewritten owner (fun _ => False) (fun _ => False) v v where
  claimed := False.elim
  dropped _ := False.elim
  labels _ := rfl
  marker h := h.elim False.elim False.elim
  annotations _ := rfl

theorem congr (h : Rewritten owner claims drops v w) (hc : ∀ f, claims f ↔ claims' f)
    (hd : ∀ f, drops f ↔ drops' f) : Rewritten owner claims' drops' v w := by
  obtain rfl : claims = claims' := funext fun f => propext (hc f)
  obtain rfl : drops = drops' := funext fun f => propext (hd f)
  exact h

/-- The label of a feature that is neither claimed nor dropped stays. -/
theorem kept (h : Rewritten owner claims drops v w) (hc : ¬claims f) (hd : ¬drops f) :
    w.labels f.labelKey = v.labels f.labelKey := by
  refine h.labels fun g hg => ?_
  obtain rfl : f = g := Feature.labelKey_inj.mp hg
  exact ⟨hc, hd⟩

/-- One rewriting after another, where the second does not drop what the first claimed. -/
theorem trans (h : Rewritten owner claims drops u v) (h' : Rewritten owner claims' drops' v w)
    (hdisjoint : ∀ {f}, drops' f → ¬claims f) :
    Rewritten owner (fun f => claims f ∨ claims' f) (fun f => drops f ∨ drops' f) u w where
  claimed := by
    intro f hf
    by_cases hc : claims' f
    · exact h'.claimed hc
    · have hf := hf.resolve_right hc
      rw [h'.kept hc fun hd => hdisjoint hd hf, h.claimed hf]
  dropped := by
    intro f hc hf
    obtain ⟨hc, hc'⟩ := not_or.mp hc
    by_cases hd : drops' f
    · exact h'.dropped hc' hd
    · rw [h'.kept hc' hd, h.dropped hc (hf.resolve_right hd)]
  labels := by
    intro key hkey
    have hnot := fun f hf => (hkey f hf).imp not_or.mp not_or.mp
    rw [h'.labels fun f hf => ⟨(hnot f hf).1.2, (hnot f hf).2.2⟩,
      h.labels fun f hf => ⟨(hnot f hf).1.1, (hnot f hf).2.1⟩]
  marker := by
    intro f hf
    by_cases hlater : ∃ g, claims' g ∨ drops' g
    · obtain ⟨g, hg⟩ := hlater
      exact h'.marker hg
    · have hnot := fun g => not_or.mp (not_exists.mp hlater g)
      rw [h'.annotations fun _ => hnot]
      exact h.marker (hf.imp (·.resolve_right (hnot f).1) (·.resolve_right (hnot f).2))
  annotations := by
    intro key hkey
    have hnot := fun hk f => (hkey hk f).imp not_or.mp not_or.mp
    rw [h'.annotations fun hk f => ⟨(hnot hk f).1.2, (hnot hk f).2.2⟩,
      h.annotations fun hk f => ⟨(hnot hk f).1.1, (hnot hk f).2.1⟩]

theorem unique (h : Rewritten owner claims drops u v) (h' : Rewritten owner claims drops u w) : v = w := by
  refine View.ext (funext fun key => ?_) (funext fun key => ?_)
  · by_cases hkey : ∀ f : Feature, key = f.labelKey → ¬claims f ∧ ¬drops f
    · rw [h.labels hkey, h'.labels hkey]
    · push Not at hkey
      obtain ⟨f, rfl, hf⟩ := hkey
      by_cases hc : claims f
      · rw [h.claimed hc, h'.claimed hc]
      · rw [h.dropped hc (hf hc), h'.dropped hc (hf hc)]
  · by_cases hkey : key = markerKey → ∀ f, ¬claims f ∧ ¬drops f
    · rw [h.annotations hkey, h'.annotations hkey]
    · push Not at hkey
      obtain ⟨rfl, f, hf⟩ := hkey
      have hany : claims f ∨ drops f := (em (claims f)).imp_right hf
      rw [h.marker hany, h'.marker hany]

/-- A marker stays. -/
theorem marked (h : Rewritten owner claims drops v w) (hv : v.annotations markerKey = some "true") :
    w.annotations markerKey = some "true" := by
  by_cases hany : ∃ f, claims f ∨ drops f
  · obtain ⟨f, hf⟩ := hany
    exact h.marker hf
  · have hnone := fun f => not_or.mp (not_exists.mp hany f)
    rw [h.annotations fun _ => hnone, hv]

theorem agreeElsewhere {s t : Space} (h : Rewritten owner claims drops s.view t.view) :
    Labels.AgreeElsewhere t.labels s.labels := fun _ hkey => h.labels fun f hf => absurd hf (hkey f)

end Rewritten

end View

namespace Mapper

inductive Step where
  | drop (space : String) (feature : Feature)
  | claim (space : String) (features : List Feature)
  deriving DecidableEq, Repr

namespace Step

def space : Step → String
  | .drop space _ | .claim space _ => space

/-- What a step makes of the view of its namespace. A claim that is no longer there is not dropped. -/
def change (owner : String) (v : View) : Step → View
  | .drop _ f =>
    if v.labels f.labelKey = some owner then ({ v with labels := Function.update v.labels f.labelKey none } : View).mark
    else v
  | .claim _ features =>
    ({ v with labels := fun key => if ∃ f ∈ features, key = f.labelKey then some owner else v.labels key } : View).mark

def apply (owner : String) (views : String → Option View) (step : Step) : String → Option View :=
  Function.update views step.space ((views step.space).map fun v => step.change owner v)

end Step

def carryOut (owner : String) (steps : List Step) (views : String → Option View) : String → Option View :=
  steps.foldl (Step.apply owner) views

/-- Stale claims are dropped before anything is claimed. -/
def steps (stale : List Claim) (claims : List (String × List Feature)) : List Step :=
  stale.map (fun c => .drop c.1 c.2) ++ claims.map fun c => .claim c.1 c.2

variable {owner space : String} {f : Feature} {features : List Feature} {views : String → Option View}
  {v : View} {stale : List Claim} {claims : List (String × List Feature)}

theorem Step.change_drop (owner space : String) (f : Feature) (v : View) :
    v.Rewritten owner (fun _ => False) (fun g => g = f ∧ v.labels f.labelKey = some owner)
      ((Step.drop space f).change owner v) := by
  by_cases h : v.labels f.labelKey = some owner
  · rw [change, if_pos h]
    refine ⟨False.elim, fun _ hg => ?_, fun hkey => ?_, fun _ => View.mark_marker _, fun hkey => ?_⟩
    · rw [hg.1]
      exact Function.update_self ..
    · exact Function.update_of_ne (fun hf => (hkey f hf).2 ⟨rfl, h⟩) ..
    · exact View.mark_of_ne _ fun hk => (hkey hk f).2 ⟨rfl, h⟩
  · rw [change, if_neg h]
    exact (View.Rewritten.refl v).congr (fun _ => Iff.rfl) fun g => ⟨False.elim, fun hg => h hg.2⟩

theorem Step.change_claim (owner space : String) (hne : features ≠ []) (v : View) :
    v.Rewritten owner (· ∈ features) (fun _ => False) ((Step.claim space features).change owner v) := by
  obtain ⟨f, hf⟩ := List.exists_mem_of_ne_nil _ hne
  refine ⟨fun {g} hg => if_pos ⟨g, hg, rfl⟩, fun _ => False.elim, fun hkey => if_neg ?_,
    fun _ => View.mark_marker _, fun hkey => View.mark_of_ne _ fun hk => (hkey hk f).1 hf⟩
  rintro ⟨g, hg, hgkey⟩
  exact (hkey g hgkey).1 hg

/-- The views of all namespaces were rewritten, with what was claimed and what was dropped on each. -/
structure Rewrites (owner : String) (claims drops : String → Feature → Prop) (a b : String → Option View) :
    Prop where
  none : ∀ {space}, a space = none → b space = none
  some : ∀ {space v}, a space = some v →
    ∃ w, b space = some w ∧ v.Rewritten owner (claims space) (drops space) w

/-- The label of a feature names the owner. -/
def Bears (owner : String) (views : String → Option View) (space : String) (f : Feature) : Prop :=
  ∃ v, views space = some v ∧ v.labels f.labelKey = some owner

namespace Rewrites

variable {claims drops claims' drops' : String → Feature → Prop} {a b b' : String → Option View}

theorem refl (a : String → Option View) : Rewrites owner (fun _ _ => False) (fun _ _ => False) a a :=
  ⟨id, fun hv => ⟨_, hv, .refl _⟩⟩

theorem congr (h : Rewrites owner claims drops a b) (hc : ∀ p f, claims p f ↔ claims' p f)
    (hd : ∀ p f, drops p f ↔ drops' p f) : Rewrites owner claims' drops' a b where
  none := h.none
  some hv := by
    obtain ⟨w, hw, hrewritten⟩ := h.some hv
    exact ⟨w, hw, hrewritten.congr (hc _) (hd _)⟩

theorem trans (h : Rewrites owner claims drops a b) (h' : Rewrites owner claims' drops' b b')
    (hdisjoint : ∀ {p f}, drops' p f → ¬claims p f) :
    Rewrites owner (fun p f => claims p f ∨ claims' p f) (fun p f => drops p f ∨ drops' p f) a b' where
  none hv := h'.none (h.none hv)
  some hv := by
    obtain ⟨w, hw, hfirst⟩ := h.some hv
    obtain ⟨u, hu, hsecond⟩ := h'.some hw
    exact ⟨u, hu, hfirst.trans hsecond hdisjoint⟩

theorem unique (h : Rewrites owner claims drops a b) (h' : Rewrites owner claims drops a b') : b = b' := by
  funext p
  cases hv : a p with
  | none => rw [h.none hv, h'.none hv]
  | some v =>
    obtain ⟨w, hw, hrewritten⟩ := h.some hv
    obtain ⟨w', hw', hrewritten'⟩ := h'.some hv
    rw [hw, hw', hrewritten.unique hrewritten']

section Cluster

variable {c e : Cluster} {p : String} {f : Feature}

theorem exists_space {s : Space} (h : Rewrites owner claims drops c.views e.views) (hs : c.spaces p = Option.some s) :
    ∃ t, e.spaces p = Option.some t ∧ s.view.Rewritten owner (claims p) (drops p) t.view := by
  obtain ⟨w, hw, hrewritten⟩ := h.some (Cluster.views_eq hs)
  obtain ⟨t, ht, rfl⟩ := Cluster.views_eq_some_iff.mp hw
  exact ⟨t, ht, hrewritten⟩

theorem exists_before {t : Space} (h : Rewrites owner claims drops c.views e.views) (ht : e.spaces p = Option.some t) :
    ∃ s, c.spaces p = Option.some s ∧ s.view.Rewritten owner (claims p) (drops p) t.view := by
  cases hs : c.spaces p with
  | none =>
    have hnone := h.none (Cluster.views_eq_none_iff.mpr hs)
    rw [Cluster.views_eq_none_iff, ht] at hnone
    cases hnone
  | some s =>
    obtain ⟨t', ht', hrewritten⟩ := h.exists_space hs
    cases ht.symm.trans ht'
    exact ⟨s, rfl, hrewritten⟩

end Cluster

/-- Where one namespace alone was rewritten, nothing was claimed or dropped on any other. -/
theorem of_update {change : View → View} {claims drops : Feature → Prop}
    (h : ∀ v, a space = Option.some v → v.Rewritten owner claims drops (change v)) :
    Rewrites owner (fun p f => p = space ∧ claims f) (fun p f => p = space ∧ drops f) a
      (Function.update a space ((a space).map change)) where
  none := by
    intro p hp
    by_cases hspace : p = space
    · subst hspace
      rw [Function.update_self, hp]
      rfl
    · rw [Function.update_of_ne hspace, hp]
  some := by
    intro p v hp
    by_cases hspace : p = space
    · subst hspace
      rw [Function.update_self, hp]
      exact ⟨_, rfl, (h v hp).congr (by simp) (by simp)⟩
    · rw [Function.update_of_ne hspace]
      exact ⟨v, hp, (View.Rewritten.refl v).congr (by simp [hspace]) (by simp [hspace])⟩

/-- Where nothing is claimed, the labels that name the owner are those that are not dropped. -/
theorem bears_iff (h : Rewrites owner (fun _ _ => False) drops a b) {p : String} {f : Feature} :
    Bears owner b p f ↔ Bears owner a p f ∧ ¬drops p f := by
  cases hv : a p with
  | none => simp [Bears, hv, h.none hv]
  | some v =>
    obtain ⟨w, hw, hrewritten⟩ := h.some hv
    by_cases hd : drops p f
    · simp [Bears, hw, hrewritten.dropped not_false hd, hd]
    · simp [Bears, hv, hw, hrewritten.kept not_false hd, hd]

end Rewrites

variable {views : String → Option View} {stale : List Claim} {claims : List (String × List Feature)}

theorem carryOut_stale (owner : String) (stale : List Claim) (views : String → Option View) :
    Rewrites owner (fun _ _ => False) (fun p f => (p, f) ∈ stale ∧ Bears owner views p f) views
      (carryOut owner (stale.map fun c => .drop c.1 c.2) views) := by
  induction stale generalizing views with
  | nil => exact (Rewrites.refl views).congr (by simp) (by simp)
  | cons c rest ih =>
    have hfirst : Rewrites owner (fun _ _ => False) (fun p f => (p, f) = c ∧ Bears owner views p f) views
        ((Step.drop c.1 c.2).apply owner views) := by
      have hhere : Rewrites owner (fun p _ => p = c.1 ∧ False)
          (fun p f => p = c.1 ∧ f = c.2 ∧ Bears owner views c.1 c.2) views
          ((Step.drop c.1 c.2).apply owner views) := by
        refine .of_update fun v hv => (Step.change_drop owner c.1 c.2 v).congr (fun _ => Iff.rfl) fun g => ?_
        simp [Bears, hv]
      refine hhere.congr (by simp) fun p f => ?_
      constructor
      · rintro ⟨rfl, rfl, h⟩
        exact ⟨rfl, h⟩
      · rintro ⟨rfl, h⟩
        exact ⟨rfl, rfl, h⟩
    refine (hfirst.trans (ih _) fun _ => not_false).congr (by simp) fun p f => ?_
    rw [hfirst.bears_iff, List.mem_cons]
    by_cases hc : (p, f) = c
    · simp [hc]
    · simp [hc]

theorem carryOut_claims (hne : ∀ entry ∈ claims, entry.2 ≠ []) (views : String → Option View) :
    Rewrites owner (Places claims) (fun _ _ => False) views
      (carryOut owner (claims.map fun c => .claim c.1 c.2) views) := by
  induction claims generalizing views with
  | nil => exact (Rewrites.refl views).congr (by simp [Places]) (by simp)
  | cons entry rest ih =>
    have hfirst : Rewrites owner (fun p f => p = entry.1 ∧ f ∈ entry.2) (fun p _ => p = entry.1 ∧ False) views
        ((Step.claim entry.1 entry.2).apply owner views) :=
      .of_update fun v _ => Step.change_claim owner entry.1 (hne entry List.mem_cons_self) v
    refine (hfirst.trans (ih (fun other hother => hne other (List.mem_cons_of_mem _ hother)) _)
      False.elim).congr (fun p f => ?_) (by simp)
    rw [places_cons]

/-- All in all, what is to be claimed is claimed, and of what is to be dropped what was there is dropped. -/
theorem carryOut_steps (hne : ∀ entry ∈ claims, entry.2 ≠ []) (stale : List Claim) (views : String → Option View) :
    Rewrites owner (Places claims) (fun p f => (p, f) ∈ stale ∧ Bears owner views p f) views
      (carryOut owner (steps stale claims) views) := by
  rw [carryOut, steps, List.foldl_append]
  exact ((carryOut_stale owner stale views).trans (carryOut_claims hne _) False.elim).congr (by simp) (by simp)

end Mapper
end NamespaceOwnership
