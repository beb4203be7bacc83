import NamespaceOwnership.Proofs.Mapping.Selection
import NamespaceOwnership.Proofs.Mapping.Verdicts

/-!
# Orderly clusters

A cluster is orderly if every DynaKube in it can be read, the selectors of the enabled features can be read and
do not look at who owns what, and no two DynaKubes want the same place. Whoever owns a place that a DynaKube
wants has then lost its claim, unless it is that DynaKube, and a guard in the calm has nothing to object.
-/
namespace NamespaceOwnership

open Session (Runs)

/-- The DynaKube exists, and this is what it says. -/
def Cluster.Stored (c : Cluster) (d : DynaKube) : Prop := c.Shows d.name (some d)

theorem Cluster.Stored.unique {c : Cluster} {d e : DynaKube} (hd : c.Stored d) (he : c.Stored e)
    (h : d.name = e.name) : d = e := by
  obtain ⟨object, hobject, hvalid⟩ := hd
  obtain ⟨object', hobject', hvalid'⟩ := he
  rw [h] at hobject
  cases hobject.symm.trans hobject'
  exact Except.ok.inj (hvalid.symm.trans hvalid')

theorem Cluster.Stored.congr {c c' : Cluster} {d : DynaKube} (h : c.Stored d)
    (hc : c'.dynakubes = c.dynakubes) : c'.Stored d := Cluster.Shows.congr h (congrFun hc d.name)

/-- A DynaKube that was read has a name. -/
theorem Cluster.Stored.name_ne_empty {c : Cluster} {d : DynaKube} (h : c.Stored d) : d.name ≠ "" := by
  obtain ⟨object, -, hvalid⟩ := h
  exact DynaKube.name_ne_empty hvalid

theorem Cluster.Stored.dynakubes_ne_none {c : Cluster} {d : DynaKube} (h : c.Stored d) :
    c.dynakubes d.name ≠ none := by
  obtain ⟨object, hobject, -⟩ := h
  rw [hobject]
  exact Option.some_ne_none object

namespace Mapper

structure Orderly (m : Mapper) (c : Cluster) : Prop where
  valid : ∀ {name object}, c.dynakubes name = some object →
    ∃ d, DynaKube.ofObject object = .ok d ∧ d.name = name
  plain : ∀ {d f}, c.Stored d → d.enables f = true →
    ∃ parsed, LabelSelector.read (d.selectorFor f) = .ok parsed ∧ parsed.Plain
  alone : ∀ {space s f d e}, c.spaces space = some s → c.Stored d → c.Stored e →
    m.Wants d f space s.labels → m.Wants e f space s.labels → d.name = e.name

/-- Whoever else owns the feature has lost its claim. -/
def Vacant (c : Cluster) (self : String) (labels : Labels) (f : Feature) : Prop :=
  ∀ owner found, Labels.owner? labels f = some owner → owner ≠ self → c.Shows owner found →
    Lapsed found f labels

variable {m : Mapper} {pace : Pace} {c c' : Cluster} {space self name : String} {s : Space} {f : Feature}
  {d : DynaKube} {labels : Labels} {st : Memory} {tr : List Event}

theorem Orderly.stored (h : m.Orderly c) (hd : c.Shows name (some d)) : d.name = name ∧ c.Stored d := by
  obtain ⟨object, hobject, hvalid⟩ := hd
  obtain ⟨e, he, hname⟩ := h.valid hobject
  cases hvalid.symm.trans he
  exact ⟨hname, object, hname ▸ hobject, hvalid⟩

theorem Orderly.exists_stored (h : m.Orderly c) (hname : c.dynakubes name ≠ none) :
    ∃ d, c.Stored d ∧ d.name = name := by
  obtain ⟨object, hobject⟩ := Option.ne_none_iff_exists'.mp hname
  obtain ⟨d, hvalid, rfl⟩ := h.valid hobject
  exact ⟨d, ⟨object, hobject, hvalid⟩, rfl⟩

/-- What a DynaKube wants does not depend on who owns what. -/
theorem Orderly.wants_congr (h : m.Orderly c) (hd : c.Stored d) {a b : Labels} (hab : a.AgreeElsewhere b) :
    m.Wants d f space a ↔ m.Wants d f space b := by
  have hplain : d.enables f = true → ∀ parsed, LabelSelector.read (d.selectorFor f) = .ok parsed →
      parsed.Plain := by
    intro hf parsed hread
    obtain ⟨parsed', hread', hp⟩ := h.plain hd hf
    cases hread.symm.trans hread'
    exact hp
  exact ⟨fun hw => hw.congr hab (hplain hw.1), fun hw => hw.congr hab.symm (hplain hw.1)⟩

/-- A place that is wanted is vacant. -/
theorem Orderly.vacant (h : m.Orderly c) (hs : c.spaces space = some s) (hd : c.Stored d)
    (hw : m.Wants d f space s.labels) : Vacant c d.name s.labels f := by
  intro owner found howner hne hshows
  cases found with
  | none => simp [Lapsed]
  | some e =>
    obtain ⟨rfl, he⟩ := h.stored hshows
    rintro _ ⟨⟩
    cases hf : e.enables f with
    | false => exact .inl rfl
    | true =>
      obtain ⟨parsed, hread, -⟩ := h.plain he hf
      refine .inr ⟨parsed, hread, ?_⟩
      by_contra hselects
      have hwe : m.Wants e f space s.labels :=
        ⟨hf, hw.2.1, parsed, hread, by simpa using hselects⟩
      exact hne (h.alone hs he hd hwe hw)

theorem Orderly.interpretable (h : m.Orderly c) (name : String) : c.Interpretable name := by
  intro object hobject
  obtain ⟨d, hvalid, rfl⟩ := h.valid hobject
  refine ⟨d, hvalid, fun f hf => ?_⟩
  obtain ⟨parsed, hread, -⟩ := h.plain ⟨object, hobject, hvalid⟩ hf
  exact .inr ⟨parsed, hread⟩

/-- Nobody contests a vacant place. -/
theorem Vacant.not_contested (hv : Vacant c self labels f) : ¬Contested c self labels f := by
  rintro ⟨owner, howner, hne, d, hshows, hf, hselector⟩
  rcases hv owner (some d) howner hne hshows d rfl with hnot | ⟨parsed, hread, hselects⟩
  · rw [hf] at hnot
    cases hnot
  · rcases hselector with ⟨error, hrefused⟩ | ⟨parsed', hread', hselects'⟩
    · cases hread.symm.trans hrefused
    · cases hread.symm.trans hread'
      rw [hselects] at hselects'
      cases hselects'

/-- A guard that is shown vacant places objects to none of them. -/
theorem consult_yields {features : List Feature} (h : m.Orderly c) (hr : Recalls c st)
    (hop : space ≠ m.operatorNamespace) (hv : ∀ f ∈ features, Vacant c self labels f) :
    Attempt.Yields pace c ((Ledger.consult (m.judge self space) labels features).run st)
      fun p c' => Recalls c p.2 ∧ c' = c := by
  intro tr r c' hrun _
  have hj : ∀ f ∈ features, Judgeable c self labels f := fun f _ owner _ _ => h.interpretable owner
  obtain ⟨rfl, ⟨⟨f, hf, hcontested⟩, -⟩ | ⟨-, st', rfl, hrecalls⟩⟩ := consult_calm hr hop hj hrun
  · exact absurd hcontested (hv f hf).not_contested
  · exact ⟨_, rfl, hrecalls, rfl⟩

end Mapper
end NamespaceOwnership
