import NamespaceOwnership.Proofs.Ledger.Updates
import NamespaceOwnership.Proofs.Mapping.Orderly
import NamespaceOwnership.Proofs.Mapping.Patches

/-!
# What a mapping makes of the labels

All that updates change are the labels of the features, and markers are kept (`Cluster.Relabels`). In an
orderly cluster, where no two DynaKubes want the same place, a mapping in the calm returns before its deadline:
every owner that it meets on a place that it wants has lost its claim. It then owns what it wants, has dropped
what it does not want, and has left all other owners as they were (`Mapper.map_yields`).
-/
namespace NamespaceOwnership

open Session (Runs)

/-- The namespace was written before. -/
def Space.IsMarked (s : Space) : Prop := TextMap.get? s.annotations markerKey = some "true"

namespace Cluster

def owner? (c : Cluster) (space : String) (f : Feature) : Option String :=
  (c.spaces space).bind fun s => Labels.owner? s.labels f

theorem owner?_eq {c : Cluster} {space : String} {s : Space} (h : c.spaces space = some s) (f : Feature) :
    c.owner? space f = Labels.owner? s.labels f := by rw [owner?, h]; rfl

/-- The namespaces and the DynaKubes are the same but for the labels of the features and for new markers. -/
structure Relabels (c c' : Cluster) : Prop where
  dynakubes : c'.dynakubes = c.dynakubes
  none : ∀ {space}, c.spaces space = none → c'.spaces space = none
  some : ∀ {space s}, c.spaces space = some s → ∃ s', c'.spaces space = some s' ∧
    s'.labels.AgreeElsewhere s.labels ∧ (s.IsMarked → s'.IsMarked)

theorem Relabels.refl (c : Cluster) : c.Relabels c :=
  ⟨rfl, id, fun hs => ⟨_, hs, fun _ _ => rfl, id⟩⟩

theorem Relabels.trans {c₁ c₂ c₃ : Cluster} (h : c₁.Relabels c₂) (h' : c₂.Relabels c₃) :
    c₁.Relabels c₃ where
  dynakubes := h'.dynakubes.trans h.dynakubes
  none hs := h'.none (h.none hs)
  some hs := by
    obtain ⟨s₂, hs₂, hagree, hmark⟩ := h.some hs
    obtain ⟨s₃, hs₃, hagree', hmark'⟩ := h'.some hs₂
    exact ⟨s₃, hs₃, hagree'.trans hagree, hmark' ∘ hmark⟩

variable {c c' : Cluster} {space : String} {s : Space} {new : Labels × Annotations}

/-- Every namespace that is there after a relabelling was there before it. -/
theorem Relabels.exists_before {s' : Space} (h : c.Relabels c') (hs' : c'.spaces space = Option.some s') :
    ∃ s, c.spaces space = Option.some s ∧ s'.labels.AgreeElsewhere s.labels ∧ (s.IsMarked → s'.IsMarked) := by
  cases hs : c.spaces space with
  | none =>
    rw [h.none hs] at hs'
    cases hs'
  | some s =>
    obtain ⟨t, ht, hagree⟩ := h.some hs
    cases hs'.symm.trans ht
    exact ⟨s, rfl, hagree⟩

theorem Relabels.ne_none (h : c.Relabels c') (hs : c.spaces space ≠ Option.none) :
    c'.spaces space ≠ Option.none := by
  obtain ⟨s, hs⟩ := Option.ne_none_iff_exists'.mp hs
  obtain ⟨s', hs', -⟩ := h.some hs
  rw [hs']
  exact Option.some_ne_none s'

theorem Updated.relabels (h : c.Updated space new c') (hs : c.spaces space = some s)
    (hagree : new.1.AgreeElsewhere s.labels)
    (hmark : s.IsMarked → TextMap.get? new.2 markerKey = some "true") : c.Relabels c' where
  dynakubes := h.dynakubes
  none := by
    intro other hnone
    rw [h.others other, hnone]
    rintro rfl
    rw [hs] at hnone
    cases hnone
  some := by
    intro other t ht
    by_cases hother : other = space
    · subst hother
      cases hs.symm.trans ht
      obtain ⟨s', hs', hlabels, hannotations⟩ := h.self
      refine ⟨s', hs', fun key hkey => (hlabels key).trans (hagree key hkey), fun hmarked => ?_⟩
      exact (hannotations markerKey).trans (hmark hmarked)
    · exact ⟨t, (h.others other hother).trans ht, fun _ _ => rfl, id⟩

theorem Updated.owner? (h : c.Updated space new c') (p : String) (f : Feature) :
    c'.owner? p f = if p = space then Labels.owner? new.1 f else c.owner? p f := by
  by_cases hp : p = space
  · subst hp
    obtain ⟨s', hs', hlabels, -⟩ := h.self
    rw [if_pos rfl, owner?_eq hs']
    exact Labels.owner?_congr (hlabels f.labelKey)
  · rw [if_neg hp, Cluster.owner?, h.others p hp]
    rfl

end Cluster

namespace Mapper

open Ledger

variable {pace : Pace} {m : Mapper} {c c' : Cluster} {deadline : Option Int} {space operation owner : String} {s : Space}

/-- What is left of the owners once one of them has lost all of its places that are listed. -/
def Dropped (owner : String) (places : List Claim) (c c' : Cluster) : Prop :=
  c.Relabels c' ∧ ∀ p f, c'.owner? p f =
    if (p, f) ∈ places ∧ c.owner? p f = some owner then none else c.owner? p f

theorem Dropped.trans {claim : Claim} {rest : List Claim} {c₁ : Cluster} (h : Dropped owner [claim] c c₁)
    (h' : Dropped owner rest c₁ c') : Dropped owner (claim :: rest) c c' := by
  refine ⟨h.1.trans h'.1, fun p f => ?_⟩
  rw [h'.2, h.2]
  simp only [List.mem_cons]
  by_cases howner : c.owner? p f = some owner
  · by_cases hclaim : (p, f) = claim
    · simp [howner, hclaim]
    · simp [howner, hclaim]
  · simp [howner]

theorem Dropped.of_updated {f : Feature} (hs : c.spaces space = some s)
    (h : c.Updated space (released f (some owner) s.labels s.annotations) c') :
    Dropped owner [(space, f)] c c' := by
  refine ⟨h.relabels hs ?_ ?_, fun p g => ?_⟩
  · exact released_agree f (some owner) s.labels s.annotations
  · exact released_marked f (some owner) s.labels
  · rw [h.owner?, owner?_released, ← Cluster.owner?_eq hs, ← Cluster.owner?_eq hs]
    simp only [List.mem_singleton, Prod.mk.injEq]
    by_cases hp : p = space
    · by_cases hg : g = f
      · simp [hp, hg]
      · simp [hp, hg]
    · simp [hp]

theorem remove_drops {f : Feature} (hs : c.spaces space = some s) :
    Attempt.Yields (.meeting deadline) c (m.ledger.remove space f (some owner) deadline)
      fun _ c' => Dropped owner [(space, f)] c c' :=
  (remove_yields hs).mono fun _ _ h => .of_updated hs h

theorem releaseAll_yields {noted : Claim → Session Unit} {todo : List Claim}
    (hnoted : ∀ claim, (noted claim).Within fun _ => False)
    (hs : ∀ claim ∈ todo, c.spaces claim.1 ≠ none) :
    Attempt.Yields (.meeting deadline) c (m.releaseAll owner operation deadline noted todo)
      fun _ c' => Dropped owner todo c c' := by
  induction todo generalizing c with
  | nil => exact .pure ⟨.refl c, fun p f => by simp⟩
  | cons claim rest ih =>
    obtain ⟨s, hspace⟩ := Option.ne_none_iff_exists'.mp (hs claim List.mem_cons_self)
    rw [releaseAll]
    refine (checkDeadline_yields deadline operation).bind fun _ c₁ hc => ?_
    obtain rfl := hc
    refine (remove_drops hspace).bind fun dropped c₂ hdropped => ?_
    have hrest : Attempt.Yields (.meeting deadline) c₂ (m.releaseAll owner operation deadline noted rest)
        fun _ c' => Dropped owner (claim :: rest) c₁ c' := by
      refine (ih fun other hother => ?_).mono fun _ c' h => hdropped.trans h
      exact hdropped.1.ne_none (hs other (List.mem_cons_of_mem _ hother))
    cases dropped with
    | false => exact hrest
    | true =>
      refine (Attempt.yields_session (hnoted claim).yields).bind fun _ c₃ hc => ?_
      obtain rfl := hc
      exact hrest.bind fun _ c' h => .pure h

/-- The namespaces are listed as they are. -/
theorem list_calm {tr : List Event} {r : Except Fault (List NamespaceRecord)}
    (h : Runs .calm m.ledger.list.run c tr r c') :
    ∃ objects, c.Lists objects ∧ c' = c ∧ r = .ok (Namespaces.records objects) ∧
      tr = [.asked (.call c (.listNamespaces none) (.ok objects) c)] := by
  rcases list_runs h with ⟨_, _, hfails, -⟩ | ⟨objects, hmoved, hlists, hr, htr⟩
  · exact hfails.elim
  · obtain rfl : c = c' := hmoved
    exact ⟨objects, hlists, rfl, hr, htr⟩

theorem list_yields : Attempt.Yields pace c m.ledger.list fun records c' =>
    c' = c ∧ ∃ objects, c.Lists objects ∧ records = Namespaces.records objects := by
  intro tr r c' hrun _
  obtain ⟨objects, hlists, rfl, rfl, -⟩ := list_calm hrun
  exact ⟨_, rfl, rfl, objects, hlists, rfl⟩

/-- A record shows the owners as they are. -/
theorem owner?_record {objects : List (Option NamespaceObject)} {r : NamespaceRecord} (h : c.Lists objects)
    (hr : r ∈ Namespaces.records objects) (f : Feature) : c.owner? r.name f = Labels.owner? r.labels f := by
  obtain ⟨-, s, hs, hrecord⟩ := (mem_records h).mp hr
  have hlabels : r.labels = s.labels := by rw [hrecord, Space.record_labels]
  rw [Cluster.owner?_eq hs, hlabels]

/-- The claims of a name are the listed places that it owns. -/
theorem mem_heldBy_records {objects : List (Option NamespaceObject)} {name p : String} {f : Feature}
    (h : c.Lists objects) : (p, f) ∈ heldBy name (Namespaces.records objects) ↔
      p ≠ "" ∧ c.owner? p f = some name := by
  rw [mem_heldBy]
  constructor
  · rintro ⟨r, hr, rfl, howner⟩
    exact ⟨((mem_records h).mp hr).1, (owner?_record h hr f).trans howner⟩
  · rintro ⟨hne, howner⟩
    obtain ⟨s, hs, howner⟩ := Option.bind_eq_some_iff.mp howner
    exact ⟨s.record p, (mem_records h).mpr ⟨hne, s, hs, rfl⟩, rfl, howner⟩

theorem spaces_of_mem_heldBy {objects : List (Option NamespaceObject)} {name : String} {claim : Claim}
    (h : c.Lists objects) (hc : claim ∈ heldBy name (Namespaces.records objects)) :
    c.spaces claim.1 ≠ none := by
  intro hnone
  have howner := ((mem_heldBy_records h).mp hc).2
  rw [Cluster.owner?, hnone] at howner
  cases howner

/-- What is unmapped owns nothing, and all others own what they did. -/
theorem unmap_yields (name : String) : Attempt.Yields (.meeting deadline) c (m.unmap (.text name) deadline)
    fun _ c' => c.Relabels c' ∧ ∀ p f, p ≠ "" →
      c'.owner? p f = if c.owner? p f = some name then none else c.owner? p f := by
  refine list_yields.bind fun records c₁ h => ?_
  obtain ⟨rfl, objects, hlists, rfl⟩ := h
  have hnoted (claim : Claim) : (Session.count (.releases claim.2 .unmapped)).Within fun _ => False :=
    ⟨trivial, trivial⟩
  refine (releaseAll_yields hnoted fun claim hc => spaces_of_mem_heldBy hlists hc).bind
    fun released c₂ hdropped => ?_
  refine (Attempt.yields_session (Session.yields_note _)).bind fun _ c₃ hc => ?_
  obtain rfl := hc
  refine .pure ⟨hdropped.1, fun p f hp => ?_⟩
  rw [hdropped.2, Value.shown_text]
  simp only [mem_heldBy_records hlists]
  simp [hp]

/-- An orderly cluster stays orderly when it is relabelled. -/
theorem Orderly.relabels (h : m.Orderly c) (hr : c.Relabels c') : m.Orderly c' where
  valid hobject := h.valid (hr.dynakubes ▸ hobject)
  plain hd hf := h.plain (hd.congr hr.dynakubes.symm) hf
  alone := by
    intro space s' f d e hs' hd he hwd hwe
    have hd₀ := hd.congr hr.dynakubes.symm
    have he₀ := he.congr hr.dynakubes.symm
    obtain ⟨s, hs, hagree, -⟩ := hr.exists_before hs'
    exact h.alone hs hd₀ he₀ ((h.wants_congr hd₀ hagree).mp hwd) ((h.wants_congr he₀ hagree).mp hwe)

/-- One owner has got some places, and all others are with whom they were. -/
structure Taken (owner : String) (places : String → Feature → Prop) (c c' : Cluster) : Prop where
  relabels : c.Relabels c'
  taken : ∀ {p f}, places p f → c'.owner? p f = some owner ∧ ∃ s, c'.spaces p = some s ∧ s.IsMarked
  kept : ∀ {p f}, ¬places p f → c'.owner? p f = c.owner? p f

theorem Taken.trans {places places' : String → Feature → Prop} {c₁ : Cluster}
    (h : Taken owner places c c₁) (h' : Taken owner places' c₁ c') :
    Taken owner (fun p f => places p f ∨ places' p f) c c' := by
  refine ⟨h.relabels.trans h'.relabels, fun {p f} hp => ?_, fun {p f} hp => ?_⟩
  · by_cases hp' : places' p f
    · exact h'.taken hp'
    · obtain ⟨howner, s, hs, hmarked⟩ := h.taken (hp.resolve_right hp')
      obtain ⟨s', hs', -, hmark⟩ := h'.relabels.some hs
      exact ⟨(h'.kept hp').trans howner, s', hs', hmark hmarked⟩
  · rw [not_or] at hp
    exact (h'.kept hp.2).trans (h.kept hp.1)

/-- A claim takes its places, and marks the namespace. -/
theorem Taken.of_updated {features : List Feature} (hne : owner ≠ "") (hs : c.spaces space = some s)
    (h : c.Updated space (claimed owner features s.labels, marked s.annotations) c') :
    Taken owner (fun p f => p = space ∧ f ∈ features) c c' := by
  have howner : ∀ p f, c'.owner? p f = if p = space ∧ f ∈ features then some owner else c.owner? p f := by
    intro p f
    rw [h.owner?, owner?_claimed hne, ← Cluster.owner?_eq hs]
    by_cases hp : p = space
    · simp [hp]
    · simp [hp]
  refine ⟨h.relabels hs (claimed_agree _ _ _) fun _ => get?_marked _, ?_, ?_⟩
  · intro p f hp
    obtain ⟨s', hs', -, hannotations⟩ := h.self
    refine ⟨(howner p f).trans (if_pos hp), s', hp.1 ▸ hs', ?_⟩
    exact (hannotations markerKey).trans (get?_marked _)
  · intro p f hp
    exact (howner p f).trans (if_neg hp)

/-- The places of some claims. -/
def Places (todo : List (String × List Feature)) (p : String) (f : Feature) : Prop :=
  ∃ entry ∈ todo, p = entry.1 ∧ f ∈ entry.2

theorem places_cons {entry : String × List Feature} {rest : List (String × List Feature)} {p : String}
    {f : Feature} : Places (entry :: rest) p f ↔ (p = entry.1 ∧ f ∈ entry.2) ∨ Places rest p f := by
  simp only [Places, List.exists_mem_cons_iff]

/-- One claim after another takes the places of all. -/
theorem Taken.then {entry : String × List Feature} {rest : List (String × List Feature)} {c₁ : Cluster}
    (h : Taken owner (fun p f => p = entry.1 ∧ f ∈ entry.2) c c₁) (h' : Taken owner (Places rest) c₁ c') :
    Taken owner (Places (entry :: rest)) c c' := by
  have hall := h.trans h'
  refine ⟨hall.relabels, fun {p f} hp => hall.taken ?_, fun {p f} hp => hall.kept ?_⟩
  · exact places_cons.mp hp
  · exact fun hplaces => hp (places_cons.mpr hplaces)

variable {d : DynaKube} {st : Memory} {todo : List (String × List Feature)}

/-- Every claim is for at least one feature of a namespace with a name, and all of its features are wanted. -/
def Wanted (m : Mapper) (d : DynaKube) (c : Cluster) (todo : List (String × List Feature)) : Prop :=
  ∀ entry ∈ todo, entry.1 ≠ "" ∧ entry.2 ≠ [] ∧
    ∃ s, c.spaces entry.1 = some s ∧ ∀ f ∈ entry.2, m.Wants d f entry.1 s.labels

theorem Wanted.relabels (h : m.Orderly c) (hd : c.Stored d) (hw : Wanted m d c todo) (hr : c.Relabels c') :
    Wanted m d c' todo := by
  intro entry hentry
  obtain ⟨hspace, hne, s, hs, hwants⟩ := hw entry hentry
  obtain ⟨s', hs', hagree, -⟩ := hr.some hs
  exact ⟨hspace, hne, s', hs', fun f hf => (h.wants_congr hd hagree).mpr (hwants f hf)⟩

/-- A claim that the guard lets pass goes through. -/
theorem claimOne_passed {features : List Feature} (post : Memory → Prop) (hname : owner ≠ "")
    (hs : c.spaces space = some s)
    (hguard : Attempt.Yields .any c
      ((consult (m.judge owner space) s.labels features).run { st with decisions := [] })
      fun p c' => post p.2 ∧ c' = c) :
    Attempt.Yields (.meeting deadline) c ((m.claimOne owner deadline space features).run st)
      fun p c' => post p.2 ∧ Taken owner (fun p f => p = space ∧ f ∈ features) c c' := by
  have hwrite : Attempt.Yields (.meeting deadline) c
      ((m.ledger.write space features owner (some (m.judge owner space)) deadline).run
        { st with decisions := [] })
      fun p c' => post p.2 ∧ Taken owner (fun p f => p = space ∧ f ∈ features) c c' :=
    (write_yields hs hguard).mono fun _ c' hp => ⟨hp.1, .of_updated hname hs hp.2⟩
  have hreset : Attempt.Yields (.meeting deadline) c
      ((modify fun s => { s with decisions := [] } : Judging PUnit).run st)
      fun p c' => p.2 = { st with decisions := [] } ∧ c' = c := .pure ⟨rfl, rfl⟩
  refine Attempt.yields_state_bind hreset fun _ st₁ c₁ hp => ?_
  obtain ⟨hst, rfl⟩ := hp
  rw [show st₁ = _ from hst]
  refine Attempt.yields_state_bind hwrite fun written st₂ c₂ hp => ?_
  obtain ⟨hpost, htaken⟩ := hp
  change Attempt.Yields _ _ ((liftM (settle owner space written st₂.decisions) : Judging _).run st₂) _
  refine (Attempt.yields_state_session (settle_within _ _ _ _).yields).mono fun p c' hp => ?_
  obtain ⟨rfl, rfl⟩ := hp
  exact ⟨hpost, htaken⟩

/-- A claim of what is wanted goes through. -/
theorem claimOne_yields {features : List Feature} (h : m.Orderly c) (hd : c.Stored d)
    (hs : c.spaces space = some s) (hne : features ≠ [])
    (hw : ∀ f ∈ features, m.Wants d f space s.labels) (hr : Recalls c st) :
    Attempt.Yields (.meeting deadline) c ((m.claimOne d.name deadline space features).run st)
      fun p c' => Recalls c' p.2 ∧ Taken d.name (fun p f => p = space ∧ f ∈ features) c c' := by
  obtain ⟨f, hf⟩ := List.exists_mem_of_ne_nil _ hne
  have hop : space ≠ m.operatorNamespace := (hw f hf).2.1
  have hguard : Attempt.Yields .any c
      ((consult (m.judge d.name space) s.labels features).run { st with decisions := [] })
      fun p c' => Recalls c p.2 ∧ c' = c :=
    consult_yields h hr hop fun f hf => h.vacant hs hd (hw f hf)
  refine (claimOne_passed (Recalls c) hd.name_ne_empty hs hguard).mono fun p c' hp => ⟨fun name found hl => ?_, hp.2⟩
  exact (hp.1 name found hl).congr (congrFun hp.2.relabels.dynakubes name)

/-- The claims of what is wanted go through one after another. -/
theorem claimAll_yields (h : m.Orderly c) (hd : c.Stored d) (hw : Wanted m d c todo) (hr : Recalls c st) :
    Attempt.Yields (.meeting deadline) c ((m.claimAll d.name deadline todo).run st)
      fun _ c' => Taken d.name (Places todo) c c' := by
  induction todo generalizing c st with
  | nil =>
    refine .pure ⟨.refl c, fun {p f} hp => ?_, fun _ => rfl⟩
    obtain ⟨entry, hentry, -⟩ := hp
    cases hentry
  | cons entry rest ih =>
    obtain ⟨space, features⟩ := entry
    obtain ⟨-, hne, s, hs, hwants⟩ := hw _ List.mem_cons_self
    refine Attempt.yields_state_bind (Attempt.yields_state_lift (checkDeadline_yields deadline _))
      fun _ st₁ c₁ hp => ?_
    obtain ⟨rfl, rfl⟩ := hp
    refine Attempt.yields_state_bind (claimOne_yields h hd hs hne hwants hr) fun v st₂ c₂ hp => ?_
    obtain ⟨hr₂, htaken⟩ := hp
    have hc₂ := htaken.relabels
    have hw₂ : Wanted m d c₂ rest :=
      .relabels h hd (fun entry hentry => hw entry (List.mem_cons_of_mem _ hentry)) hc₂
    refine Attempt.yields_state_bind (ih (h.relabels hc₂) (hd.congr hc₂.dynakubes) hw₂ hr₂)
      fun w st₃ c₃ hrest => .pure (htaken.then hrest)

/-- What a mapping makes of the owners: it has what it wants, with a marker, and no more than that. -/
structure Mapped (m : Mapper) (d : DynaKube) (c c' : Cluster) : Prop where
  relabels : c.Relabels c'
  wanted : ∀ {p s f}, p ≠ "" → c.spaces p = some s → m.Wants d f p s.labels →
    c'.owner? p f = some d.name ∧ ∃ s', c'.spaces p = some s' ∧ s'.IsMarked
  other : ∀ {p s f}, p ≠ "" → c.spaces p = some s → ¬m.Wants d f p s.labels →
    c'.owner? p f = if c.owner? p f = some d.name then none else c.owner? p f

section Listed

variable {objects : List (Option NamespaceObject)} {wanted : List (Feature × List String)} {p : String}
  {f : Feature}

theorem places_iff (hlists : c.Lists objects)
    (hwanted : m.candidates d (Namespaces.records objects) = .ok wanted) (hne : p ≠ "")
    (hs : c.spaces p = some s) : Places (claimsByNamespace wanted) p f ↔ m.Wants d f p s.labels := by
  have hlisted : (∃ r ∈ Namespaces.records objects, r.name = p ∧ m.Wants d f p r.labels) ↔
      m.Wants d f p s.labels := exists_record_iff hlists hne hs
  rw [← hlisted]
  constructor
  · rintro ⟨entry, hentry, rfl, hf⟩
    exact ((mem_claims hwanted hentry).2 f).mp hf
  · rintro ⟨r, hr, rfl, hw⟩
    obtain ⟨features, hclaim, hf⟩ := exists_claim hwanted hr hw
    exact ⟨_, hclaim, rfl, hf⟩

/-- The places that are owned and not wanted are stale. -/
theorem stale_iff (hlists : c.Lists objects)
    (hwanted : m.candidates d (Namespaces.records objects) = .ok wanted) (hne : p ≠ "")
    (hs : c.spaces p = some s) : (p, f) ∈ staleClaims d.name wanted (Namespaces.records objects) ↔
      c.owner? p f = some d.name ∧ ¬m.Wants d f p s.labels := by
  rw [mem_staleClaims hwanted, exists_record_iff hlists hne hs, exists_record_iff hlists hne hs,
    Space.record_labels, ← Cluster.owner?_eq hs]

/-- Releasing what is stale and then claiming what is wanted is all of a mapping. -/
theorem Mapped.of_claims {c₁ : Cluster} (hlists : c.Lists objects)
    (hwanted : m.candidates d (Namespaces.records objects) = .ok wanted)
    (hdropped : Dropped d.name (staleClaims d.name wanted (Namespaces.records objects)) c c₁)
    (htaken : Taken d.name (Places (claimsByNamespace wanted)) c₁ c') : Mapped m d c c' where
  relabels := hdropped.1.trans htaken.relabels
  wanted hne hs hw := htaken.taken ((places_iff hlists hwanted hne hs).mpr hw)
  other := by
    intro p s f hne hs hw
    rw [htaken.kept fun hp => hw ((places_iff hlists hwanted hne hs).mp hp), hdropped.2]
    simp only [stale_iff hlists hwanted hne hs, hw, not_false_eq_true, and_true, and_self]

/-- What is claimed is wanted. -/
theorem wanted_claims (hlists : c.Lists objects)
    (hwanted : m.candidates d (Namespaces.records objects) = .ok wanted) :
    Wanted m d c (claimsByNamespace wanted) := by
  intro entry hentry
  obtain ⟨hne, hmem⟩ := mem_claims hwanted hentry
  obtain ⟨f, hf⟩ := List.exists_mem_of_ne_nil _ hne
  obtain ⟨r, hrecord, hname, -⟩ := (hmem f).mp hf
  obtain ⟨hspace, s, hs, -⟩ := (mem_records hlists).mp hrecord
  rw [hname] at hspace hs
  refine ⟨hspace, hne, s, hs, fun g hg => ?_⟩
  exact (places_iff hlists hwanted hspace hs).mp ⟨entry, hentry, rfl, hg⟩

/-- What is claimed is there, also after something was dropped. -/
theorem spaces_of_mem_claims {c₁ : Cluster} (hlists : c.Lists objects)
    (hwanted : m.candidates d (Namespaces.records objects) = .ok wanted) (hr : c.Relabels c₁) :
    ∀ entry ∈ claimsByNamespace wanted, c₁.spaces entry.1 ≠ none := by
  intro entry hentry
  obtain ⟨-, -, s, hs, -⟩ := wanted_claims hlists hwanted entry hentry
  exact hr.ne_none (by rw [hs]; exact Option.some_ne_none s)

end Listed

/-- A mapping in an orderly cluster does all that it wants. -/
theorem map_yields (h : m.Orderly c) (hd : c.Stored d) :
    Attempt.Yields (.meeting deadline) c (m.map d deadline) fun _ c' => Mapped m d c c' := by
  refine list_yields.bind fun records c₁ hp => ?_
  obtain ⟨rfl, objects, hlists, rfl⟩ := hp
  obtain ⟨wanted, hwanted⟩ := exists_candidates m (Namespaces.records objects) fun f hf =>
    (h.plain hd hf).imp fun _ hp => hp.1
  refine (Attempt.yields_except hwanted).bind fun wanted c₂ hp => ?_
  obtain ⟨rfl, rfl⟩ := hp
  have hstale : ∀ claim ∈ staleClaims d.name wanted (Namespaces.records objects), c₂.spaces claim.1 ≠ none :=
    fun claim hc => spaces_of_mem_heldBy hlists (List.mem_filter.mp hc).1
  refine (releaseAll_yields (noteStale_within d.name) hstale).bind fun released c₃ hdropped => ?_
  have hr₃ := hdropped.1
  have hclaims : Wanted m d c₃ (claimsByNamespace wanted) := (wanted_claims hlists hwanted).relabels h hd hr₃
  have hall : Attempt.Yields (.meeting deadline) c₃
      ((m.claimAll d.name deadline (claimsByNamespace wanted)).run' ⟨[], []⟩)
      fun _ c' => Taken d.name (Places (claimsByNamespace wanted)) c₃ c' :=
    (Attempt.yields_state_forget (claimAll_yields (h.relabels hr₃) (hd.congr hr₃.dynakubes) hclaims
      fun _ _ hl => by cases hl)).mono fun _ _ ⟨_, hp⟩ => hp
  refine hall.bind fun v c₄ htaken => ?_
  refine (Attempt.yields_session (Session.yields_note _)).bind fun _ c₅ hc => ?_
  obtain rfl := hc
  exact .pure (.of_claims hlists hwanted hdropped htaken)

end Mapper
end NamespaceOwnership
