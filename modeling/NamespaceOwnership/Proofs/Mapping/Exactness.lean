import NamespaceOwnership.Proofs.Mapping.Objections

/-!
# What a mapping comes to in the calm

In the calm a mapping drops its stale claims and then claims its candidates, up to the first one to which its guard
objects (`Mapper.map_pursues`). What the guard says is found once the DynaKube has dropped its own stale claims, since a
selector may look at the labels of the features. Without a deadline only a live claim of another DynaKube stops a mapping
that can read all selectors, and where there is none, the candidates are claimed, the stale places are dropped, and
nothing else has changed (`Mapper.map_exact`).
-/
namespace NamespaceOwnership

open Session (Runs)

namespace Mapper

open Ledger

variable {m : Mapper} {d : DynaKube} {c c' : Cluster} {space : String} {s : Space} {f : Feature} {labels : Labels}
  {claims : List (String × List Feature)} {tr : List Event}

section Freed

/-- The labels of a namespace once the DynaKube has dropped its stale claims on it. -/
def freed (m : Mapper) (d : DynaKube) (space : String) (labels : Labels) : Labels :=
  (Feature.all.filter fun f => decide (Labels.owner? labels f = some d.name ∧ ¬m.Wants d f space labels)).foldl
    (fun left f => TextMap.erase left f.labelKey) labels

private theorem get?_erasedAll (features : List Feature) (labels : Labels) (key : String) :
    TextMap.get? (features.foldl (fun left f => TextMap.erase left f.labelKey) labels) key =
      if ∃ f ∈ features, key = f.labelKey then none else TextMap.get? labels key := by
  induction features generalizing labels with
  | nil => simp
  | cons f rest ih =>
    rw [List.foldl_cons, ih, TextMap.get?_erase]
    by_cases hrest : ∃ g ∈ rest, key = g.labelKey
    · simp [hrest]
    · by_cases hf : key = f.labelKey
      · simp [hf]
      · simp [hrest, hf]

theorem get?_freed (key : String) : TextMap.get? (m.freed d space labels) key =
    if ∃ f ∈ Feature.all, key = f.labelKey ∧ Labels.owner? labels f = some d.name ∧ ¬m.Wants d f space labels then none
    else TextMap.get? labels key := by
  rw [freed, get?_erasedAll]
  refine if_congr ?_ rfl rfl
  simp only [List.mem_filter, decide_eq_true_eq]
  exact exists_congr fun f => by tauto

/-- Only stale claims are missing. -/
theorem owner?_freed (f : Feature) : Labels.owner? (m.freed d space labels) f =
    if Labels.owner? labels f = some d.name ∧ ¬m.Wants d f space labels then none else Labels.owner? labels f := by
  by_cases hf : Labels.owner? labels f = some d.name ∧ ¬m.Wants d f space labels
  · have hnone : TextMap.get? (m.freed d space labels) f.labelKey = none := by
      rw [get?_freed, if_pos ⟨f, Feature.mem_all f, rfl, hf⟩]
    rw [if_pos hf, Labels.owner?, hnone]
  · rw [if_neg hf]
    refine Labels.owner?_congr ?_
    rw [get?_freed, if_neg]
    rintro ⟨g, -, hkey, hg⟩
    obtain rfl := Feature.labelKey_inj.mp hkey
    exact hf hg

/-- They are what dropping the stale claims makes of the labels. -/
theorem freed_of_rewrites {t : Space} (h : Rewrites d.name (fun _ _ => False) (m.Stale d c) c.views c'.views)
    (hne : space ≠ "") (hs : c.spaces space = some s) (ht : c'.spaces space = some t) (key : String) :
    TextMap.get? (m.freed d space s.labels) key = TextMap.get? t.labels key := by
  obtain ⟨t', ht', hrewritten⟩ := h.exists_space hs
  cases ht.symm.trans ht'
  have hstale (g : Feature) : m.Stale d c space g ↔
      Labels.owner? s.labels g = some d.name ∧ ¬m.Wants d g space s.labels := by
    rw [Stale, Cluster.owner?_eq hs, Candidate]
    simp [hne, hs]
  rw [get?_freed]
  by_cases hdropped : ∃ g ∈ Feature.all, key = g.labelKey ∧ Labels.owner? s.labels g = some d.name ∧
      ¬m.Wants d g space s.labels
  · rw [if_pos hdropped]
    obtain ⟨g, -, rfl, hg⟩ := hdropped
    exact (hrewritten.dropped not_false ((hstale g).mpr hg)).symm
  · rw [if_neg hdropped]
    refine (hrewritten.labels fun g hkey => ⟨not_false, fun hg => hdropped ?_⟩).symm
    exact ⟨g, Feature.mem_all g, hkey, (hstale g).mp hg⟩

end Freed

theorem Planned.drops {stale stale' : List Claim} (h : m.Planned d c stale claims) (hs : stale' ⊆ stale) :
    Rewrites d.name (fun _ _ => False) (fun p f => (p, f) ∈ stale') c.views (carryOut d.name (steps stale' []) c.views) :=
  (h.rewrites_part hs (List.nil_subset _)).congr (by simp [Places]) fun _ _ => Iff.rfl

/-- There is no objection to a claim of this place once the stale claims have been dropped. -/
def Clear (m : Mapper) (d : DynaKube) (c : Cluster) (p : String) (f : Feature) : Prop :=
  ∀ s, c.spaces p = some s → Forfeited c d.name (m.freed d p s.labels) f

/-- The first candidate to which there is an objection, in the order of namespaces and features. -/
structure Foremost (m : Mapper) (d : DynaKube) (c : Cluster) (p : String) (f : Feature) (fault : Fault) : Prop where
  candidate : m.Candidate d c p f
  objection : ∀ s, c.spaces p = some s → Objection c d.name p (m.freed d p s.labels) f fault
  before : ∀ {q g}, m.Candidate d c q g → q < p ∨ q = p ∧ g.name < f.name → m.Clear d c q g

/-- What has come of a mapping in the calm: of its candidates those have been claimed to which there is no objection, up
to the first one to which there is one. -/
structure Pursued {α : Type} (m : Mapper) (d : DynaKube) (deadline : Option Int) (claims drops : String → Feature → Prop)
    (c : Cluster) (r : Except Fault α) (c' : Cluster) : Prop where
  rewrites : Rewrites d.name claims drops c.views c'.views
  dropped : ∀ {p f}, drops p f → m.Stale d c p f
  claimed : ∀ {p f}, claims p f → m.Candidate d c p f ∧ m.Clear d c p f
  ok : ∀ v, r = .ok v → ∀ {p f}, m.Candidate d c p f → claims p f
  error : ∀ fault, r = .error fault → Expired deadline fault ∨ (∃ f, d.FirstUnread f fault) ∨
    ∃ p f, m.Foremost d c p f fault ∧ ∀ {q g}, m.Candidate d c q g → q < p → claims q g

private theorem ascending_at {entry other : String × List Feature} {k : Nat}
    (h : claims.Pairwise fun a b => a.1 < b.1) (hentry : claims[k]? = some entry) (hother : other ∈ claims) :
    (other.1 < entry.1 → other ∈ claims.take k) ∧ (other.1 = entry.1 → other = entry) := by
  obtain ⟨hk, rfl⟩ := List.getElem?_eq_some_iff.mp hentry
  obtain ⟨j, hj, rfl⟩ := List.mem_iff_getElem.mp hother
  have hlt := List.pairwise_iff_getElem.mp h
  rcases Nat.lt_trichotomy j k with hjk | rfl | hjk
  · refine ⟨fun _ => List.mem_take_iff_getElem.mpr ⟨j, by omega, rfl⟩, fun heq => ?_⟩
    exact absurd heq (String.ne_of_lt (hlt j k hj hk hjk))
  · exact ⟨fun hself => absurd hself (String.lt_irrefl _), fun _ => rfl⟩
  · have hafter := hlt k j hk hj hjk
    exact ⟨fun hbefore => absurd hbefore (String.lt_asymm hafter), fun heq => absurd heq.symm (String.ne_of_lt hafter)⟩

section Dropped

variable {stale : List Claim} {c₁ : Cluster} {p : String} {t : Space} {fault : Fault} {k : Nat}
  {entry : String × List Feature}

theorem Candidate.exists_space (hdrops : Rewrites d.name (fun _ _ => False) (m.Stale d c) c.views c₁.views)
    (hf : m.Candidate d c p f) : ∃ t, c₁.spaces p = some t := by
  obtain ⟨-, s, hs, -⟩ := hf
  exact (hdrops.exists_space hs).imp fun _ => And.left

/-- Once the stale claims have been dropped, what others have forfeited is clear. -/
theorem Clear.of_forfeited (hdrops : Rewrites d.name (fun _ _ => False) (m.Stale d c) c.views c₁.views)
    (hpeers : c₁.dynakubes = c.dynakubes) (hf : m.Candidate d c p f) (ht : c₁.spaces p = some t)
    (h : Forfeited c₁ d.name t.labels f) : m.Clear d c p f := fun _ hs =>
  h.congr hpeers.symm fun key => (freed_of_rewrites hdrops hf.1 hs ht key).symm

/-- The first objection to a claim, where there was none to the claims before it, is the first one of all. -/
theorem Foremost.of_first (hplanned : m.Planned d c stale claims)
    (hdrops : Rewrites d.name (fun _ _ => False) (m.Stale d c) c.views c₁.views) (hpeers : c₁.dynakubes = c.dynakubes)
    (hsorted : entry.2.Pairwise fun f g => f.name ≤ g.name) (hentry : claims[k]? = some entry)
    (hmade : ∀ other ∈ claims.take k, ∀ s, c₁.spaces other.1 = some s → ∀ g ∈ other.2, Forfeited c₁ d.name s.labels g)
    (ht : c₁.spaces entry.1 = some t) (h : FirstObjection c₁ d.name entry.1 t.labels entry.2 f fault) :
    m.Foremost d c entry.1 f fault := by
  obtain ⟨before, after, hfeatures, hbefore, hobjection⟩ := h
  have hf : m.Candidate d c entry.1 f := hplanned.places_iff.mp
    ⟨entry, List.mem_of_getElem? hentry, rfl, hfeatures ▸ List.mem_append_right _ List.mem_cons_self⟩
  refine ⟨hf, fun s hs => hobjection.congr hpeers.symm fun key => (freed_of_rewrites hdrops hf.1 hs ht key).symm, ?_⟩
  intro q g hg hfirst
  obtain ⟨other, hother, rfl, hgother⟩ := hplanned.places_iff.mpr hg
  rcases hfirst with hq | ⟨hq, hlt⟩
  · obtain ⟨u, hu⟩ := hg.exists_space hdrops
    have hmade := hmade other ((ascending_at hplanned.claims_sorted hentry hother).1 hq) u hu g hgother
    exact .of_forfeited hdrops hpeers hg hu hmade
  · obtain rfl := (ascending_at hplanned.claims_sorted hentry hother).2 hq
    refine .of_forfeited hdrops hpeers hg ht (hbefore g ?_)
    rw [hfeatures] at hgother hsorted
    refine (List.mem_append.mp hgother).resolve_right fun hlater => ?_
    rcases List.mem_cons.mp hlater with rfl | hlater
    · exact String.lt_irrefl _ hlt
    · have hle := (List.pairwise_cons.mp (List.pairwise_append.mp hsorted).2.1).1 g hlater
      exact String.not_lt.mpr hle hlt

/-- So the claims are pursued. -/
theorem Advanced.pursued {α β : Type} {r : Except Fault α} {r' : Except Fault β} {deadline : Option Int}
    (h : Advanced c₁ d.name deadline claims k r c') (hplanned : m.Planned d c stale claims)
    (hsorted : ∀ entry ∈ claims, entry.2.Pairwise fun f g => f.name ≤ g.name) (hpeers : c₁.dynakubes = c.dynakubes)
    (hdone : c₁.views = carryOut d.name (steps stale []) c.views) (hok : ∀ v, r' = .ok v → ∃ w, r = .ok w)
    (herror : ∀ fault, r' = .error fault → r = .error fault) :
    m.Pursued d deadline (Places (claims.take k)) (fun p f => (p, f) ∈ stale) c r' c' := by
  have hdrops : Rewrites d.name (fun _ _ => False) (m.Stale d c) c.views c₁.views :=
    hdone ▸ (hplanned.drops (List.Subset.refl _)).congr (fun _ _ => Iff.rfl) fun _ _ => hplanned.stale_iff
  refine ⟨?_, hplanned.stale_iff.mp, ?_, fun v hr p f hf => ?_, fun fault hr => ?_⟩
  · rw [h.views, hdone, ← carryOut_steps_eq]
    exact hplanned.rewrites_part (List.Subset.refl _) (List.take_subset _ _)
  · rintro _ f ⟨entry, hentry, rfl, hf⟩
    have hcandidate := hplanned.places_iff.mp ⟨entry, List.mem_of_mem_take hentry, rfl, hf⟩
    obtain ⟨t, ht⟩ := hcandidate.exists_space hdrops
    exact ⟨hcandidate, .of_forfeited hdrops hpeers hcandidate ht (h.forfeited entry hentry t ht f hf)⟩
  · obtain ⟨w, hw⟩ := hok v hr
    rw [h.ok w hw, List.take_length]
    exact hplanned.places_iff.mpr hf
  · refine (h.error fault (herror fault hr)).imp_right fun hfirst => .inr ?_
    obtain ⟨entry, t, f, hentry, ht, hfirst⟩ := hfirst
    refine ⟨entry.1, f, .of_first hplanned hdrops hpeers (hsorted entry (List.mem_of_getElem? hentry)) hentry
      h.forfeited ht hfirst, fun {q g} hg hq => ?_⟩
    obtain ⟨other, hother, rfl, hgother⟩ := hplanned.places_iff.mpr hg
    exact ⟨other, (ascending_at hplanned.claims_sorted hentry hother).1 hq, rfl, hgother⟩

end Dropped

/-- In the calm a mapping pursues its claims up to the first objection, unless the deadline passes or a selector of its
own cannot be read. -/
theorem map_pursues {deadline : Option Int} {r : Except Fault MappingResult}
    (h : Runs .calm (m.map d deadline).run c tr r c') :
    ∃ claims drops, m.Pursued d deadline claims drops c r c' := by
  rcases Attempt.runs_bind.mp h with ⟨fault, rfl, hlist⟩ | ⟨_, records, c₁, tr₂, -, hlist, hrest⟩
  · obtain ⟨_, -, -, hf, -⟩ := list_calm hlist
    cases hf
  obtain ⟨objects, hlists, rfl, hrecords, -⟩ := list_calm hlist
  cases hrecords
  rcases Attempt.runs_bind.mp hrest with ⟨fault, rfl, hread⟩ | ⟨_, wanted, c₂, tr₄, -, hread, hmap⟩
  · obtain ⟨-, hfault, rfl⟩ := Attempt.runs_except.mp hread
    refine ⟨_, _, .refl _, False.elim, False.elim, by rintro v ⟨⟩, ?_⟩
    rintro _ ⟨⟩
    exact .inr (.inl (firstUnread_of_candidates hfault.symm))
  obtain ⟨-, hwanted, rfl⟩ := Attempt.runs_except.mp hread
  have hplanned := planned hlists hwanted.symm
  have hstale : ∀ claim ∈ staleClaims d.name wanted (Namespaces.records objects), c₂.views claim.1 ≠ none :=
    fun claim hclaim => mt Cluster.views_eq_none_iff.mp (hplanned.spaces_of_mem_stale hclaim)
  rcases Attempt.runs_bind.mp hmap with ⟨fault, rfl, hrelease⟩ | ⟨_, released, c₃, tr₆, -, hrelease, hclaims⟩
  · obtain ⟨k, -, hviews, -, -⟩ := releaseAll_prefix Interference.calm_solitary (noteStale_within d.name) hstale hrelease
    refine ⟨_, _, hviews ▸ hplanned.drops (List.take_subset k _), fun hdrop => ?_, False.elim, by rintro v ⟨⟩, ?_⟩
    · exact hplanned.stale_iff.mp (List.mem_of_mem_take hdrop)
    · rintro _ ⟨⟩
      exact .inl (releaseAll_expires (noteStale_within d.name) hstale hrelease)
  obtain ⟨k, -, hviews, hall, -⟩ := releaseAll_prefix Interference.calm_solitary (noteStale_within d.name) hstale hrelease
  rw [hall _ rfl, List.take_length] at hviews
  have hpeers : c₃.dynakubes = c₂.dynakubes := hrelease.dynakubes_eq
  have hspaces : ∀ entry ∈ claimsByNamespace wanted, ∃ s, c₃.spaces entry.1 = some s := fun entry hentry => by
    refine exists_space ?_
    rw [hviews, ne_eq, carryOut_eq_none_iff, Cluster.views_eq_none_iff]
    exact hplanned.spaces_of_mem_claims hentry
  have hadvanced {tr v c₄} (hrun : Runs .calm ((m.claimAll d.name deadline (claimsByNamespace wanted)).run ⟨[], []⟩).run
      c₃ tr v c₄) : ∃ k, Advanced c₃ d.name deadline (claimsByNamespace wanted) k v c₄ :=
    claimAll_objects (fun _ _ hl => by cases hl) (hplanned.claims_sorted.imp String.ne_of_lt)
      (fun entry hentry => hplanned.operator_not_claimed hentry) hspaces hrun
  have hsorted := fun entry (hentry : entry ∈ claimsByNamespace wanted) => claims_features_sorted hwanted.symm hentry
  rcases Attempt.runs_bind.mp hclaims with ⟨fault, rfl, hclaim⟩ | ⟨_, v, c₄, tr₈, -, hclaim, hnote⟩
  · obtain ⟨w, hrun, hw⟩ := Attempt.runs_state_forget.mp hclaim
    obtain ⟨k, hadvanced⟩ := hadvanced hrun
    refine ⟨_, _, hadvanced.pursued hplanned hsorted hpeers hviews (by rintro v ⟨⟩) fun fault' hf => ?_⟩
    cases hf
    cases w with
    | ok p => cases hw
    | error fault' =>
      cases hw
      rfl
  · obtain ⟨w, hrun, hw⟩ := Attempt.runs_state_forget.mp hclaim
    obtain ⟨_, _, c₅, _, -, hinfo, hpure⟩ := Attempt.runs_lift_bind.mp hnote
    obtain ⟨-, rfl, rfl⟩ := Attempt.runs_pure.mp hpure
    obtain ⟨-, -, rfl⟩ := Session.runs_note.mp hinfo
    obtain ⟨k, hadvanced⟩ := hadvanced hrun
    refine ⟨_, _, hadvanced.pursued hplanned hsorted hpeers hviews (fun _ _ => ?_) (by rintro fault ⟨⟩)⟩
    cases w with
    | ok p => exact ⟨p, rfl⟩
    | error fault => cases hw

/-- A candidate has a live claim of another DynaKube on it once the stale claims have been dropped. -/
def Opposed (m : Mapper) (d : DynaKube) (c : Cluster) : Prop :=
  ∃ p s f, p ≠ "" ∧ c.spaces p = some s ∧ m.Wants d f p s.labels ∧ Contested c d.name (m.freed d p s.labels) f

/-- In the calm a mapping is over by a conflict exactly if there is opposition, and returns else. -/
theorem map_calm {r : Except Fault MappingResult}
    (hread : ∀ f, d.enables f = true → ∃ parsed, LabelSelector.read (d.selectorFor f) = .ok parsed)
    (hpeers : ∀ {p f owner}, c.owner? p f = some owner → owner ≠ d.name → c.Interpretable owner)
    (h : Runs .calm (m.map d none).run c tr r c') :
    (m.Opposed d c ∧ ∃ conflict, r = .error (.ownership conflict)) ∨ ¬m.Opposed d c ∧ ∃ v, r = .ok v := by
  obtain ⟨claims, drops, hpursued⟩ := map_pursues h
  cases r with
  | ok v =>
    refine .inr ⟨?_, v, rfl⟩
    rintro ⟨p, s, f, hne, hs, hw, hcontested⟩
    have hclaimed := hpursued.ok v rfl ⟨hne, s, hs, hw⟩
    exact ((hpursued.claimed hclaimed).2 s hs).not_contested hcontested
  | error fault =>
    rcases hpursued.error fault rfl with hexpired | ⟨f, before, after, henabled, -, hunread⟩ | ⟨p, f, hforemost, -⟩
    · exact absurd hexpired not_expired
    · have hf : d.enables f = true := mem_enabled.mp (henabled ▸ List.mem_append_right _ List.mem_cons_self)
      obtain ⟨parsed, hparsed⟩ := hread f hf
      cases hunread.symm.trans hparsed
    · obtain ⟨hne, s, hs, hw⟩ := hforemost.candidate
      have hj : Judgeable c d.name (m.freed d p s.labels) f := fun owner howner hne => by
        rw [owner?_freed] at howner
        split at howner
        · cases howner
        · exact hpeers ((Cluster.owner?_eq hs f).trans howner) hne
      obtain ⟨hcontested, conflict, rfl⟩ := (hforemost.objection s hs).contested hj
      exact .inl ⟨⟨p, s, f, hne, hs, hw, hcontested⟩, conflict, rfl⟩

/-- Where there are no DynaKubes there is nobody to oppose a mapping. -/
theorem not_opposed (h : c.dynakubes = fun _ => none) : ¬m.Opposed d c := by
  rintro ⟨p, s, f, -, -, -, owner, -, -, e, ⟨object, hobject, -⟩, -⟩
  rw [h] at hobject
  cases hobject

section Parted

/-- Code modules are with `b` and data ingest is with `a`. -/
def parted : Space :=
  ⟨⟨[(Feature.codeModules.labelKey, "b"), (Feature.dataIngest.labelKey, "a")]⟩, .empty, "1"⟩

/-- A namespace that is parted between two DynaKubes that do not exist. -/
def forsaken : Cluster := Cluster.blank.put "n" parted

/-- One of them exists, and wants code modules everywhere. -/
def defended : Cluster := forsaken.setDynaKube "b" (some (everywhereObject "b"))

def warden : Mapper := ⟨⟨2, Nat.two_pos⟩, "operator"⟩

theorem forsaken_spaces : forsaken.spaces "n" = some parted := Cluster.put_spaces_self ..

theorem defended_spaces : defended.spaces "n" = some parted := forsaken_spaces

theorem forsaken_finite : forsaken.Finite := Cluster.blank_finite.put _ _

theorem defended_finite : defended.Finite := forsaken_finite.setDynaKube _ _

theorem defended_shows : defended.Shows "b" (some (everywhere "b")) :=
  ⟨everywhereObject "b", by simp [defended, Cluster.setDynaKube], ofObject_everywhere (by decide)⟩

theorem defended_interpretable (name : String) : defended.Interpretable name := by
  intro object hobject
  by_cases hname : name = "b"
  · subst hname
    obtain ⟨object', hobject', hvalid⟩ := defended_shows
    cases hobject.symm.trans hobject'
    exact ⟨_, hvalid, fun f _ => .inr ⟨_, read_everywhere "b" f⟩⟩
  · exact Cluster.Interpretable.of_none (Function.update_of_ne hname ..) object hobject

theorem defended_opposed : warden.Opposed (everywhere "a") defended := by
  refine ⟨"n", parted, .codeModules, by decide, defended_spaces, wants_everywhere (by decide) _, "b", ?_, by decide,
    everywhere "b", defended_shows, rfl, .inr ⟨_, read_everywhere "b" _, rfl⟩⟩
  rw [owner?_freed, if_neg]
  · rfl
  · rintro ⟨hb, -⟩
    exact absurd hb (by decide)

theorem parted_candidate (hspace : c.spaces "n" = some parted) :
    warden.Candidate (everywhere "a") c "n" .codeModules :=
  ⟨by decide, parted, hspace, wants_everywhere (by decide) _⟩

theorem parted_stale (hspace : c.spaces "n" = some parted) : warden.Stale (everywhere "a") c "n" .dataIngest := by
  refine ⟨by decide, Cluster.owner?_eq hspace _, ?_⟩
  rintro ⟨-, _, -, hf, -⟩
  cases hf

end Parted

/-- What a mapping comes to where nobody interferes, no call fails and there is no deadline. -/
theorem map_exact {r : Except Fault MappingResult}
    (hread : ∀ f, d.enables f = true → ∃ parsed, LabelSelector.read (d.selectorFor f) = .ok parsed)
    (hpeers : ∀ {p f owner}, c.owner? p f = some owner → owner ≠ d.name → c.Interpretable owner)
    (h : Runs .calm (m.map d none).run c tr r c') :
    ((∃ conflict, r = .error (.ownership conflict)) ↔ m.Opposed d c) ∧
      (¬m.Opposed d c → (∃ v, r = .ok v) ∧ Rewrites d.name (m.Candidate d c) (m.Stale d c) c.views c'.views) := by
  rcases map_calm hread hpeers h with ⟨hopposed, conflict, rfl⟩ | ⟨hfree, v, rfl⟩
  · exact ⟨iff_of_true ⟨conflict, rfl⟩ hopposed, fun hfree => absurd hopposed hfree⟩
  · refine ⟨iff_of_false ?_ hfree, fun _ => ⟨⟨v, rfl⟩, map_rewrites Interference.calm_solitary h⟩⟩
    rintro ⟨conflict, hconflict⟩
    cases hconflict

/-- In the parted namespace a mapping of `a` ends in a conflict where `b` exists. Where it does not, the mapping takes
code modules over and drops data ingest, which `a` does not enable. -/
theorem map_exact_parted : ∃ (tr tr' : List Event) (c c' : Cluster) (conflict : OwnershipConflict) (v : MappingResult)
    (w : View), Runs .calm (warden.map (everywhere "a") none).run defended tr (.error (.ownership conflict)) c ∧
      Runs .calm (warden.map (everywhere "a") none).run forsaken tr' (.ok v) c' ∧ c'.views "n" = some w ∧
      w.labels Feature.codeModules.labelKey = some "a" ∧ w.labels Feature.dataIngest.labelKey = none ∧
      w.annotations markerKey = some "true" := by
  have hread := read_everywhere_of "a"
  obtain ⟨tr, r, c, hdefended, -, -⟩ := Session.exists_calm_run defended_finite 0 (warden.map (everywhere "a") none).run
  obtain ⟨tr', r', c', hforsaken, -, -⟩ :=
    Session.exists_calm_run forsaken_finite 0 (warden.map (everywhere "a") none).run
  obtain ⟨conflict, rfl⟩ := (map_exact hread (fun _ _ => defended_interpretable _) hdefended).1.mpr defended_opposed
  obtain ⟨⟨v, rfl⟩, hrewrites⟩ :=
    (map_exact hread (fun _ _ => .of_none rfl) hforsaken).2 (not_opposed rfl)
  obtain ⟨w, hw, hrewritten⟩ := hrewrites.some (Cluster.views_eq forsaken_spaces)
  have hstale := parted_stale forsaken_spaces
  exact ⟨tr, tr', c, c', conflict, v, w, hdefended, hforsaken, hw,
    hrewritten.claimed (parted_candidate forsaken_spaces), hrewritten.dropped hstale.2.2 hstale,
    hrewritten.marker (.inr hstale)⟩

end Mapper
end NamespaceOwnership
