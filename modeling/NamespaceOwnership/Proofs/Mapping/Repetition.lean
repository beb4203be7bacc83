import NamespaceOwnership.Proofs.Mapping.Converged
import NamespaceOwnership.Proofs.Mapping.Prefixes

/-!
# Mapping again

A mapping in the calm that returns leaves its DynaKube with what it wanted and drops what it did not want. Mapping
it again changes nothing exactly if its selectors see the namespaces as they did before (`Mapper.map_again`).
They do where they do not look at who owns what; a selector that does may want a namespace only as long as
nobody owns it, and then the second mapping takes back what the first one did.
-/
namespace NamespaceOwnership

open Session (Runs)

namespace Mapper

open Ledger

variable {pace : Pace} {m : Mapper} {d : DynaKube} {c c' c'' : Cluster} {deadline deadline' : Option Int}
  {space operation owner : String} {s : Space} {f : Feature} {features : List Feature} {st : Memory}
  {todo : List (String × List Feature)} {tr tr' : List Event}

/-- A mapping that returns has done all that it wants. -/
theorem map_leaves (hname : d.name ≠ "") :
    Attempt.Leaves c (m.map d deadline) fun _ c' => Mapped m d c c' := fun _ _ _ hrun =>
  .of_rewrites hname hrun.dynakubes_eq (map_rewrites Interference.calm_solitary hrun)

section Unopposed

/-- Nobody is asked about a place that is free or one's own. -/
theorem judge_unopposed {self : String} {present : Option String} {labels : Labels}
    (h : present = none ∨ present = some self) :
    Attempt.Yields pace c ((m.judge self space f present labels).run st) fun _ c' => c' = c := by
  have hlive : ∀ {tr r c'}, Runs .calm ((m.liveOwner self present f space labels).run st).run c tr r c' →
      r = .ok (present, st) ∧ c' = c := by
    intro tr r c' hrun
    rcases h with rfl | rfl
    · exact (liveOwner_runs_free hrun).2
    · exact (liveOwner_runs_self hrun).2
  intro tr r c' hrun _
  rcases judge_runs hrun with ⟨fault, -, howner⟩ | ⟨live, st₁, tr₁, tr₂, -, -, howner, rfl⟩
  · cases (hlive howner).1
  · obtain ⟨hok, rfl⟩ := hlive howner
    cases hok
    have hconflict : resolve present self ≠ .conflict := by
      intro hc
      obtain ⟨owner, rfl, -, hne⟩ := resolve_eq_conflict_iff.mp hc
      rcases h with h | h
      · cases h
      · exact hne (Option.some.inj h)
    rw [if_neg hconflict]
    exact ⟨_, rfl, rfl⟩

theorem consult_unopposed {self : String} {labels : Labels}
    (h : ∀ f ∈ features, Labels.owner? labels f = none ∨ Labels.owner? labels f = some self) :
    Attempt.Yields pace c ((consult (m.judge self space) labels features).run st) fun _ c' => c' = c := by
  induction features generalizing st with
  | nil => exact .pure rfl
  | cons f rest ih =>
    have hfirst : Attempt.Yields pace c
        ((do Session.note (.examined f (Labels.owner? labels f) labels)
             m.judge self space f (Labels.owner? labels f) labels : Judging Unit).run st)
        fun _ c' => c' = c := by
      intro tr r c' hrun hpace
      obtain ⟨tr₁, _, c₁, tr₂, rfl, hnote, hjudge⟩ := Attempt.runs_state_session_bind.mp hrun
      obtain ⟨rfl, rfl⟩ := Session.runs_note.mp hnote
      exact judge_unopposed (h f List.mem_cons_self) _ _ _ hjudge (pace.split hpace).2
    refine Attempt.yields_state_bind hfirst fun _ st₁ c₁ hc => ?_
    obtain rfl := hc
    exact ih fun g hg => h g (List.mem_cons_of_mem _ hg)

/-- Each of these places is free or belongs to the owner. -/
def Unopposed (owner : String) (places : String → Feature → Prop) (c : Cluster) : Prop :=
  ∀ {p f}, places p f → c.owner? p f = none ∨ c.owner? p f = some owner

theorem claimAll_unopposed (hname : owner ≠ "") (hs : ∀ entry ∈ todo, c.spaces entry.1 ≠ none)
    (h : Unopposed owner (Places todo) c) :
    Attempt.Yields (.meeting deadline) c ((m.claimAll owner deadline todo).run st)
      fun _ c' => Taken owner (Places todo) c c' := by
  induction todo generalizing c st with
  | nil =>
    refine .pure ⟨.refl c, fun {p f} hp => ?_, fun _ => rfl⟩
    obtain ⟨entry, hentry, -⟩ := hp
    cases hentry
  | cons entry rest ih =>
    obtain ⟨space, features⟩ := entry
    obtain ⟨s, hspace⟩ := Option.ne_none_iff_exists'.mp (hs _ List.mem_cons_self)
    refine Attempt.yields_state_bind (Attempt.yields_state_lift (checkDeadline_yields deadline _))
      fun _ st₁ c₁ hp => ?_
    obtain ⟨rfl, -⟩ := hp
    have hguard : Attempt.Yields .any c₁
        ((consult (m.judge owner space) s.labels features).run { st₁ with decisions := [] })
        fun p c' => True ∧ c' = c₁ := by
      refine (consult_unopposed fun f hf => ?_).mono fun _ _ hc => ⟨trivial, hc⟩
      rw [← Cluster.owner?_eq hspace]
      exact h (places_cons.mpr (.inl ⟨rfl, hf⟩))
    refine Attempt.yields_state_bind (claimOne_passed (fun _ => True) hname hspace hguard) fun v st₂ c₂ hp => ?_
    obtain ⟨-, htaken⟩ := hp
    have hs₂ : ∀ other ∈ rest, c₂.spaces other.1 ≠ none := fun other hother =>
      htaken.relabels.ne_none (hs other (List.mem_cons_of_mem _ hother))
    have hrest : Unopposed owner (Places rest) c₂ := fun {p f} hp => by
      by_cases hhere : p = space ∧ f ∈ features
      · exact .inr (htaken.taken hhere).1
      · rw [htaken.kept hhere]
        exact h (places_cons.mpr (.inr hp))
    exact Attempt.yields_state_bind (ih hs₂ hrest) fun w st₃ c₃ htaken' => .pure (htaken.then htaken')

/-- A mapping that meets no other owner returns before its deadline. -/
theorem map_unopposed (hname : d.name ≠ "")
    (hread : ∀ f, d.enables f = true → ∃ parsed, LabelSelector.read (d.selectorFor f) = .ok parsed)
    (h : ∀ {p s f}, p ≠ "" → c.spaces p = some s → m.Wants d f p s.labels →
      c.owner? p f = none ∨ c.owner? p f = some d.name) :
    Attempt.Yields (.meeting deadline) c (m.map d deadline) fun _ c' => Mapped m d c c' := by
  refine list_yields.bind fun records c₁ hp => ?_
  obtain ⟨rfl, objects, hlists, rfl⟩ := hp
  obtain ⟨wanted, hwanted⟩ := exists_candidates m (Namespaces.records objects) hread
  refine (Attempt.yields_except hwanted).bind fun wanted c₂ hp => ?_
  obtain ⟨rfl, rfl⟩ := hp
  have hstale : ∀ claim ∈ staleClaims d.name wanted (Namespaces.records objects), c₂.spaces claim.1 ≠ none :=
    fun claim hc => spaces_of_mem_heldBy hlists (List.mem_filter.mp hc).1
  refine (releaseAll_yields (noteStale_within d.name) hstale).bind fun released c₃ hdropped => ?_
  have hclaims := spaces_of_mem_claims hlists hwanted hdropped.1
  have hplaces : Unopposed d.name (Places (claimsByNamespace wanted)) c₃ := fun {p f} hp => by
    obtain ⟨entry, hentry, rfl, hf⟩ := id hp
    obtain ⟨hne, -, s, hs, hw⟩ := wanted_claims hlists hwanted entry hentry
    rw [hdropped.2]
    split
    · exact .inl rfl
    · exact h hne hs (hw f hf)
  have hall : Attempt.Yields (.meeting deadline) c₃
      ((m.claimAll d.name deadline (claimsByNamespace wanted)).run' ⟨[], []⟩)
      fun _ c' => Taken d.name (Places (claimsByNamespace wanted)) c₃ c' :=
    (Attempt.yields_state_forget (claimAll_unopposed hname hclaims hplaces)).mono fun _ _ ⟨_, hp⟩ => hp
  refine hall.bind fun v c₄ htaken => ?_
  refine (Attempt.yields_session (Session.yields_note _)).bind fun _ c₅ hc => ?_
  obtain rfl := hc
  exact .pure (.of_claims hlists hwanted hdropped htaken)

end Unopposed

section Again

/-- What was not written is not accepted. -/
theorem settle_unwritten (self : String) (decisions : List (Feature × Resolution)) :
    (settle self space false decisions).Yields pace c fun p c' => p.1 = [] ∧ c' = c := by
  induction decisions with
  | nil => exact .done ⟨rfl, rfl⟩
  | cons decision rest ih =>
    obtain ⟨f, resolution⟩ := decision
    cases resolution with
    | alreadyOwned =>
      refine (Session.yields_note _).bind fun _ c₁ hc => ?_
      obtain rfl := hc
      refine (Session.yields_note _).bind fun _ c₂ hc => ?_
      obtain rfl := hc
      exact ih.bind fun p c₃ hp => .done hp
    | accept => exact ih
    | conflict => exact ih

/-- A claim of what its owner has got, with the marker, accepts nothing. -/
theorem claimOne_again (hs : c.spaces space = some s) (hmarked : s.IsMarked)
    (hown : ∀ f ∈ features, Labels.owner? s.labels f = some owner) :
    Attempt.Yields (.meeting deadline) c ((m.claimOne owner deadline space features).run st)
      fun p c' => p.1.1 = [] ∧ c' = c := by
  have hwrite (st : Memory) : Attempt.Yields (.meeting deadline) c
      ((m.ledger.write space features owner (some (m.judge owner space)) deadline).run st)
      fun p c' => p.1 = false ∧ c' = c := by
    have hguarded : Attempt.Yields .any c ((guarded m owner space features s.labels s.annotations).run st)
        fun p c' => p.1 = (claimed owner features s.labels, marked s.annotations) ∧ c' = c :=
      Attempt.yields_state_bind (consult_unopposed fun f hf => .inr (hown f hf))
        fun _ _ _ hc => .pure ⟨rfl, hc⟩
    intro tr r c' hrun hpace
    have hstill : ∀ tr v c', Runs .calm ((guarded m owner space features s.labels s.annotations).run st).run
        c tr v c' → c' = c := by
      intro tr v c' hchanged
      obtain ⟨-, -, -, hc⟩ := hguarded _ _ _ hchanged trivial
      exact hc
    cases modify_completed m.ledger.attempts_pos hs hstill hrun with
    | expired checked =>
      obtain ⟨_, hok, -⟩ := checkDeadline_yields deadline _ _ _ _ checked hpace
      cases hok
    | objected read changed =>
      obtain ⟨_, hok, -⟩ := hguarded _ _ _ changed trivial
      cases hok
    | idle read changed same => exact ⟨_, rfl, rfl, rfl⟩
    | @written _ _ _ new _ _ read changed differs =>
      obtain ⟨_, hok, hnew, -⟩ := hguarded _ _ _ changed trivial
      cases hok
      obtain rfl : new = _ := hnew
      -- nothing is written where the claim and the marker are there already
      rw [unchanged_claimed hown hmarked] at differs
      cases differs
  have hreset : Attempt.Yields (.meeting deadline) c
      ((modify fun s => { s with decisions := [] } : Judging PUnit).run st) fun _ c' => c' = c := .pure rfl
  refine Attempt.yields_state_bind hreset fun _ st₁ c₁ hc => ?_
  obtain rfl := hc
  refine Attempt.yields_state_bind (hwrite st₁) fun written st₂ c₂ hp => ?_
  obtain ⟨rfl, rfl⟩ := hp
  change Attempt.Yields _ _ ((liftM (settle owner space false st₂.decisions) : Judging _).run st₂) _
  exact (Attempt.yields_state_session (settle_unwritten _ _)).mono fun _ _ hp => hp.1

theorem claimAll_again (h : ∀ entry ∈ todo, ∃ s, c.spaces entry.1 = some s ∧ s.IsMarked ∧
      ∀ f ∈ entry.2, Labels.owner? s.labels f = some owner) :
    Attempt.Yields (.meeting deadline) c ((m.claimAll owner deadline todo).run st)
      fun p c' => p.1.1 = [] ∧ c' = c := by
  induction todo generalizing st with
  | nil => exact .pure ⟨rfl, rfl⟩
  | cons entry rest ih =>
    obtain ⟨s, hs, hmarked, hown⟩ := h entry List.mem_cons_self
    have hrest := fun other hother => h other (List.mem_cons_of_mem entry hother)
    refine Attempt.yields_state_bind (Attempt.yields_state_lift (checkDeadline_yields deadline _))
      fun _ st₁ c₁ hp => ?_
    obtain ⟨rfl, -⟩ := hp
    refine Attempt.yields_state_bind (claimOne_again hs hmarked hown) fun v st₂ c₂ hp => ?_
    obtain ⟨hv, rfl⟩ := hp
    refine Attempt.yields_state_bind (ih hrest) fun w st₃ c₃ hp => .pure ?_
    obtain ⟨hw, rfl⟩ := hp
    obtain ⟨accepted, reaffirmed⟩ := v
    obtain ⟨accepted', reaffirmed'⟩ := w
    obtain rfl : accepted = [] := hv
    obtain rfl : accepted' = [] := hw
    exact ⟨rfl, rfl⟩

/-- A mapping of what is satisfied returns before its deadline, and accepts and releases nothing. -/
theorem Satisfied.map_yields (h : m.Satisfied d c)
    (hread : ∀ f, d.enables f = true → ∃ parsed, LabelSelector.read (d.selectorFor f) = .ok parsed) :
    Attempt.Yields (.meeting deadline) c (m.map d deadline)
      fun v _ => v.accepted = [] ∧ v.released = [] := by
  refine list_yields.bind fun records c₁ hp => ?_
  obtain ⟨rfl, objects, hlists, rfl⟩ := hp
  obtain ⟨wanted, hwanted⟩ := exists_candidates m (Namespaces.records objects) hread
  refine (Attempt.yields_except hwanted).bind fun wanted c₂ hp => ?_
  obtain ⟨rfl, rfl⟩ := hp
  rw [h.staleClaims_eq_nil hlists hwanted]
  have hnone : Attempt.Yields (.meeting deadline) c₂ (pure [] : Attempt (List Claim))
      fun released c' => released = [] ∧ c' = c₂ := .pure ⟨rfl, rfl⟩
  refine hnone.bind fun released c₃ hp => ?_
  obtain ⟨rfl, rfl⟩ := hp
  refine (Attempt.yields_state_forget (claimAll_again (h.claims_owned hlists hwanted))).bind
    fun v c₄ hp => ?_
  obtain ⟨_, hv, rfl⟩ := hp
  obtain ⟨accepted, reaffirmed⟩ := v
  obtain rfl : accepted = [] := hv
  exact (Attempt.yields_session (Session.yields_note _)).bind fun _ c₅ _ => .pure ⟨rfl, rfl⟩

/-- Whether the DynaKube wants a place is the same in both clusters. -/
def SeesAlike (m : Mapper) (d : DynaKube) (c c' : Cluster) : Prop :=
  ∀ {p s s' f}, p ≠ "" → c.spaces p = some s → c'.spaces p = some s' →
    (m.Wants d f p s.labels ↔ m.Wants d f p s'.labels)

/-- A DynaKube that does not look at who owns what sees no difference. -/
theorem Mapped.seesAlike (h : Mapped m d c c')
    (hplain : ∀ f parsed, LabelSelector.read (d.selectorFor f) = .ok parsed → parsed.Plain) :
    m.SeesAlike d c c' := by
  intro p s s' f _ hs hs'
  obtain ⟨t, ht, hagree, -⟩ := h.relabels.some hs
  cases hs'.symm.trans ht
  exact ⟨fun hw => hw.congr hagree.symm (hplain f), fun hw => hw.congr hagree (hplain f)⟩

/-- After a mapping the DynaKube owns what it wanted, and nothing else. -/
theorem Mapped.owner_iff (h : Mapped m d c c') {p : String} (hne : p ≠ "") (hs : c.spaces p = some s) :
    c'.owner? p f = some d.name ↔ m.Wants d f p s.labels := by
  refine ⟨fun howner => ?_, fun hw => (h.wanted hne hs hw).1⟩
  by_contra hw
  rw [h.other hne hs hw] at howner
  split at howner
  · cases howner
  · exact absurd howner ‹_›

theorem Mapped.satisfied (h : Mapped m d c c') (hsees : m.SeesAlike d c c') : m.Satisfied d c' where
  owned := by
    intro p s' f hne hs' hw
    obtain ⟨s, hs, -⟩ := h.relabels.exists_before hs'
    obtain ⟨howner, t, ht, hmarked⟩ := h.wanted hne hs ((hsees hne hs hs').mpr hw)
    cases hs'.symm.trans ht
    exact ⟨howner, hmarked⟩
  only := by
    intro p s' f hne hs' howner
    obtain ⟨s, hs, -⟩ := h.relabels.exists_before hs'
    exact (hsees hne hs hs').mp ((h.owner_iff hne hs).mp howner)

/-- A second mapping that changes nothing wants what the first one wanted. -/
theorem Mapped.seesAlike_of_still (h : Mapped m d c c') (h' : Mapped m d c' c') : m.SeesAlike d c c' :=
  fun hne hs hs' => (h.owner_iff hne hs).symm.trans (h'.owner_iff hne hs')

/-- Without patches a cluster in the calm stays as it is. -/
theorem eq_of_no_patch {α : Type} {t : Session α} {a : α} (h : Runs .calm t c tr a c')
    (hnone : ∀ x, .asked x ∈ tr → x.request.isPatch = false) : c' = c := by
  by_contra hne
  obtain ⟨x, hx, -⟩ := h.exists_change (· = c) rfl hne
  rw [accepted_eq_nil hnone] at hx
  cases hx

/-- The selectors of a mapping that returns can be read. -/
theorem map_readable {v : MappingResult} (h : Runs .calm (m.map d deadline).run c tr (.ok v) c') (f : Feature)
    (hf : d.enables f = true) : ∃ parsed, LabelSelector.read (d.selectorFor f) = .ok parsed := by
  rcases Attempt.runs_bind.mp h with ⟨fault, hr, -⟩ | ⟨tr₁, records, c₁, tr₂, -, hlist, hrest⟩
  · cases hr
  rcases Attempt.runs_bind.mp hrest with ⟨fault, hr, -⟩ | ⟨tr₃, wanted, c₂, tr₄, -, hwanted, -⟩
  · cases hr
  exact candidates_readable (Attempt.runs_except.mp hwanted).2.1.symm hf

/-- In the calm, where the deadline does not pass: a mapping that follows one that returned returns, sends no patch,
and accepts and releases nothing exactly if the DynaKube wants the same places as before the first one. It does
if its selectors do not look at who owns what. -/
theorem map_again {v : MappingResult} {r : Except Fault MappingResult} (hname : d.name ≠ "")
    (h : Runs .calm (m.map d deadline).run c tr (.ok v) c')
    (h' : Runs .calm (m.map d deadline').run c' tr' r c'') (hpace : (Pace.meeting deadline').holds tr') :
    ((∃ w, r = .ok w ∧ w.accepted = [] ∧ w.released = [] ∧ ∀ x, .asked x ∈ tr' → x.request.isPatch = false) ↔
        m.SeesAlike d c c') ∧
      ((∀ f parsed, LabelSelector.read (d.selectorFor f) = .ok parsed → parsed.Plain) → m.SeesAlike d c c') := by
  have hmapped : Mapped m d c c' := map_leaves hname _ _ _ h
  refine ⟨⟨?_, fun hsees => ?_⟩, hmapped.seesAlike⟩
  · rintro ⟨w, rfl, -, -, hnone⟩
    obtain rfl := eq_of_no_patch h' hnone
    exact hmapped.seesAlike_of_still (map_leaves hname _ _ _ h')
  · have hsatisfied := hmapped.satisfied hsees
    obtain ⟨w, hr, haccepted, hreleased⟩ := hsatisfied.map_yields (map_readable h) _ _ _ h' hpace
    exact ⟨w, hr, haccepted, hreleased, (hsatisfied.map_idle deadline' _ _ _ h').2⟩

/-- One namespace without labels. -/
private def unclaimed : Cluster := Cluster.blank.put "n" ⟨.empty, .empty, "1"⟩

private def surveyor : Mapper := ⟨⟨2, Nat.two_pos⟩, "operator"⟩

private theorem unclaimed_owner (p : String) (f : Feature) : unclaimed.owner? p f = none := by
  by_cases hp : p = "n"
  · subst hp
    exact Cluster.owner?_eq (Cluster.put_spaces_self ..) f
  · rw [Cluster.owner?, unclaimed, Cluster.put_spaces_of_ne _ _ hp]
    rfl

/-- There a first mapping returns, in a run in which the time stands still. -/
private theorem unclaimed_mapped (hname : d.name ≠ "")
    (hread : ∀ f, d.enables f = true → ∃ parsed, LabelSelector.read (d.selectorFor f) = .ok parsed) :
    ∃ tr v c', Runs .calm (surveyor.map d (some 1)).run unclaimed tr (.ok v) c' ∧ c'.Finite ∧
      Mapped surveyor d unclaimed c' := by
  obtain ⟨tr, r, c', hrun, hfinite, hstill⟩ :=
    Session.exists_calm_run (Cluster.blank_finite.put _ _) 0 (surveyor.map d (some 1)).run
  have hpace : (Pace.before 1).holds tr := fun x hx time htime => by
    rw [hstill x hx time htime]
    decide
  obtain ⟨v, rfl, hmapped⟩ :=
    map_unopposed hname hread (fun {p s f} _ _ _ => .inl (unclaimed_owner p f)) _ _ _ hrun
      (Pace.meeting_some.mpr hpace)
  exact ⟨tr, v, c', hrun, hfinite, hmapped⟩

/-- A selector that selects everything sees no difference. -/
theorem map_again_everywhere : ∃ (c c' c'' : Cluster) (tr tr' : List Event) (v w : MappingResult),
    Runs .calm (surveyor.map (everywhere "a") (some 1)).run c tr (.ok v) c' ∧
      Runs .calm (surveyor.map (everywhere "a") none).run c' tr' (.ok w) c'' ∧ w.accepted = [] ∧
      w.released = [] ∧ ∀ x, .asked x ∈ tr' → x.request.isPatch = false := by
  obtain ⟨tr, v, c', hfirst, hfinite, -⟩ := unclaimed_mapped (by decide) (read_everywhere_of "a")
  obtain ⟨tr', r, c'', hsecond, -, -⟩ :=
    Session.exists_calm_run hfinite 0 (surveyor.map (everywhere "a") none).run
  obtain ⟨hiff, hplain⟩ := map_again (by decide) hfirst hsecond fun _ hnone => by cases hnone
  obtain ⟨w, rfl, haccepted, hreleased, hnone⟩ := hiff.mpr (hplain fun f _ => everywhere_plain)
  exact ⟨unclaimed, c', c'', tr, tr', v, w, hfirst, hsecond, haccepted, hreleased, hnone⟩

/-- A DynaKube that wants code modules only on namespaces where nobody has them. -/
private def shy : DynaKube :=
  ⟨"a", .fields [("matchExpressions", .list [.fields
    [("key", .text Feature.codeModules.labelKey), ("operator", .text "DoesNotExist")]])],
    [(.codeModules, .null)], none⟩

private theorem read_shy (f : Feature) :
    LabelSelector.read (shy.selectorFor f) = .ok ⟨[.absent Feature.codeModules.labelKey]⟩ := by
  have hread : (LabelSelector.read shy.selector).toOption = some ⟨[.absent Feature.codeModules.labelKey]⟩ := by
    decide +kernel
  have hselector : shy.selectorFor f = shy.selector := by cases f <;> rfl
  rw [hselector]
  cases h : LabelSelector.read shy.selector with
  | error fault =>
    rw [h] at hread
    cases hread
  | ok parsed =>
    rw [h] at hread
    exact congrArg Except.ok (Option.some.inj hread)

private theorem wants_shy_iff {labels : Labels} :
    surveyor.Wants shy .codeModules "n" labels ↔ TextMap.get? labels Feature.codeModules.labelKey = none := by
  have hselects : (⟨[.absent Feature.codeModules.labelKey]⟩ : LabelSelector).selects labels = true ↔
      TextMap.get? labels Feature.codeModules.labelKey = none := by
    simp [LabelSelector.selects, Requirement.holds, TextMap.contains]
  rw [← hselects]
  constructor
  · rintro ⟨-, -, parsed, hread, hparsed⟩
    cases hread.symm.trans (read_shy .codeModules)
    exact hparsed
  · exact fun h => ⟨rfl, by decide, _, read_shy .codeModules, h⟩

/-- Its second mapping takes back what the first one did. -/
theorem mapping_undone : ∃ (c c' c'' : Cluster) (tr tr' : List Event) (v w : MappingResult),
    Runs .calm (surveyor.map shy (some 1)).run c tr (.ok v) c' ∧
      Runs .calm (surveyor.map shy (some 1)).run c' tr' (.ok w) c'' ∧
      (∃ x, .asked x ∈ tr' ∧ x.request.isPatch = true) ∧ c'.owner? "n" .codeModules = some "a" ∧
      c''.owner? "n" .codeModules = none := by
  have hname : shy.name ≠ "" := by decide
  have hread : ∀ f, shy.enables f = true → ∃ parsed, LabelSelector.read (shy.selectorFor f) = .ok parsed :=
    fun f _ => ⟨_, read_shy f⟩
  obtain ⟨tr, v, c', hfirst, hfinite, hmapped⟩ := unclaimed_mapped hname hread
  obtain ⟨tr', r, c'', hsecond, -, hstill⟩ :=
    Session.exists_calm_run hfinite 0 (surveyor.map shy (some 1)).run
  have hpace : (Pace.before 1).holds tr' := fun x hx time htime => by
    rw [hstill x hx time htime]
    decide
  have howners : ∀ {p s f}, p ≠ "" → c'.spaces p = some s → surveyor.Wants shy f p s.labels →
      c'.owner? p f = none ∨ c'.owner? p f = some shy.name := by
    intro p s f hne hs _
    obtain ⟨t, ht, -⟩ := hmapped.relabels.exists_before hs
    by_cases hw : surveyor.Wants shy f p t.labels
    · exact .inr (hmapped.wanted hne ht hw).1
    · left
      rw [hmapped.other hne ht hw, unclaimed_owner]
      rfl
  obtain ⟨w, rfl, hremapped⟩ := map_unopposed hname hread howners _ _ _ hsecond (Pace.meeting_some.mpr hpace)
  have hgot : c'.owner? "n" .codeModules = some "a" :=
    (hmapped.wanted (by decide) (Cluster.put_spaces_self ..) (wants_shy_iff.mpr rfl)).1
  obtain ⟨s, hs, howner⟩ := Option.bind_eq_some_iff.mp hgot
  have hunwanted : ¬surveyor.Wants shy .codeModules "n" s.labels := by
    rw [wants_shy_iff, (Labels.owner?_eq_some_iff.mp howner).1]
    exact Option.some_ne_none "a"
  have hlost : c''.owner? "n" .codeModules = none :=
    (hremapped.other (by decide) hs hunwanted).trans (if_pos hgot)
  obtain ⟨x, hx, -⟩ := hsecond.exists_change (fun c => c.owner? "n" .codeModules = some "a") hgot (by simp [hlost])
  obtain ⟨hmem, hsome⟩ := mem_accepted.mp hx
  exact ⟨unclaimed, c', c'', tr, tr', v, w, hfirst, hsecond, ⟨x, hmem, Exchange.isPatch_of_patch? hsome⟩, hgot, hlost⟩

end Again

end Mapper
end NamespaceOwnership
