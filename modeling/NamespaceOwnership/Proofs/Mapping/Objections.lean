import NamespaceOwnership.Proofs.Mapping.Prefixes
import NamespaceOwnership.Proofs.Mapping.Verdicts

/-!
# Where a mapping is stopped

In the calm a mapping ends with the first objection that its guard meets, in the order of namespaces and features, unless
the deadline passes before. What it has done by then is what comes before in its plan (`Mapper.claimAll_objects`).
-/
namespace NamespaceOwnership

open Session (Runs)

theorem Cluster.Interpretable.of_none {c : Cluster} {name : String} (h : c.dynakubes name = none) :
    c.Interpretable name := by
  intro object hobject
  rw [h] at hobject
  cases hobject

theorem Cluster.Live.congr {c c' : Cluster} {owner : String} {f : Feature} {a b : Labels} (h : c.Live owner f a)
    (hc : c'.dynakubes = c.dynakubes) (hab : ∀ key, TextMap.get? a key = TextMap.get? b key) : c'.Live owner f b := by
  obtain ⟨d, hshows, hf, hselector⟩ := h
  refine ⟨d, hshows.congr (congrFun hc owner), hf, hselector.imp_right ?_⟩
  rintro ⟨parsed, hread, hselects⟩
  exact ⟨parsed, hread, (LabelSelector.selects_congr fun r _ => hab r.key).symm.trans hselects⟩

/-- Where the labels are the same, a claim that has lapsed has lapsed. -/
theorem Cluster.NotLive.of_same {c c' : Cluster} {owner : String} {f : Feature} {a b : Labels}
    (h : c.NotLive owner f a) (hc : c'.dynakubes = c.dynakubes)
    (hab : ∀ key, TextMap.get? a key = TextMap.get? b key) : c'.NotLive owner f b := by
  obtain ⟨found, hshows, hlapsed⟩ := h
  refine ⟨found, hshows.congr (congrFun hc owner), fun d hd => (hlapsed d hd).imp_right ?_⟩
  rintro ⟨parsed, hread, hselects⟩
  exact ⟨parsed, hread, (LabelSelector.selects_congr fun r _ => hab r.key).symm.trans hselects⟩

namespace Mapper

open Ledger

variable {m : Mapper} {c c' : Cluster} {space self name owner : String} {s : Space} {f : Feature}
  {features : List Feature} {labels : Labels} {st : Memory} {tr : List Event} {deadline : Option Int}
  {claims : List (String × List Feature)} {fault : Fault}

theorem Forfeited.congr {a b : Labels} (h : Forfeited c self a f) (hc : c'.dynakubes = c.dynakubes)
    (hab : ∀ key, TextMap.get? a key = TextMap.get? b key) : Forfeited c' self b f := fun owner howner hne =>
  (h owner ((Labels.owner?_congr (hab f.labelKey)).trans howner) hne).of_same hc hab

theorem Objection.congr {a b : Labels} (h : Objection c self space a f fault) (hc : c'.dynakubes = c.dynakubes)
    (hab : ∀ key, TextMap.get? a key = TextMap.get? b key) : Objection c' self space b f fault := by
  have howns {owner} (howner : Labels.owner? a f = some owner) : Labels.owner? b f = some owner :=
    (Labels.owner?_congr (hab f.labelKey)).symm.trans howner
  cases h with
  | live owns other live => exact .live (howns owns) other (live.congr hc hab)
  | unknown owns other stored uninterpretable =>
    exact .unknown (howns owns) other (hc ▸ stored) uninterpretable

theorem FirstObjection.congr {a b : Labels} (h : FirstObjection c self space a features f fault)
    (hc : c'.dynakubes = c.dynakubes) (hab : ∀ key, TextMap.get? a key = TextMap.get? b key) :
    FirstObjection c' self space b features f fault := by
  obtain ⟨before, after, rfl, hbefore, hobjection⟩ := h
  exact ⟨before, after, rfl, fun g hg => (hbefore g hg).congr hc hab, hobjection.congr hc hab⟩

/-- There is a deadline, and the fault says that it has passed. -/
def Expired (deadline : Option Int) (fault : Fault) : Prop :=
  deadline ≠ none ∧ ∃ operation, fault = .deadline operation

theorem not_expired : ¬Expired none fault := fun h => h.1 rfl

theorem checkDeadline_expires {operation : String}
    (h : Runs .calm (checkDeadline deadline operation).run c tr (.error fault) c') : Expired deadline fault := by
  rcases checkDeadline_runs h with ⟨-, -, hr, -⟩ | ⟨limit, time, rfl, -, -, -, hr⟩
  · cases hr
  · split at hr
    · cases hr
      exact ⟨Option.some_ne_none limit, operation, rfl⟩
    · cases hr

/-- In the calm only the deadline keeps a claim from being dropped. -/
theorem remove_expires (hs : c.spaces space ≠ none)
    (h : Runs .calm (m.ledger.remove space f (some owner) deadline).run c tr (.error fault) c') :
    Expired deadline fault := by
  obtain ⟨s, hs⟩ := Option.ne_none_iff_exists'.mp hs
  obtain ⟨v, hrun, hv⟩ := Attempt.runs_state_forget.mp h
  cases v with
  | ok p => cases hv
  | error fault' =>
    cases hv
    cases modify_completed m.ledger.attempts_pos hs (fun _ _ _ hchanged => (release_runs hchanged).2.1) hrun with
    | expired checked => exact checkDeadline_expires checked
    | objected read changed => cases (release_runs changed).1

theorem releaseAll_expires {noted : Claim → Session Unit} {operation : String} {stale : List Claim}
    (hnoted : ∀ claim, (noted claim).Within fun _ => False) (hs : ∀ claim ∈ stale, c.views claim.1 ≠ none)
    (h : Runs .calm (m.releaseAll owner operation deadline noted stale).run c tr (.error fault) c') :
    Expired deadline fault := by
  induction stale generalizing c tr with
  | nil => cases (Attempt.runs_pure.mp h).2.1
  | cons claim rest ih =>
    rcases Attempt.runs_bind.mp h with ⟨_, hf, hcheck⟩ | ⟨_, _, c₁, _, -, hcheck, hdrop⟩
    · cases hf
      exact checkDeadline_expires hcheck
    obtain rfl := checkDeadline_calm hcheck
    have hthere := hs claim List.mem_cons_self
    rcases Attempt.runs_bind.mp hdrop with ⟨_, hf, hremove⟩ | ⟨_, dropped, c₂, _, -, hremove, hlater⟩
    · cases hf
      exact remove_expires (mt Cluster.views_eq_none_iff.mpr hthere) hremove
    have hs₂ : ∀ other ∈ rest, c₂.views other.1 ≠ none := fun other hother => by
      rw [(remove_alone Interference.calm_solitary hthere hremove).2 _ rfl, ne_eq, Step.apply_eq_none_iff]
      exact hs other (List.mem_cons_of_mem _ hother)
    cases dropped with
    | false => exact ih hs₂ hlater
    | true =>
      obtain ⟨_, _, c₃, _, -, hnote, hothers⟩ := Attempt.runs_lift_bind.mp hlater
      obtain ⟨-, rfl⟩ := hnote.onlyNotes (hnoted claim)
      rcases Attempt.runs_bind.mp hothers with ⟨_, hf, hfails⟩ | ⟨_, _, _, _, -, -, hend⟩
      · cases hf
        exact ih hs₂ hfails
      · cases (Attempt.runs_pure.mp hend).2.1

/-- In the calm a guarded update is made if there is no objection, and otherwise nothing happens. -/
theorem write_objects {r : Except Fault (Bool × Memory)} (hs : c.spaces space = some s) (hr : Recalls c st)
    (hop : space ≠ m.operatorNamespace)
    (h : Runs .calm ((m.ledger.write space features self (some (m.judge self space)) deadline).run st).run c tr r c') :
    (∃ fault, r = .error fault ∧
        (Expired deadline fault ∨ ∃ f, FirstObjection c self space s.labels features f fault)) ∨
      (∀ f ∈ features, Forfeited c self s.labels f) ∧ ∃ v, r = .ok v ∧ Recalls c v.2 ∧
        ∀ other, other ≠ space → c'.spaces other = c.spaces other := by
  have hguard {tr v c₁} (changed : Runs .calm ((guarded m self space features s.labels s.annotations).run st).run
      c tr v c₁) : (∃ f fault, v = .error fault ∧ FirstObjection c self space s.labels features f fault) ∨
        (∀ f ∈ features, Forfeited c self s.labels f) ∧ ∃ p, v = .ok p ∧ Recalls c p.2 := by
    obtain ⟨verdict, hconsult, rfl⟩ := claim_runs changed
    obtain ⟨-, ⟨f, fault, rfl, hobjection⟩ | ⟨hforfeited, st', rfl, hrecalls⟩⟩ := consult_objects hr hop hconsult
    · exact .inl ⟨f, fault, rfl, hobjection⟩
    · exact .inr ⟨hforfeited, _, rfl, hrecalls⟩
  have hstill : ((guarded m self space features s.labels s.annotations).run st).run.Idle c := by
    refine (guarded_within s.labels s.annotations st).idle ?_
    rintro _ ⟨name, rfl⟩
    rfl
  cases modify_completed m.ledger.attempts_pos hs (fun _ _ _ hchanged => (hstill _ _ _ hchanged).1) h with
  | expired checked =>
    exact .inl ⟨_, rfl, .inl (checkDeadline_expires checked)⟩
  | objected read changed =>
    rcases hguard changed with ⟨f, fault, hv, hobjection⟩ | ⟨-, _, hv, -⟩
    · cases hv
      exact .inl ⟨_, rfl, .inr ⟨f, hobjection⟩⟩
    · cases hv
  | idle read changed same =>
    rcases hguard changed with ⟨_, _, hv, -⟩ | ⟨hforfeited, _, hv, hrecalls⟩
    · cases hv
    · cases hv
      exact .inr ⟨hforfeited, _, rfl, hrecalls, fun _ _ => rfl⟩
  | written read changed differs =>
    rcases hguard changed with ⟨_, _, hv, -⟩ | ⟨hforfeited, _, hv, hrecalls⟩
    · cases hv
    · cases hv
      exact .inr ⟨hforfeited, _, rfl, hrecalls, fun other hother => c.put_spaces_of_ne _ hother⟩

theorem claimOne_objects {r : Except Fault ((List Feature × List Feature) × Memory)} (hs : c.spaces space = some s)
    (hr : Recalls c st) (hop : space ≠ m.operatorNamespace)
    (h : Runs .calm ((m.claimOne self deadline space features).run st).run c tr r c') :
    (∃ fault, r = .error fault ∧
        (Expired deadline fault ∨ ∃ f, FirstObjection c self space s.labels features f fault)) ∨
      (∀ f ∈ features, Forfeited c self s.labels f) ∧ ∃ v, r = .ok v ∧ Recalls c v.2 ∧
        ∀ other, other ≠ space → c'.spaces other = c.spaces other := by
  have hr₁ : Recalls c { st with decisions := [] } := hr
  rcases claimOne_runs h with ⟨fault, rfl, hwrite⟩ | ⟨_, written, st₁, _, v, -, rfl, hwrite, -⟩
  · rcases write_objects hs hr₁ hop hwrite with ⟨_, hf, hhalted⟩ | ⟨-, _, hf, -⟩
    · cases hf
      exact .inl ⟨fault, rfl, hhalted⟩
    · cases hf
  · rcases write_objects hs hr₁ hop hwrite with ⟨_, hf, -⟩ | ⟨hforfeited, _, hf, hrecalls, hkept⟩
    · cases hf
    · cases hf
      exact .inr ⟨hforfeited, _, rfl, hrecalls, hkept⟩

/-- How far the claims on some namespaces have come in the calm: there is no objection to those that were made. The one
that comes next has met with the first objection, or the deadline has passed. -/
structure Advanced {α : Type} (c : Cluster) (owner : String) (deadline : Option Int)
    (claims : List (String × List Feature)) (k : Nat) (r : Except Fault α) (c' : Cluster) : Prop where
  le : k ≤ claims.length
  views : c'.views = carryOut owner (steps [] (claims.take k)) c.views
  forfeited : ∀ entry ∈ claims.take k, ∀ s, c.spaces entry.1 = some s → ∀ f ∈ entry.2, Forfeited c owner s.labels f
  ok : ∀ v, r = .ok v → k = claims.length
  error : ∀ fault, r = .error fault → Expired deadline fault ∨
    ∃ entry s f, claims[k]? = some entry ∧ c.spaces entry.1 = some s ∧
      FirstObjection c owner entry.1 s.labels entry.2 f fault

namespace Advanced

variable {α β : Type} {k : Nat} {r : Except Fault α} {c₁ : Cluster}

/-- The namespaces of later claims are as they were when one more claim is made before them. -/
theorem cons (h : Advanced c₁ owner deadline claims k r c') (hs : c.spaces space = some s)
    (hforfeited : ∀ f ∈ features, Forfeited c owner s.labels f) (hpeers : c₁.dynakubes = c.dynakubes)
    (hkept : ∀ entry ∈ claims, c₁.spaces entry.1 = c.spaces entry.1)
    (hdone : c₁.views = (Step.claim space features).apply owner c.views) :
    Advanced c owner deadline ((space, features) :: claims) (k + 1) r c' where
  le := Nat.succ_le_succ h.le
  views := by
    rw [h.views, hdone]
    rfl
  forfeited := by
    intro entry hentry t ht f hf
    rcases List.mem_cons.mp hentry with rfl | hentry
    · cases hs.symm.trans ht
      exact hforfeited f hf
    · rw [← hkept entry (List.mem_of_mem_take hentry)] at ht
      exact (h.forfeited entry hentry t ht f hf).congr hpeers.symm fun _ => rfl
  ok v hr := congrArg Nat.succ (h.ok v hr)
  error fault hr := by
    refine (h.error fault hr).imp_right ?_
    rintro ⟨entry, t, f, hentry, ht, hfirst⟩
    rw [hkept entry (List.mem_of_getElem? hentry)] at ht
    exact ⟨entry, t, f, hentry, ht, hfirst.congr hpeers.symm fun _ => rfl⟩

/-- It does not matter what is returned. -/
theorem map (g : α → β) (h : Advanced c owner deadline claims k r c') :
    Advanced c owner deadline claims k (r.map g) c' where
  le := h.le
  views := h.views
  forfeited := h.forfeited
  ok v hv := by
    cases r with
    | error fault => cases hv
    | ok w => exact h.ok w rfl
  error fault hf := by
    cases r with
    | error fault' =>
      cases hf
      exact h.error fault rfl
    | ok w => cases hf

end Advanced

theorem claimAll_objects {r : Except Fault ((List Claim × List Claim) × Memory)} (hr : Recalls c st)
    (hdistinct : claims.Pairwise fun a b => a.1 ≠ b.1) (hop : ∀ entry ∈ claims, entry.1 ≠ m.operatorNamespace)
    (hs : ∀ entry ∈ claims, ∃ s, c.spaces entry.1 = some s)
    (h : Runs .calm ((m.claimAll self deadline claims).run st).run c tr r c') :
    ∃ k, Advanced c self deadline claims k r c' := by
  induction claims generalizing c c' st tr r with
  | nil =>
    obtain ⟨-, rfl, rfl⟩ := Attempt.runs_state_pure.mp h
    exact ⟨0, Nat.le_refl 0, rfl, nofun, fun _ _ => rfl, by rintro fault ⟨⟩⟩
  | cons entry rest ih =>
    obtain ⟨space, features⟩ := entry
    obtain ⟨hlater, hdistinct⟩ := List.pairwise_cons.mp hdistinct
    obtain ⟨s, hspace⟩ := hs _ List.mem_cons_self
    rcases claimAll_cons_runs h with ⟨fault, rfl, hcheck⟩ | ⟨_, c₁, _, -, hcheck, hone⟩
    · refine ⟨0, Nat.zero_le _, by rw [checkDeadline_calm hcheck]; rfl, nofun, by rintro v ⟨⟩, ?_⟩
      rintro _ ⟨⟩
      exact .inl (checkDeadline_expires hcheck)
    obtain rfl := checkDeadline_calm hcheck
    have hviews : c₁.views space ≠ none := by
      rw [Cluster.views_eq hspace]
      exact Option.some_ne_none _
    rcases hone with ⟨fault, rfl, hclaim⟩ | ⟨_, v, st₁, c₂, _, r', -, hclaim, hall, rfl⟩
    · have hsame := ((claimOne_alone Interference.calm_solitary hviews hclaim).1 _ rfl).1
      refine ⟨0, Nat.zero_le _, Cluster.views_congr hsame, nofun, by rintro v ⟨⟩, ?_⟩
      rintro _ ⟨⟩
      rcases claimOne_objects hspace hr (hop _ List.mem_cons_self) hclaim with ⟨_, hfault, hhalted⟩ | ⟨-, _, hok, -⟩
      · cases hfault
        exact hhalted.imp_right fun ⟨f, hfirst⟩ => ⟨_, s, f, rfl, hspace, hfirst⟩
      · cases hok
    rcases claimOne_objects hspace hr (hop _ List.mem_cons_self) hclaim with ⟨_, hfault, -⟩ |
      ⟨hforfeited, _, hok, hrecalls, hkept⟩
    · cases hfault
    cases hok
    have hdone : c₂.views = (Step.claim space features).apply self c₁.views :=
      (claimOne_alone Interference.calm_solitary hviews hclaim).2 _ rfl
    have hpeers : c₂.dynakubes = c₁.dynakubes := hclaim.dynakubes_eq
    have hkept : ∀ other ∈ rest, c₂.spaces other.1 = c₁.spaces other.1 := fun other hother =>
      hkept _ (hlater other hother).symm
    have hs₂ : ∀ other ∈ rest, ∃ s, c₂.spaces other.1 = some s := fun other hother => by
      rw [hkept other hother]
      exact hs other (List.mem_cons_of_mem _ hother)
    obtain ⟨k, hadvanced⟩ := ih (hrecalls.congr hpeers) hdistinct
      (fun other hother => hop other (List.mem_cons_of_mem _ hother)) hs₂ hall
    exact ⟨k + 1, (hadvanced.cons hspace hforfeited hpeers hkept hdone).map _⟩

end Mapper
end NamespaceOwnership
