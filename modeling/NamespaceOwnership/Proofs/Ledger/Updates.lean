import NamespaceOwnership.Proofs.Ledger.Changes
import NamespaceOwnership.Proofs.Ledger.Attempts
import NamespaceOwnership.Proofs.Outcome

/-!
# Updates in the calm

In the calm the first attempt of an update ends it: nobody else can make its patch outdated. What the namespace
has then is what the change worked out (`Cluster.Updated`), whether a patch was needed for it or not.
-/
namespace NamespaceOwnership

open Session (Runs)

/-- One namespace has been given new labels and annotations, and all else is as it was. -/
structure Cluster.Updated (c : Cluster) (space : String) (new : Labels × Annotations) (c' : Cluster) : Prop where
  dynakubes : c'.dynakubes = c.dynakubes
  others : ∀ other, other ≠ space → c'.spaces other = c.spaces other
  self : ∃ s, c'.spaces space = some s ∧ (∀ key, TextMap.get? s.labels key = TextMap.get? new.1 key) ∧
    ∀ key, TextMap.get? s.annotations key = TextMap.get? new.2 key

namespace Ledger

variable {σ : Type} {c c' : Cluster} {tr : List Event} {space operation : String}
  {deadline : Option Int} {change : Change σ} {st : σ} {s : Space}

theorem updated_of_unchanged {new : Labels × Annotations} (hs : c.spaces space = some s)
    (h : unchanged (s.record space) new = true) : c.Updated space new c := by
  obtain ⟨hlabels, hannotations⟩ := Bool.and_eq_true_iff.mp h
  refine ⟨rfl, fun _ _ => rfl, s, hs, fun key => ?_, fun key => ?_⟩
  · exact ((TextMap.same_iff _ _).mp hlabels key).symm
  · exact ((TextMap.same_iff _ _).mp hannotations key).symm

theorem updated_put (new : Labels × Annotations) (version : String) :
    c.Updated space new (c.put space ⟨new.1, new.2, version⟩) :=
  ⟨rfl, fun _ hother => c.put_spaces_of_ne _ hother, _, c.put_spaces_self space _, fun _ => rfl, fun _ => rfl⟩

/-- An operation goes on as long as the deadline does not pass. -/
theorem checkDeadline_yields (deadline : Option Int) (operation : String) :
    (checkDeadline deadline operation).Yields (.meeting deadline) c fun _ c' => c' = c := by
  intro tr r c' hrun hpace
  rcases checkDeadline_runs hrun with ⟨-, -, rfl, rfl⟩ | ⟨limit, time, hsome, hm, -, rfl, rfl⟩
  · exact ⟨(), rfl, rfl⟩
  · obtain rfl : c = c' := hm
    have htime : time < limit := hpace limit hsome _ (List.mem_singleton_self _) time rfl
    exact ⟨(), if_neg (not_le.mpr htime), rfl⟩

/-- The deadline is looked at, and nothing else happens. -/
theorem checkDeadline_calm {r : Except Fault Unit}
    (h : Runs .calm (checkDeadline deadline operation).run c tr r c') : c' = c := by
  rcases checkDeadline_runs h with ⟨-, -, -, rfl⟩ | ⟨_, _, _, hm, -⟩
  · rfl
  · exact hm.symm

theorem not_unread {failure : CallFailure} (hs : c.spaces space = some s) :
    ¬Interference.calm.fails c (.readNamespace space) failure := by
  rintro ⟨hnone, -⟩
  rw [hs] at hnone
  cases hnone

/-- A patch at the present version is not refused. -/
theorem not_refused {new : Labels × Annotations} {failure : CallFailure} (hs : c.spaces space = some s) :
    ¬Interference.calm.fails c (updateCall space s new) failure := by
  rintro (⟨hnone, -⟩ | ⟨t, pin, ht, hpin, hne, -⟩)
  · rw [hs] at hnone
    cases hnone
  · cases hs.symm.trans ht
    cases hpin
    exact hne rfl

/-- A namespace is read as it is. -/
theorem Reads.calm {t : Space} (h : Reads .calm space operation deadline c tr t c') :
    c' = c ∧ c.spaces space = some t := by
  obtain ⟨checked, moved, held, -⟩ := h
  obtain rfl : _ = _ := moved
  obtain rfl := checkDeadline_calm checked
  exact ⟨rfl, held⟩

/-- What becomes of an update in the calm if its change leaves the cluster alone. -/
inductive Completed (space operation : String) (deadline : Option Int) (change : Change σ) (st : σ)
    (s : Space) (c : Cluster) : List Event → Except Fault (Bool × σ) → Cluster → Prop where
  | expired {tr : List Event} {fault : Fault} {c' : Cluster}
      (checked : Runs .calm (checkDeadline deadline operation).run c tr (.error fault) c') :
      Completed space operation deadline change st s c tr (.error fault) c'
  | objected {tr₁ tr₂ : List Event} {fault : Fault}
      (read : Reads .calm space operation deadline c tr₁ s c)
      (changed : Runs .calm ((change s.labels s.annotations).run st).run c tr₂ (.error fault) c) :
      Completed space operation deadline change st s c (tr₁ ++ tr₂) (.error fault) c
  | idle {tr₁ tr₂ : List Event} {new : Labels × Annotations} {st₁ : σ}
      (read : Reads .calm space operation deadline c tr₁ s c)
      (changed : Runs .calm ((change s.labels s.annotations).run st).run c tr₂ (.ok (new, st₁)) c)
      (same : unchanged (s.record space) new = true) :
      Completed space operation deadline change st s c (tr₁ ++ tr₂) (.ok (false, st₁)) c
  | written {tr₁ tr₂ tr₃ : List Event} {new : Labels × Annotations} {st₁ : σ} {version : String}
      (read : Reads .calm space operation deadline c tr₁ s c)
      (changed : Runs .calm ((change s.labels s.annotations).run st).run c tr₂ (.ok (new, st₁)) c)
      (differs : unchanged (s.record space) new = false) :
      Completed space operation deadline change st s c (tr₁ ++ tr₂ ++ tr₃) (.ok (true, st₁))
        (c.put space ⟨new.1, new.2, version⟩)

/-- In the calm no attempt is outdated, so the first one ends the update. -/
theorem modify_completed {l : Ledger} {left : Nat} {r : Except Fault (Bool × σ)} (hleft : 0 < left)
    (hs : c.spaces space = some s)
    (hstill : ∀ tr v c', Runs .calm ((change s.labels s.annotations).run st).run c tr v c' → c' = c)
    (h : Runs .calm ((l.modify space operation deadline change left).run st).run c tr r c') :
    Completed space operation deadline change st s c tr r c' := by
  obtain ⟨k, rfl⟩ := Nat.exists_eq_add_one.mpr hleft
  have hplanned : ∀ {tr t new st₁ c₁}, Plans .calm space operation deadline change st c tr t new st₁ c₁ →
      t = s ∧ c₁ = c ∧ ∃ tr₁ tr₂, tr = tr₁ ++ tr₂ ∧ Reads .calm space operation deadline c tr₁ s c ∧
        Runs .calm ((change s.labels s.annotations).run st).run c tr₂ (.ok (new, st₁)) c := by
    rintro _ t new st₁ c₁ ⟨read, changed⟩
    obtain ⟨rfl, ht⟩ := read.calm
    cases hs.symm.trans ht
    obtain rfl := hstill _ _ _ changed
    exact ⟨rfl, rfl, _, _, rfl, read, changed⟩
  rcases modify_runs_succ h with hover | ⟨tr₁, st₁, c₁, tr₂, rfl, hlost, -⟩
  · cases hover with
    | expired checked => exact .expired checked
    | gone checked moved refused =>
      obtain rfl : _ = _ := moved
      exact absurd refused (not_unread (checkDeadline_calm checked ▸ hs))
    | unread checked moved refused =>
      obtain rfl : _ = _ := moved
      exact absurd refused (not_unread (checkDeadline_calm checked ▸ hs))
    | objected read changed =>
      obtain ⟨rfl, ht⟩ := read.calm
      cases hs.symm.trans ht
      obtain rfl := hstill _ _ _ changed
      exact .objected read changed
    | idle planned same =>
      obtain ⟨rfl, rfl, tr₁, tr₂, rfl, read, changed⟩ := hplanned planned
      exact .idle read changed same
    | written planned differs moved =>
      obtain rfl : _ = _ := moved
      obtain ⟨rfl, rfl, tr₁, tr₂, rfl, read, changed⟩ := hplanned planned
      exact .written read changed differs
    | vanished planned differs moved refused =>
      obtain rfl : _ = _ := moved
      obtain ⟨rfl, rfl, -⟩ := hplanned planned
      exact absurd refused (not_refused hs)
    | refused planned differs moved refused =>
      obtain rfl : _ = _ := moved
      obtain ⟨rfl, rfl, -⟩ := hplanned planned
      exact absurd refused (not_refused hs)
  · cases hlost with
    | lost planned differs moved refused =>
      obtain rfl : _ = _ := moved
      obtain ⟨rfl, rfl, -⟩ := hplanned planned
      exact absurd refused (not_refused hs)

/-- An update before the deadline gives the namespace what its change works out. -/
theorem modify_yields {l : Ledger} (post : Labels × Annotations → σ → Prop) (hs : c.spaces space = some s)
    (hchange : Attempt.Yields .any c ((change s.labels s.annotations).run st)
      fun p c' => post p.1 p.2 ∧ c' = c) :
    Attempt.Yields (.meeting deadline) c
      ((l.modify space operation deadline change l.attempts).run st)
      fun p c' => ∃ new, post new p.2 ∧ c.Updated space new c' := by
  intro tr r c' hrun hpace
  have hworks : ∀ tr v c', Runs .calm ((change s.labels s.annotations).run st).run c tr v c' →
      ∃ p, v = .ok p ∧ post p.1 p.2 ∧ c' = c := fun _ _ _ hchanged => hchange _ _ _ hchanged trivial
  have hstill : ∀ tr v c', Runs .calm ((change s.labels s.annotations).run st).run c tr v c' → c' = c := by
    intro tr v c' hchanged
    obtain ⟨-, -, -, hc⟩ := hworks _ _ _ hchanged
    exact hc
  cases modify_completed l.attempts_pos hs hstill hrun with
  | expired checked =>
    obtain ⟨_, hok, -⟩ := checkDeadline_yields deadline operation _ _ _ checked hpace
    cases hok
  | objected read changed =>
    obtain ⟨_, hok, -⟩ := hworks _ _ _ changed
    cases hok
  | idle read changed same =>
    obtain ⟨_, hok, hpost, -⟩ := hworks _ _ _ changed
    cases hok
    exact ⟨_, rfl, _, hpost, updated_of_unchanged hs same⟩
  | written read changed differs =>
    obtain ⟨_, hok, hpost, -⟩ := hworks _ _ _ changed
    cases hok
    exact ⟨_, rfl, _, hpost, updated_put _ _⟩

/-- A release leaves the labels without that of the feature if it names the owner. -/
theorem remove_yields {l : Ledger} {f : Feature} {owner : String} (hs : c.spaces space = some s) :
    Attempt.Yields (.meeting deadline) c (l.remove space f (some owner) deadline)
      fun _ c' => c.Updated space (released f (some owner) s.labels s.annotations) c' := by
  have hchange : Attempt.Yields .any c ((release space f (some owner) s.labels s.annotations).run ())
      fun p c' => p.1 = released f (some owner) s.labels s.annotations ∧ c' = c := by
    intro tr r c' hrun _
    obtain ⟨rfl, rfl, -⟩ := release_runs hrun
    exact ⟨_, rfl, rfl, rfl⟩
  refine (Attempt.yields_state_forget (modify_yields (fun new _ => new = released f (some owner) s.labels
    s.annotations) hs hchange)).mono fun a c' h => ?_
  obtain ⟨-, _, rfl, hupdated⟩ := h
  exact hupdated

/-- A claim leaves the labels with those of its features, if the guard passes it. -/
theorem write_yields {l : Ledger} {features : List Feature} {owner : String} {guard : Guard σ}
    {post : σ → Prop} (hs : c.spaces space = some s)
    (hguard : Attempt.Yields .any c ((consult guard s.labels features).run st)
      fun p c' => post p.2 ∧ c' = c) :
    Attempt.Yields (.meeting deadline) c ((l.write space features owner (some guard) deadline).run st)
      fun p c' => post p.2 ∧
        c.Updated space (claimed owner features s.labels, marked s.annotations) c' := by
  have hchange : Attempt.Yields .any c
      ((claim features owner (some guard) s.labels s.annotations).run st)
      fun p c' => (p.1 = (claimed owner features s.labels, marked s.annotations) ∧ post p.2) ∧ c' = c :=
    Attempt.yields_state_bind hguard fun a st₁ c₁ h => .pure ⟨⟨rfl, h.1⟩, h.2⟩
  refine (modify_yields (fun new st₁ => new = (claimed owner features s.labels, marked s.annotations) ∧
    post st₁) hs hchange).mono fun a c' h => ?_
  obtain ⟨_, ⟨rfl, hpost⟩, hupdated⟩ := h
  exact ⟨hpost, hupdated⟩

theorem checkDeadline_idle (deadline : Option Int) (operation : String) :
    (checkDeadline deadline operation).run.Idle c :=
  (checkDeadline_within deadline operation).idle fun request h => by rw [h]; rfl

/-- Reading a namespace is idle. -/
theorem Reads.idle {t : Space} (h : Reads .calm space operation deadline c tr t c') :
    ∀ x, .asked x ∈ tr → x.request.isPatch = false := by
  obtain ⟨checked, -, -, -⟩ := h
  intro x hx
  rcases List.mem_append.mp hx with hx | hx
  · exact (checkDeadline_idle deadline operation _ _ _ checked).2 x hx
  · obtain rfl : x = _ := by simpa using hx
    rfl

/-- An update whose change has nothing to do is idle, whatever becomes of it. -/
theorem modify_idle {l : Ledger} (hs : c.spaces space = some s)
    (hidle : ((change s.labels s.annotations).run st).run.Idle c)
    (hsame : ∀ tr new st' c', Runs .calm ((change s.labels s.annotations).run st).run c tr (.ok (new, st')) c' →
      unchanged (s.record space) new = true) :
    ((l.modify space operation deadline change l.attempts).run st).run.Idle c := by
  intro tr r c' hrun
  have hasked : ∀ {tr₁ tr₂ v}, Reads .calm space operation deadline c tr₁ s c →
      Runs .calm ((change s.labels s.annotations).run st).run c tr₂ v c →
      ∀ x, .asked x ∈ tr₁ ++ tr₂ → x.request.isPatch = false := by
    intro tr₁ tr₂ v read changed x hx
    rcases List.mem_append.mp hx with hx | hx
    · exact read.idle x hx
    · exact (hidle _ _ _ changed).2 x hx
  cases modify_completed l.attempts_pos hs (fun _ _ _ hchanged => (hidle _ _ _ hchanged).1) hrun with
  | expired checked => exact checkDeadline_idle deadline operation _ _ _ checked
  | objected read changed => exact ⟨rfl, hasked read changed⟩
  | idle read changed same => exact ⟨rfl, hasked read changed⟩
  | written read changed differs =>
    rw [hsame _ _ _ _ changed] at differs
    cases differs

end Ledger
end NamespaceOwnership
