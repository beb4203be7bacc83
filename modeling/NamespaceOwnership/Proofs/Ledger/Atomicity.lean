import NamespaceOwnership.Proofs.Ledger.Attempts
import NamespaceOwnership.Proofs.Ledger.Changes

/-!
# Updates are all or nothing

However other parties interfere, an update that returns true had exactly one patch accepted, and that patch
replaces what stood right before it by the change of it. Any other update had no patch accepted. A guard may
make calls of its own, even patches; these are not those of the update and are set apart by `Without`.
-/
namespace NamespaceOwnership

open Session (Runs)

/-- What is left of a trace when some stretches of it, each of them foreign, are taken out. -/
inductive Without (foreign : List Event → Prop) : List Event → List Event → Prop where
  | nil : Without foreign [] []
  | own (e : Event) {tr own : List Event} (rest : Without foreign tr own) :
      Without foreign (e :: tr) (e :: own)
  | skip {mid tr own : List Event} (out : foreign mid) (rest : Without foreign tr own) :
      Without foreign (mid ++ tr) own

namespace Without

variable {foreign : List Event → Prop} {tr tr' own own' : List Event}

theorem all (tr : List Event) : Without foreign tr tr := by
  induction tr with
  | nil => exact .nil
  | cons e tr ih => exact .own e ih

theorem none {mid : List Event} (out : foreign mid) : Without foreign mid [] := by
  rw [← List.append_nil mid]
  exact .skip out .nil

theorem append (h : Without foreign tr own) (h' : Without foreign tr' own') :
    Without foreign (tr ++ tr') (own ++ own') := by
  induction h with
  | nil => exact h'
  | own e _ ih => exact .own e ih
  | skip out _ ih => rw [List.append_assoc]; exact .skip out ih

theorem mono {foreign' : List Event → Prop} (h : Without foreign tr own)
    (hf : ∀ mid, foreign mid → mid = [] ∨ foreign' mid) : Without foreign' tr own := by
  induction h with
  | nil => exact .nil
  | own e _ ih => exact .own e ih
  | @skip mid tr own out _ ih =>
    rcases hf mid out with rfl | hmid
    · exact ih
    · exact .skip hmid ih

theorem accepted_eq (h : Without foreign tr own) (hq : ∀ mid, foreign mid → accepted mid = []) :
    accepted own = accepted tr := by
  induction h with
  | nil => rfl
  | @own e tr own _ ih =>
    change accepted ([e] ++ own) = accepted ([e] ++ tr)
    rw [accepted_append, accepted_append, ih]
  | @skip mid tr own out _ ih => rw [accepted_append, hq mid out, List.nil_append, ih]

end Without

/-- A namespace that stands as `s` right before the exchange has other labels and annotations right after it,
at a fresh version, and nothing else is different. -/
def Exchange.Replaces (x : Exchange) (space : String) (s : Space) (new : Labels × Annotations) : Prop :=
  x.request = .api (Ledger.updateCall space s new) ∧ x.before.spaces space = some s ∧
    ∃ version, version ∉ x.before.issued ∧ x.after = x.before.put space ⟨new.1, new.2, version⟩

theorem Exchange.Replaces.patch? {x : Exchange} {space space' : String} {s : Space}
    {new : Labels × Annotations} {patch : NamespacePatch} (h : x.Replaces space s new)
    (hx : x.patch? = some (space', patch)) : space' = space ∧ patch = ⟨some s.version, new.1, new.2⟩ := by
  obtain ⟨before, request, answer, after⟩ := x
  obtain ⟨rfl : request = _, -, -⟩ := h
  cases answer with
  | error failure => cases hx
  | ok object =>
    cases hx
    exact ⟨rfl, rfl⟩

/-- What the namespaces are after a replacement. -/
theorem Exchange.Replaces.spaces {x : Exchange} {space : String} {s : Space} {new : Labels × Annotations}
    (h : x.Replaces space s new) : ∃ version, ∀ other,
      x.after.spaces other = if other = space then some ⟨new.1, new.2, version⟩ else x.before.spaces other := by
  obtain ⟨-, -, version, -, hafter⟩ := h
  refine ⟨version, fun other => ?_⟩
  rw [hafter]
  by_cases hother : other = space
  · rw [if_pos hother, hother, Cluster.put_spaces_self]
  · rw [if_neg hother, Cluster.put_spaces_of_ne _ _ hother]

namespace Ledger

variable {σ : Type} {i : Interference} {c c' : Cluster} {tr : List Event}

/-- After an update that returns true, the last exchange is its only accepted patch, and between that patch
and the reading on which it rests there is nothing but a run of the change. Otherwise there is none. -/
def AllOrNothing (i : Interference) (space : String) (change : Change σ) (tr own : List Event) :
    Except Fault (Bool × σ) → Prop
  | .ok (true, st') => ∃ x s new pre mid st c c', accepted own = [x] ∧ x.Replaces space s new ∧
      unchanged (s.record space) new = false ∧ tr = pre ++ mid ++ [.asked x] ∧
      Runs i ((change s.labels s.annotations).run st).run c mid (.ok (new, st')) c'
  | _ => accepted own = []

theorem checkDeadline_sparing (deadline : Option Int) (operation : String) :
    (checkDeadline deadline operation).run.Within Request.Sparing :=
  (checkDeadline_within deadline operation).mono fun request h => by rw [h]; rfl

theorem checkDeadline_accepted {deadline : Option Int} {operation : String} {r : Except Fault Unit}
    (h : Runs i (checkDeadline deadline operation).run c tr r c') : accepted tr = [] :=
  accepted_eq_nil fun _ hx => h.within (checkDeadline_sparing deadline operation) hx

variable {space operation : String} {deadline : Option Int} {change : Change σ} {st : σ}

theorem Reads.accepted {s : Space} (h : Reads i space operation deadline c tr s c') :
    accepted tr = [] := by
  obtain ⟨checked, -, -, -⟩ := h
  rw [accepted_append, checkDeadline_accepted checked]
  rfl

/-- The change is set apart from the reading before it. -/
theorem Plans.without {s : Space} {new : Labels × Annotations} {st₁ : σ}
    (h : Plans i space operation deadline change st c tr s new st₁ c') :
    ∃ own, Without (Works i change) tr own ∧ NamespaceOwnership.accepted own = [] := by
  obtain ⟨read, changed⟩ := h
  have hworks : Works i change _ := ⟨_, _, _, _, _, _, changed⟩
  refine ⟨_, (Without.all _).append (.none hworks), ?_⟩
  simpa using read.accepted

/-- After a plan nothing but own events follow. -/
private theorem Plans.without_append {s : Space} {new : Labels × Annotations} {st₁ : σ}
    (h : Plans i space operation deadline change st c tr s new st₁ c') (last : List Event) :
    ∃ own, Without (Works i change) (tr ++ last) own ∧
      NamespaceOwnership.accepted own = NamespaceOwnership.accepted last := by
  obtain ⟨own, hw, ho⟩ := h.without
  exact ⟨own ++ last, hw.append (.all last), by rw [accepted_append, ho, List.nil_append]⟩

/-- One attempt is all or nothing, and an attempt whose patch was outdated is nothing. -/
theorem Attempted.allOrNothing {e : Ending σ}
    (h : Attempted i space operation deadline change st c tr e c') :
    ∃ own, Without (Works i change) tr own ∧ match e with
      | .over r => AllOrNothing i space change tr own r
      | .outdated _ => accepted own = [] := by
  cases h with
  | expired checked => exact ⟨tr, .all tr, checkDeadline_accepted checked⟩
  | gone checked =>
    refine ⟨_, .all _, ?_⟩
    change accepted (_ ++ _) = []
    rw [accepted_append, checkDeadline_accepted checked]
    rfl
  | unread checked =>
    refine ⟨_, .all _, ?_⟩
    change accepted (_ ++ _) = []
    rw [accepted_append, checkDeadline_accepted checked]
    rfl
  | objected read changed =>
    have hworks : Works i change _ := ⟨_, _, _, _, _, _, changed⟩
    exact ⟨_, (Without.all _).append (.none hworks), by simpa [AllOrNothing] using read.accepted⟩
  | idle planned => exact planned.without
  | @written tr s new st₁ c₁ c₂ object version planned differs moved held fresh =>
    obtain ⟨own, hw, ho⟩ := planned.without_append
      [.asked (.call c₂ (updateCall space s new) (.ok object) (c₂.put space ⟨new.1, new.2, version⟩))]
    obtain ⟨read, changed⟩ := planned
    exact ⟨own, hw, _, s, new, _, _, st, _, _, ho, ⟨rfl, held, version, fresh, rfl⟩, differs,
      rfl, changed⟩
  | lost planned =>
    obtain ⟨own, hw, ho⟩ := planned.without_append _
    exact ⟨own, hw, by simpa using ho⟩
  | vanished planned =>
    obtain ⟨own, hw, ho⟩ := planned.without_append _
    exact ⟨own, hw, by simpa [AllOrNothing] using ho⟩
  | refused planned =>
    obtain ⟨own, hw, ho⟩ := planned.without_append _
    exact ⟨own, hw, by simpa [AllOrNothing] using ho⟩

/-- The attempts that came to nothing do not matter for what the last one does. -/
theorem AllOrNothing.append {tr₁ own₁ own : List Event} {r : Except Fault (Bool × σ)}
    (h : AllOrNothing i space change tr own r) (h₁ : accepted own₁ = []) :
    AllOrNothing i space change (tr₁ ++ tr) (own₁ ++ own) r := by
  match r, h with
  | .ok (true, st'), ⟨x, s, new, pre, mid, st₁, c₁, c₂, hx, hrep, hnew, htr, hrun⟩ =>
    refine ⟨x, s, new, tr₁ ++ pre, mid, st₁, c₁, c₂, ?_, hrep, hnew, ?_, hrun⟩
    · rw [accepted_append, h₁, hx, List.nil_append]
    · rw [htr, List.append_assoc, List.append_assoc, List.append_assoc]
  | .ok (false, st'), h => exact (accepted_append _ _).trans (by rw [h₁, h, List.nil_append])
  | .error fault, h => exact (accepted_append _ _).trans (by rw [h₁, h, List.nil_append])

theorem Retried.without {st₁ : σ} (h : Retried i space operation deadline change st c tr st₁ c') :
    ∃ own, Without (Works i change) tr own ∧ accepted own = [] := by
  induction h with
  | none => exact ⟨[], .nil, rfl⟩
  | again first _ ih =>
    obtain ⟨own₁, hw₁, ho₁⟩ := first.allOrNothing
    obtain ⟨own₂, hw₂, ho₂⟩ := ih
    exact ⟨own₁ ++ own₂, hw₁.append hw₂, by rw [accepted_append, ho₁, ho₂, List.nil_append]⟩

/-- An update is all or nothing, however many attempts were outdated before. -/
theorem modify_allOrNothing {l : Ledger} {left : Nat} {r : Except Fault (Bool × σ)}
    (h : Runs i ((l.modify space operation deadline change left).run st).run c tr r c') :
    ∃ own, Without (Works i change) tr own ∧ AllOrNothing i space change tr own r := by
  obtain ⟨tr₁, st₁, c₁, tr₂, rfl, hretried, hend⟩ := modify_runs h
  obtain ⟨own₁, hw₁, ho₁⟩ := hretried.without
  rcases hend with hover | ⟨rfl, rfl, -⟩
  · obtain ⟨own₂, hw₂, ho₂⟩ := hover.allOrNothing
    exact ⟨own₁ ++ own₂, hw₁.append hw₂, ho₂.append ho₁⟩
  · refine ⟨own₁ ++ _, hw₁.append (.all _), ?_⟩
    change accepted (_ ++ _) = []
    rw [accepted_append, ho₁]
    rfl

/-- The guard, if there is one, was shown some features. -/
def Consults (i : Interference) (guard : Option (Guard σ)) (features : List Feature)
    (mid : List Event) : Prop :=
  ∃ g ∈ guard, ∃ labels st c r c', Runs i ((consult g labels features).run st).run c mid r c'

/-- What a claim does on its own is to consult the guard. -/
theorem Works.consults {features : List Feature} {owner : String} {guard : Option (Guard σ)}
    (h : Works i (claim features owner guard) tr) : tr = [] ∨ Consults i guard features tr := by
  obtain ⟨labels, annotations, st, c, r, c', hrun⟩ := h
  cases guard with
  | none => exact .inl (claim_runs hrun).1
  | some g =>
    obtain ⟨v, hv, -⟩ := claim_runs hrun
    exact .inr ⟨g, rfl, labels, st, c, v, c', hv⟩

/-- The new labels and annotations differ from the old ones at most in the labels of the features and in the
marker. -/
def TouchesOnly (features : List Feature) (s : Space) (new : Labels × Annotations) : Prop :=
  (∀ key, (∀ f ∈ features, key ≠ f.labelKey) → TextMap.get? new.1 key = TextMap.get? s.labels key) ∧
    ∀ key, key ≠ markerKey → TextMap.get? new.2 key = TextMap.get? s.annotations key

theorem touchesOnly_claimed (owner : String) (features : List Feature) (s : Space) :
    TouchesOnly features s (claimed owner features s.labels, marked s.annotations) := by
  refine ⟨fun key hkey => ?_, fun key hkey => get?_marked_of_ne s.annotations hkey⟩
  rw [get?_claimed, if_neg]
  rintro ⟨f, hf, rfl⟩
  exact hkey f hf rfl

theorem touchesOnly_erased (f : Feature) (s : Space) :
    TouchesOnly [f] s (TextMap.erase s.labels f.labelKey, marked s.annotations) := by
  refine ⟨fun key hkey => ?_, fun key hkey => get?_marked_of_ne s.annotations hkey⟩
  rw [TextMap.get?_erase, if_neg (hkey f (List.mem_singleton_self f))]

/-- A releasing patch is only sent where the label is there, and names the expected owner if there is one. -/
theorem released_of_changed {f : Feature} {owner : Option String} {s : Space} {space : String}
    (h : unchanged (s.record space) (released f owner s.labels s.annotations) = false) :
    ∃ present, TextMap.get? s.labels f.labelKey = some present ∧ (∀ o ∈ owner, present = o) ∧
      released f owner s.labels s.annotations =
        (TextMap.erase s.labels f.labelKey, marked s.annotations) := by
  rcases released_cases f owner s.labels s.annotations with hsame | hreleased
  · rw [hsame] at h
    exact absurd (unchanged_self (s.record space)) (by simp [h])
  · exact hreleased

theorem write_allOrNothing {l : Ledger} {features : List Feature} {owner : String}
    {guard : Option (Guard σ)} {r : Except Fault (Bool × σ)}
    (h : Runs i ((l.write space features owner guard deadline).run st).run c tr r c') :
    ∃ own, Without (Consults i guard features) tr own ∧
      AllOrNothing i space (claim features owner guard) tr own r := by
  obtain ⟨own, hw, ho⟩ := modify_allOrNothing h
  exact ⟨own, hw.mono fun mid hmid => hmid.consults, ho⟩

/-- Releasing has no events of its own that a patch could be among. -/
theorem remove_allOrNothing {l : Ledger} {f : Feature} {owner : Option String} {r : Except Fault Bool}
    (h : Runs i (l.remove space f owner deadline).run c tr r c') :
    ∃ own v, accepted own = accepted tr ∧ r = v.map Prod.fst ∧
      AllOrNothing i space (release space f owner) tr own v := by
  obtain ⟨v, hrun, rfl⟩ := Attempt.runs_state_forget.mp h
  obtain ⟨own, hw, ho⟩ := modify_allOrNothing hrun
  refine ⟨own, v, hw.accepted_eq fun mid hmid => ?_, rfl, ho⟩
  obtain ⟨labels, annotations, st, c₁, r₁, c₂, hwork⟩ := hmid
  exact (release_runs hwork).2.2.accepted_eq

/-- Whatever others do to the namespaces between any two requests, and whichever calls fail: an update that
returns true had exactly one of its patches accepted, and that patch put the change of what stood right before
it in its place, where the guard was shown every feature of just that. An update that returns false or fails
had none. -/
theorem update_atomic (l : Ledger) (space : String) (deadline : Option Int) (c c' : Cluster)
    (tr : List Event) :
    (∀ (features : List Feature) (owner : String) (guard : Option (Guard σ)) (st : σ)
      (r : Except Fault (Bool × σ)),
      Runs .any ((l.write space features owner guard deadline).run st).run c tr r c' →
        ∃ own, Without (Consults .any guard features) tr own ∧ match r with
          | .ok (true, st') => ∃ x s, accepted own = [x] ∧
              x.Replaces space s (claimed owner features s.labels, marked s.annotations) ∧
              TouchesOnly features s (claimed owner features s.labels, marked s.annotations) ∧
              ∀ g ∈ guard, ∃ pre mid st₁ c₁ c₂, tr = pre ++ mid ++ [.asked x] ∧
                Consulted .any g s.labels features st₁ c₁ mid st' c₂
          | _ => accepted own = []) ∧
      ∀ (f : Feature) (owner : Option String) (r : Except Fault Bool),
        Runs .any (l.remove space f owner deadline).run c tr r c' → match r with
          | .ok true => ∃ x s present, accepted tr = [x] ∧
              TextMap.get? s.labels f.labelKey = some present ∧ (∀ o ∈ owner, present = o) ∧
              x.Replaces space s (TextMap.erase s.labels f.labelKey, marked s.annotations) ∧
              TouchesOnly [f] s (TextMap.erase s.labels f.labelKey, marked s.annotations)
          | _ => accepted tr = [] := by
  refine ⟨fun features owner guard st r h => ?_, fun f owner r h => ?_⟩
  · obtain ⟨own, hw, ho⟩ := write_allOrNothing h
    refine ⟨own, hw, ?_⟩
    match r, ho with
    | .ok (true, st'), ⟨x, s, new, pre, mid, st₁, c₁, c₂, hx, hrep, _, htr, hrun⟩ =>
      cases guard with
      | none =>
        obtain ⟨-, hr, -⟩ := claim_runs hrun
        cases hr
        exact ⟨x, s, hx, hrep, touchesOnly_claimed _ _ _, by simp⟩
      | some g =>
        obtain ⟨v, hconsult, hv⟩ := claim_runs hrun
        cases v with
        | error fault => cases hv
        | ok p =>
          cases hv
          refine ⟨x, s, hx, hrep, touchesOnly_claimed _ _ _, fun g' hg' => ?_⟩
          cases hg'
          exact ⟨pre, mid, st₁, c₁, c₂, htr, consult_runs hconsult⟩
    | .ok (false, st'), ho => exact ho
    | .error fault, ho => exact ho
  · obtain ⟨own, v, hown, rfl, ho⟩ := remove_allOrNothing h
    rw [← hown]
    match v, ho with
    | .ok (true, st'), ⟨x, s, new, pre, mid, st₁, c₁, c₂, hx, hrep, hdiffers, htr, hrun⟩ =>
      obtain ⟨hnew, -, -⟩ := release_runs hrun
      cases hnew
      obtain ⟨present, hpresent, howner, hreleased⟩ := released_of_changed hdiffers
      rw [hreleased] at hrep
      exact ⟨x, s, present, hx, hpresent, howner, hrep, touchesOnly_erased f s⟩
    | .ok (false, st'), ho => exact ho
    | .error fault, ho => exact ho

section Conflict

/-- The namespace of the example, with one label of a team and perhaps that of the feature. -/
private def team (labels : List (String × String)) (annotations : Annotations) (version : String) : Space :=
  ⟨⟨labels⟩, annotations, version⟩

private def before : Cluster := Cluster.blank.put "n" (team [("team", "a")] .empty "1")

/-- Another writer has changed the label of the team. -/
private def between : Cluster := before.put "n" (team [("team", "b")] .empty "2")

private def won : Labels × Annotations :=
  (claimed "d" [.codeModules] ⟨[("team", "b")]⟩, marked .empty)

private def claimedOnce : Cluster := between.put "n" ⟨won.1, won.2, "3"⟩

private def droppedAgain : Cluster :=
  claimedOnce.put "n" ⟨TextMap.erase won.1 Feature.codeModules.labelKey, marked won.2, "4"⟩

private def lenient : Guard Unit := fun _ _ _ => pure ()

private def twice : Ledger := ⟨2, Nat.two_pos⟩

private def shown (s : Space) : Except CallFailure (Option NamespaceObject) :=
  .ok (some ⟨some "n", some s.labels, some s.annotations, some s.version⟩)

private theorem stays (c : Cluster) : Interference.any.moves c c := .refl

private theorem reads {c : Cluster} {s : Space} (h : c.spaces "n" = some s) :
    Interference.any.Answers c (.api (.readNamespace "n")) (shown s) c := ⟨rfl, s, h, rfl⟩

private theorem writes {c : Cluster} {s : Space} {version : String} (new : Labels × Annotations)
    (h : c.spaces "n" = some s) (fresh : version ∉ c.issued) :
    Interference.any.Answers c (.api (updateCall "n" s new)) (.ok none)
      (c.put "n" ⟨new.1, new.2, version⟩) :=
  ⟨s, version, h, by simp, fresh, rfl⟩

private theorem loses (s : Space) (new : Labels × Annotations) :
    Interference.any.Answers between (.api (updateCall "n" s new)) (.error (.refused (some 409) none))
      between := ⟨trivial, rfl⟩

/-- A claim that loses the race once, and a release. -/
theorem update_atomic_conflict :
    (∃ tr, Runs .any ((twice.write "n" [.codeModules] "d" (some lenient) none).run ()).run before tr
        (.ok (true, ())) claimedOnce ∧
      ∃ own x, Without (Consults .any (some lenient) [.codeModules]) tr own ∧ accepted own = [x]) ∧
      ∃ tr x, Runs .any (twice.remove "n" .codeModules (some "d") none).run claimedOnce tr (.ok true)
        droppedAgain ∧ accepted tr = [x] := by
  have hmoved : Interference.any.moves before between :=
    .single (.put "n" _ (by simp [before, Cluster.put, Cluster.blank, team]))
  have hwrite : ∃ tr, Runs .any ((twice.write "n" [.codeModules] "d" (some lenient) none).run ()).run
      before tr (.ok (true, ())) claimedOnce :=
    ⟨_, .ask (stays before) (reads rfl) (.tell (.ask hmoved (loses (team [("team", "a")] .empty "1") _)
      (.tell (.tell (.ask (stays between) (reads rfl) (.tell (.ask (stays between)
        (writes won rfl (by simp [between, before, Cluster.put, Cluster.blank, team])) (.done _ _))))))))⟩
  have hremove : ∃ tr, Runs .any (twice.remove "n" .codeModules (some "d") none).run claimedOnce tr
      (.ok true) droppedAgain :=
    ⟨_, .ask (stays claimedOnce) (reads rfl) (.ask (stays claimedOnce)
      (writes (TextMap.erase won.1 Feature.codeModules.labelKey, marked won.2) rfl
        (by simp [claimedOnce, between, before, Cluster.put, Cluster.blank, team])) (.done _ _))⟩
  obtain ⟨tr, hw⟩ := hwrite
  obtain ⟨tr', hr⟩ := hremove
  obtain ⟨own, hown, x, s, hx, -⟩ := (update_atomic twice "n" none before claimedOnce tr).1 _ _ _ _ _ hw
  obtain ⟨y, t, present, hy, -⟩ :=
    (update_atomic twice "n" none claimedOnce droppedAgain tr' (σ := Unit)).2 _ _ _ hr
  exact ⟨⟨tr, hw, own, x, hown, hx⟩, tr', y, hr, hy⟩

end Conflict

end Ledger
end NamespaceOwnership
