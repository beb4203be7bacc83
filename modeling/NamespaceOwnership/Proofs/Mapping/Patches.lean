import NamespaceOwnership.Proofs.Ledger.Atomicity
import NamespaceOwnership.Proofs.Mapping.Guard
import NamespaceOwnership.Proofs.Mapping.Selection

/-!
# The patches of a mapping

Every patch that a mapping gets accepted either drops one of its stale claims or claims a selected namespace
for features that are free in the sense of the guard, as judged between the last reading of that namespace and
the patch (`Mapper.Ground`). A mapping that returns has claimed every selected namespace or missed it.
-/
namespace NamespaceOwnership

open Session (Runs)

/-- A request that a mapping may make, or an unmapping. -/
inductive Request.OfMapping : Request → Prop where
  | clock : OfMapping .clock
  | reading (space : String) : OfMapping (.api (.readNamespace space))
  | listing (selector : Option String) : OfMapping (.api (.listNamespaces selector))
  | patch (space : String) (patch : NamespacePatch) : OfMapping (.api (.patchNamespace space patch))
  | dynakube (name : Value) : OfMapping (.api (.getDynaKube name))

theorem Request.OfMapping.of_asks {space : String} {request : Request} (h : Ledger.Asks space request) :
    request.OfMapping := by
  cases h with
  | clock => exact .clock
  | read => exact .reading space
  | patch p => exact .patch space p

namespace Mapper

open Ledger Memory

variable {i : Interference} {c c' : Cluster} {tr past : List Event} {st st' : Memory}

/-- The last thing that was read of any namespace is this one, and nothing was patched since. -/
def Based (space : String) (s : Space) (past : List Event) : Prop :=
  ∃ old c object window,
    past = old ++ .asked (.call c (.readNamespace space) (.ok object) c) :: window ∧
      c.spaces space = some s ∧
      ∀ x, .asked x ∈ window → x.request.IsReading

inductive Ground (self : String) (stale : List Claim) (claims : List (String × List Feature))
    (past : List Event) (x : Exchange) : Prop where
  | dropped {space : String} {f : Feature} {s : Space} (mem : (space, f) ∈ stale)
      (held : TextMap.get? s.labels f.labelKey = some self)
      (replaces : x.Replaces space s (TextMap.erase s.labels f.labelKey, marked s.annotations))
  | claimed {space : String} {features : List Feature} {s : Space} {st : Memory}
      (mem : (space, features) ∈ claims)
      (replaces : x.Replaces space s (Ledger.claimed self features s.labels, marked s.annotations))
      (based : Based space s past) (known : st.Known past)
      (free : ∀ f ∈ features, Free self s.labels st f)

/-- A namespace has the labels of the features at some moment, or it was missed. -/
def Claimed (i : Interference) (self space : String) (features : List Feature) (tr : List Event) : Prop :=
  ∃ x, .asked x ∈ tr ∧
    ((∃ s, x.after.spaces space = some s ∧
        ∀ f ∈ features, TextMap.get? s.labels f.labelKey = some self) ∨
      ∃ call failure, i.fails x.after call failure ∧ failure.status? = some 404 ∧
        (call = .readNamespace space ∨ ∃ patch, call = .patchNamespace space patch))

theorem Claimed.append_left {self space : String} {features : List Feature} {tr₁ tr₂ : List Event}
    (h : Claimed i self space features tr₂) : Claimed i self space features (tr₁ ++ tr₂) := by
  obtain ⟨x, hx, h⟩ := h
  exact ⟨x, List.mem_append_right _ hx, h⟩

theorem Claimed.append_right {self space : String} {features : List Feature} {tr₁ tr₂ : List Event}
    (h : Claimed i self space features tr₁) : Claimed i self space features (tr₁ ++ tr₂) := by
  obtain ⟨x, hx, h⟩ := h
  exact ⟨x, List.mem_append_left _ hx, h⟩

theorem readings_of_asks {space : String} (h : ∀ x, .asked x ∈ tr → Asks space x.request)
    (name : String) : readings name tr = [] := by
  refine readings_eq_nil fun x hx hreq => ?_
  have hasks := h x hx
  rw [hreq] at hasks
  cases hasks

theorem checkDeadline_readings {deadline : Option Int} {operation : String} {r : Except Fault Unit}
    (h : Runs i (checkDeadline deadline operation).run c tr r c') (name : String) :
    readings name tr = [] := by
  refine readings_eq_nil fun x hx => ?_
  rw [h.within (checkDeadline_within deadline operation) hx]
  exact Request.noConfusion

section Claim

variable {m : Mapper} {self space operation : String} {features : List Feature} {deadline : Option Int}

/-- The change of a claim that is guarded by the mapping. -/
def guarded (m : Mapper) (self space : String) (features : List Feature) : Change Memory :=
  claim features self (some (m.judge self space))

/-- Once a claim is worked out, the guard knows every owner that it replaces. -/
theorem plans_learn {s : Space} {new : Labels × Annotations} (hi : i.Truthful)
    (hs : space ≠ m.operatorNamespace) (hk : st.Known past)
    (h : Plans i space operation deadline (guarded m self space features) st c tr s new st' c') :
    new = (Ledger.claimed self features s.labels, marked s.annotations) ∧
      st'.Known (past ++ tr) ∧ Based space s (past ++ tr) ∧ ∀ f ∈ features, Free self s.labels st' f := by
  obtain @⟨tr₁, tr₂, _, _, _, c₁, _, read, changed⟩ := h
  obtain ⟨v, hconsult, hv⟩ := claim_runs changed
  cases v with
  | error fault => cases hv
  | ok p =>
    cases hv
    have hknown : st.Known (past ++ tr₁) :=
      hk.of_readings_nil (readings_of_asks fun x hx => read.asks hx)
    obtain ⟨hlearns, hfree⟩ := consulted_learns hi hknown hs (consult_runs hconsult)
    refine ⟨rfl, by simpa using hlearns.known, ?_, hfree⟩
    obtain @⟨tr₀, _, _, _, object, checked, moved, held, shown⟩ := read
    exact ⟨past ++ tr₀, c₁, object, tr₂, by simp, held, fun x hx =>
      hconsult.within (consult_within m self space s.labels features st) hx⟩

/-- Neither reading the namespace nor asking the guard patches anything. -/
theorem guarded_within (labels : Labels) (annotations : Annotations) (st : Memory) :
    ((guarded m self space features labels annotations).run st).run.Within Request.IsReading :=
  Attempt.within_state_bind (consult_within m self space labels features st) fun _ _ => trivial

theorem accepted_of_guarded {labels : Labels} {annotations : Annotations}
    {r : Except Fault ((Labels × Annotations) × Memory)}
    (h : Runs i ((guarded m self space features labels annotations).run st).run c tr r c') :
    accepted tr = [] := by
  refine accepted_eq_nil fun x hx => ?_
  obtain ⟨name, hname⟩ := h.within (guarded_within labels annotations st) hx
  rw [hname]
  rfl

theorem plans_accepted {s : Space} {new : Labels × Annotations}
    (h : Plans i space operation deadline (guarded m self space features) st c tr s new st' c') :
    accepted tr = [] := by
  obtain ⟨read, changed⟩ := h
  rw [accepted_append, read.accepted, accepted_of_guarded changed]
  rfl

private theorem Known.append {own : List Event} (h : st.Known (past ++ tr))
    (ho : ∀ name, readings name own = []) : st.Known (past ++ (tr ++ own)) := by
  rw [← List.append_assoc]
  exact h.of_readings_nil ho

private theorem accepted_append_nil {own : List Event} (h : accepted tr = []) (ho : accepted own = []) :
    accepted (tr ++ own) = [] := by rw [accepted_append, h, ho, List.append_nil]

/-- What the events of an attempt at a claim amount to. -/
theorem attempted_grounded {stale : List Claim} {claims : List (String × List Feature)}
    {e : Ending Memory} (hi : i.Truthful) (hs : space ≠ m.operatorNamespace) (hk : st.Known past)
    (hmem : (space, features) ∈ claims)
    (h : Attempted i space operation deadline (guarded m self space features) st c tr e c') :
    Grounded (Ground self stale claims) past tr ∧ match e with
      | .over (.ok (_, st')) => st'.Known (past ++ tr) ∧ Claimed i self space features tr
      | .over (.error _) => True
      | .outdated st' => st'.Known (past ++ tr) := by
  cases h with
  | expired checked => exact ⟨.of_accepted_nil (checkDeadline_accepted checked), trivial⟩
  | @gone tr₀ c₀ c₁ failure text checked moved refused status =>
    refine ⟨.of_accepted_nil (accepted_append_nil (checkDeadline_accepted checked) rfl),
      Known.append (hk.of_readings_nil (checkDeadline_readings checked)) fun _ => rfl, ?_⟩
    exact ⟨.call c' (.readNamespace space) (.error failure) c', by simp,
      .inr ⟨_, failure, refused, status, .inl rfl⟩⟩
  | unread checked =>
    exact ⟨.of_accepted_nil (accepted_append_nil (checkDeadline_accepted checked) rfl), trivial⟩
  | objected read changed =>
    exact ⟨.of_accepted_nil (accepted_append_nil read.accepted (accepted_of_guarded changed)), trivial⟩
  | @idle _ s new _ _ planned same =>
    obtain ⟨rfl, hknown, -, -⟩ := plans_learn hi hs hk planned
    refine ⟨.of_accepted_nil (plans_accepted planned), hknown, ?_⟩
    obtain ⟨⟨checked, moved, held, shown⟩, changed⟩ := planned
    refine ⟨_, List.mem_append_left _ (List.mem_append_right _ (List.mem_singleton_self _)),
      .inl ⟨s, held, fun f hf => ?_⟩⟩
    have hsame : TextMap.same _ _ = true := (Bool.and_eq_true_iff.mp same).1
    rw [← Space.record_labels space s, ← (TextMap.same_iff _ _).mp hsame, get?_claimed,
      if_pos ⟨f, hf, rfl⟩]
  | @written tr s new st₁ c₁ c₂ object version planned differs moved held fresh =>
    obtain ⟨rfl, hknown, hbased, hfree⟩ := plans_learn hi hs hk planned
    refine ⟨Grounded.append.mpr ⟨.of_accepted_nil (plans_accepted planned), fun x hx => ?_, trivial⟩,
      Known.append hknown fun _ => rfl, ?_⟩
    · cases hx
      exact .claimed hmem ⟨rfl, held, version, fresh, rfl⟩ hbased hknown hfree
    · refine ⟨_, List.mem_append_right _ (List.mem_singleton_self _), .inl ⟨_, Cluster.put_spaces_self _ _ _,
        fun f hf => ?_⟩⟩
      rw [get?_claimed, if_pos ⟨f, hf, rfl⟩]
  | lost planned =>
    obtain ⟨-, hknown, -, -⟩ := plans_learn hi hs hk planned
    exact ⟨.of_accepted_nil (accepted_append_nil (plans_accepted planned) rfl),
      Known.append hknown fun _ => rfl⟩
  | @vanished _ s new _ _ _ failure _ planned _ _ refused status =>
    obtain ⟨-, hknown, -, -⟩ := plans_learn hi hs hk planned
    refine ⟨.of_accepted_nil (accepted_append_nil (plans_accepted planned) rfl),
      Known.append hknown fun _ => rfl, ?_⟩
    exact ⟨.call c' (updateCall space s new) (.error failure) c', by simp,
      .inr ⟨_, failure, refused, status, .inr ⟨_, rfl⟩⟩⟩
  | refused planned =>
    exact ⟨.of_accepted_nil (accepted_append_nil (plans_accepted planned) rfl), trivial⟩

/-- What a number of outdated attempts at a claim amounts to. -/
theorem retried_grounded {stale : List Claim} {claims : List (String × List Feature)}
    (hi : i.Truthful) (hs : space ≠ m.operatorNamespace) (hk : st.Known past)
    (hmem : (space, features) ∈ claims)
    (h : Retried i space operation deadline (guarded m self space features) st c tr st' c') :
    Grounded (Ground self stale claims) past tr ∧ st'.Known (past ++ tr) := by
  induction h generalizing past with
  | none st c => exact ⟨trivial, by rwa [List.append_nil]⟩
  | again first _ ih =>
    obtain ⟨hfirst, hknown⟩ := attempted_grounded hi hs hk hmem first
    obtain ⟨hrest, hlast⟩ := ih hknown
    exact ⟨Grounded.append.mpr ⟨hfirst, hrest⟩, by rwa [← List.append_assoc]⟩

theorem write_grounded {stale : List Claim} {claims : List (String × List Feature)}
    {r : Except Fault (Bool × Memory)} (hi : i.Truthful) (hs : space ≠ m.operatorNamespace)
    (hk : st.Known past) (hmem : (space, features) ∈ claims)
    (h : Runs i ((m.ledger.write space features self (some (m.judge self space)) deadline).run st).run
      c tr r c') :
    Grounded (Ground self stale claims) past tr ∧ ∀ written st', r = .ok (written, st') →
      st'.Known (past ++ tr) ∧ Claimed i self space features tr := by
  obtain ⟨tr₁, st₁, c₁, tr₂, rfl, hretried, hend⟩ := modify_runs h
  obtain ⟨hg₁, hk₁⟩ : Grounded (Ground self stale claims) past tr₁ ∧ st₁.Known (past ++ tr₁) :=
    retried_grounded hi hs hk hmem hretried
  rcases hend with hover | ⟨rfl, rfl, -⟩
  · obtain ⟨hg₂, hresult⟩ := attempted_grounded hi hs hk₁ hmem hover
    refine ⟨Grounded.append.mpr ⟨hg₁, hg₂⟩, ?_⟩
    rintro written st' rfl
    rw [← List.append_assoc]
    exact ⟨hresult.1, hresult.2.append_left⟩
  · refine ⟨Grounded.append.mpr ⟨hg₁, .of_accepted_nil rfl⟩, ?_⟩
    rintro written st' ⟨⟩

end Claim

/-- The decisions are settled with notes alone. -/
theorem settle_within (self space : String) (written : Bool) (decisions : List (Feature × Resolution)) :
    (settle self space written decisions).Within fun _ => False := by
  induction decisions with
  | nil => trivial
  | cons decision rest ih =>
    have htwo (level : LogLevel) (text : String) (f : Feature) (outcome : ClaimOutcome)
        (g : List Feature × List Feature → List Feature × List Feature) :
        (do Session.log level text; Session.count (.claims f outcome);
            return g (← settle self space written rest)).Within fun _ => False :=
      ⟨trivial, trivial, ih.bind fun _ => trivial⟩
    obtain ⟨f, resolution⟩ := decision
    cases resolution with
    | alreadyOwned => exact htwo _ _ _ _ fun later => (later.1, f :: later.2)
    | accept =>
      cases written with
      | true => exact htwo _ _ _ _ fun later => (f :: later.1, later.2)
      | false => exact ih
    | conflict =>
      cases written with
      | true => exact htwo _ _ _ _ fun later => (f :: later.1, later.2)
      | false => exact ih

section Map

variable {m : Mapper} {self : String} {deadline : Option Int} {stale : List Claim}
  {claims : List (String × List Feature)}

/-- A namespace is claimed with one update, after which the decisions on it are noted. -/
theorem claimOne_runs {space : String} {features : List Feature}
    {r : Except Fault ((List Feature × List Feature) × Memory)}
    (h : Runs i ((m.claimOne self deadline space features).run st).run c tr r c') :
    (∃ fault, r = .error fault ∧
        Runs i ((m.ledger.write space features self (some (m.judge self space)) deadline).run
          { st with decisions := [] }).run c tr (.error fault) c') ∨
      ∃ tr₁ written st₁ tr₂ v, tr = tr₁ ++ tr₂ ∧ r = .ok (v, st₁) ∧
        Runs i ((m.ledger.write space features self (some (m.judge self space)) deadline).run
          { st with decisions := [] }).run c tr₁ (.ok (written, st₁)) c' ∧
        Runs i (settle self space written st₁.decisions) c' tr₂ v c' := by
  rcases Attempt.runs_state_bind.mp h with ⟨fault, rfl, hmodify⟩ |
    ⟨tr₁, _, st₁, c₁, tr₂, rfl, hmodify, hrest⟩
  · obtain ⟨-, hf, -⟩ := Attempt.runs_state_modify.mp hmodify
    cases hf
  obtain ⟨rfl, hst, rfl⟩ := Attempt.runs_state_modify.mp hmodify
  cases hst
  rw [List.nil_append]
  rcases Attempt.runs_state_bind.mp hrest with ⟨fault, rfl, hwrite⟩ |
    ⟨tr₃, written, st₂, c₂, tr₄, rfl, hwrite, hsettle⟩
  · exact .inl ⟨fault, rfl, hwrite⟩
  · have hsession := Attempt.runs_state_get_bind.mp hsettle
    obtain ⟨v, rfl, hnote⟩ := Attempt.runs_state_session.mp hsession
    obtain ⟨-, rfl⟩ := hnote.onlyNotes (settle_within _ _ _ _)
    exact .inr ⟨tr₃, written, st₂, tr₄, v, rfl, rfl, hwrite, hnote⟩

theorem claimOne_grounded {space : String} {features : List Feature}
    {r : Except Fault ((List Feature × List Feature) × Memory)} (hi : i.Truthful)
    (hs : space ≠ m.operatorNamespace) (hk : st.Known past) (hmem : (space, features) ∈ claims)
    (h : Runs i ((m.claimOne self deadline space features).run st).run c tr r c') :
    Grounded (Ground self stale claims) past tr ∧ ∀ v st', r = .ok (v, st') →
      st'.Known (past ++ tr) ∧ Claimed i self space features tr := by
  have hknown : ({ st with decisions := [] } : Memory).Known past := hk
  rcases claimOne_runs h with ⟨fault, rfl, hwrite⟩ | ⟨tr₁, written, st₁, tr₂, v, rfl, rfl, hwrite, hnote⟩
  · exact ⟨(write_grounded hi hs hknown hmem hwrite).1, by rintro v st' ⟨⟩⟩
  obtain ⟨hground, hresult⟩ := write_grounded hi hs hknown hmem hwrite
  obtain ⟨hknown₁, hclaimed⟩ := hresult _ _ rfl
  obtain ⟨hnotes, -⟩ := hnote.onlyNotes (settle_within _ _ _ _)
  refine ⟨Grounded.append.mpr ⟨hground, .of_accepted_nil hnotes.accepted_eq⟩, ?_⟩
  rintro _ _ ⟨⟩
  exact ⟨Known.append hknown₁ fun name => readings_eq_nil fun x hx => absurd hx hnotes.not_asked,
    hclaimed.append_right⟩

/-- Before a namespace is claimed the deadline is looked at, and after it come the others. -/
theorem claimAll_cons_runs {space : String} {features : List Feature} {rest : List (String × List Feature)}
    {r : Except Fault ((List Claim × List Claim) × Memory)}
    (h : Runs i ((m.claimAll self deadline ((space, features) :: rest)).run st).run c tr r c') :
    (∃ fault, r = .error fault ∧
        Runs i (checkDeadline deadline s!"mapping dynakube {self}").run c tr (.error fault) c') ∨
      ∃ check c₁ tr₁, tr = check ++ tr₁ ∧
        Runs i (checkDeadline deadline s!"mapping dynakube {self}").run c check (.ok ()) c₁ ∧
        ((∃ fault, r = .error fault ∧
            Runs i ((m.claimOne self deadline space features).run st).run c₁ tr₁ (.error fault) c') ∨
          ∃ own v st₁ c₂ later r', tr₁ = own ++ later ∧
            Runs i ((m.claimOne self deadline space features).run st).run c₁ own (.ok (v, st₁)) c₂ ∧
            Runs i ((m.claimAll self deadline rest).run st₁).run c₂ later r' c' ∧ r = r'.map fun w =>
              ((v.1.map (space, ·) ++ w.1.1, v.2.map (space, ·) ++ w.1.2), w.2)) := by
  rcases Attempt.runs_state_lift_bind.mp h with hexpired | ⟨check, _, c₁, tr₁, rfl, hcheck, hone⟩
  · exact .inl hexpired
  refine .inr ⟨check, c₁, tr₁, rfl, hcheck, ?_⟩
  rcases Attempt.runs_state_bind.mp hone with hfails | ⟨own, v, st₁, c₂, later, rfl, hclaim, hothers⟩
  · exact .inl hfails
  refine .inr ⟨own, v, st₁, c₂, later, ?_⟩
  rcases Attempt.runs_state_bind.mp hothers with ⟨fault, rfl, hall⟩ | ⟨later, w, st₂, c₃, _, rfl, hall, hend⟩
  · exact ⟨.error fault, rfl, hclaim, hall, rfl⟩
  · obtain ⟨rfl, rfl, rfl⟩ := Attempt.runs_state_pure.mp hend
    rw [List.append_nil]
    exact ⟨.ok (w, st₂), rfl, hclaim, hall, rfl⟩

/-- The claims are grounded one after another, each in what went before it. -/
theorem claimAll_grounded {todo : List (String × List Feature)}
    {r : Except Fault ((List Claim × List Claim) × Memory)} (hi : i.Truthful)
    (hs : ∀ entry ∈ todo, entry.1 ≠ m.operatorNamespace ∧ entry ∈ claims) (hk : st.Known past)
    (h : Runs i ((m.claimAll self deadline todo).run st).run c tr r c') :
    Grounded (Ground self stale claims) past tr ∧
      ∀ v, r = .ok v → ∀ entry ∈ todo, Claimed i self entry.1 entry.2 tr := by
  induction todo generalizing past st c tr r c' with
  | nil =>
    obtain ⟨rfl, rfl, rfl⟩ := Attempt.runs_state_pure.mp h
    exact ⟨trivial, by simp⟩
  | cons entry rest ih =>
    obtain ⟨space, features⟩ := entry
    obtain ⟨hspace, hmem⟩ := hs _ List.mem_cons_self
    rcases claimAll_cons_runs h with ⟨fault, rfl, hcheck⟩ | ⟨check, c₁, tr₁, rfl, hcheck, hone⟩
    · exact ⟨.of_accepted_nil (checkDeadline_accepted hcheck), by rintro v ⟨⟩⟩
    have hknown := hk.of_readings_nil (checkDeadline_readings hcheck)
    have hquiet : Grounded (Ground self stale claims) past check := .of_accepted_nil (checkDeadline_accepted hcheck)
    rcases hone with ⟨fault, rfl, hclaim⟩ | ⟨own, v, st₁, c₂, later, r', rfl, hclaim, hall, rfl⟩
    · exact ⟨Grounded.append.mpr ⟨hquiet, (claimOne_grounded hi hspace hknown hmem hclaim).1⟩,
        by rintro v ⟨⟩⟩
    obtain ⟨hground, hresult⟩ := claimOne_grounded hi hspace hknown hmem hclaim
    obtain ⟨hknown₁, hclaimed⟩ := hresult _ _ rfl
    have hrest : ∀ entry ∈ rest, entry.1 ≠ m.operatorNamespace ∧ entry ∈ claims :=
      fun entry he => hs entry (List.mem_cons_of_mem _ he)
    obtain ⟨hothers, hclaims⟩ := ih hrest hknown₁ hall
    refine ⟨Grounded.append.mpr ⟨hquiet, Grounded.append.mpr ⟨hground, hothers⟩⟩, fun _ hv entry he => ?_⟩
    cases r' with
    | error fault => cases hv
    | ok w =>
      rcases List.mem_cons.mp he with rfl | he
      · exact hclaimed.append_right.append_left
      · exact (hclaims _ rfl entry he).append_left.append_left

/-- A release is grounded in its claim alone. -/
theorem remove_grounded {claim : Claim} {r : Except Fault Bool} (hmem : claim ∈ stale)
    (h : Runs i (m.ledger.remove claim.1 claim.2 (some self) deadline).run c tr r c') :
    Grounded (Ground self stale claims) past tr := by
  obtain ⟨own, v, hown, rfl, ho⟩ := remove_allOrNothing h
  match v, ho with
  | .ok (true, st'), ⟨x, s, new, pre, mid, st₁, c₁, c₂, hx, hrep, hdiffers, htr, hrun⟩ =>
    obtain ⟨hnew, -, -⟩ := release_runs hrun
    cases hnew
    obtain ⟨present, hpresent, howner, hreleased⟩ := released_of_changed hdiffers
    rw [hreleased] at hrep
    refine Grounded.of_forall fun past y hy => ?_
    rw [← hown, hx] at hy
    obtain rfl : y = x := by simpa using hy
    exact .dropped hmem (howner self rfl ▸ hpresent) hrep
  | .ok (false, st'), ho => exact .of_accepted_nil (hown ▸ ho)
  | .error fault, ho => exact .of_accepted_nil (hown ▸ ho)

theorem remove_readings {space : String} {f : Feature} {owner : Option String} {r : Except Fault Bool}
    (h : Runs i (m.ledger.remove space f owner deadline).run c tr r c') (name : String) :
    readings name tr = [] := by
  obtain ⟨v, hrun, -⟩ := Attempt.runs_state_forget.mp h
  exact readings_of_asks (fun x hx => hrun.within (modify_within (fun _ hasks => hasks)
    fun labels annotations st => (release_within space f owner labels annotations st).mono
      fun _ => False.elim) hx) name

/-- Releases are grounded in their claims, and nothing is learned from them. -/
theorem releaseAll_grounded {operation : String} {noted : Claim → Session Unit} {todo : List Claim}
    {r : Except Fault (List Claim)} (hnoted : ∀ claim, (noted claim).Within fun _ => False)
    (hs : ∀ claim ∈ todo, claim ∈ stale)
    (h : Runs i (m.releaseAll self operation deadline noted todo).run c tr r c') :
    Grounded (Ground self stale claims) past tr ∧ ∀ name, readings name tr = [] := by
  induction todo generalizing past c tr r c' with
  | nil =>
    obtain ⟨rfl, rfl, rfl⟩ := Attempt.runs_pure.mp h
    exact ⟨trivial, fun _ => rfl⟩
  | cons claim rest ih =>
    have hmem := hs claim List.mem_cons_self
    have hothers : ∀ claim ∈ rest, claim ∈ stale := fun claim hc => hs claim (List.mem_cons_of_mem _ hc)
    rcases Attempt.runs_bind.mp h with ⟨fault, rfl, hcheck⟩ | ⟨tr₁, _, c₁, tr₂, rfl, hcheck, hremove⟩
    · exact ⟨.of_accepted_nil (checkDeadline_accepted hcheck), checkDeadline_readings hcheck⟩
    have hquiet : Grounded (Ground self stale claims) past tr₁ :=
      .of_accepted_nil (checkDeadline_accepted hcheck)
    rcases Attempt.runs_bind.mp hremove with ⟨fault, rfl, hdrop⟩ | ⟨tr₃, dropped, c₂, tr₄, rfl, hdrop, hlater⟩
    · refine ⟨Grounded.append.mpr ⟨hquiet, remove_grounded hmem hdrop⟩, fun name => ?_⟩
      rw [readings_append, checkDeadline_readings hcheck, remove_readings hdrop, List.append_nil]
    have hafter : Grounded (Ground self stale claims) (past ++ tr₁ ++ tr₃) tr₄ ∧
        ∀ name, readings name tr₄ = [] := by
      cases dropped with
      | false => exact ih hothers hlater
      | true =>
        obtain ⟨tr₅, _, c₃, tr₆, rfl, hnote, hrest⟩ := Attempt.runs_lift_bind.mp hlater
        obtain ⟨hnotes, rfl⟩ := hnote.onlyNotes (hnoted claim)
        have hnone : ∀ name, readings name tr₅ = [] := fun name =>
          readings_eq_nil fun x hx => absurd hx hnotes.not_asked
        have htail : ∀ tr' v c'', Runs i (m.releaseAll self operation deadline noted rest).run c₃ tr' v c'' →
            Grounded (Ground self stale claims) (past ++ tr₁ ++ tr₃) (tr₅ ++ tr') ∧
              ∀ name, readings name (tr₅ ++ tr') = [] := by
          intro tr' v c'' hrun
          obtain ⟨hground, hread⟩ := ih hothers hrun
          refine ⟨Grounded.append.mpr ⟨.of_accepted_nil hnotes.accepted_eq, hground⟩, fun name => ?_⟩
          rw [readings_append, hnone, hread, List.append_nil]
        rcases Attempt.runs_bind.mp hrest with ⟨fault, rfl, hrun⟩ | ⟨tr₇, v, c₄, tr₈, rfl, hrun, hend⟩
        · exact htail _ _ _ hrun
        · obtain ⟨rfl, -, -⟩ := Attempt.runs_pure.mp hend
          rw [List.append_nil]
          exact htail _ _ _ hrun
    refine ⟨Grounded.append.mpr ⟨hquiet, Grounded.append.mpr ⟨remove_grounded hmem hdrop, hafter.1⟩⟩,
      fun name => ?_⟩
    rw [readings_append, readings_append, checkDeadline_readings hcheck, remove_readings hdrop, hafter.2 name]
    rfl

/-- The listing with which a mapping starts. -/
theorem list_runs {r : Except Fault (List NamespaceRecord)} (h : Runs i m.ledger.list.run c tr r c') :
    (∃ c₁ failure, i.fails c₁ (.listNamespaces none) failure ∧ r = .error (.call failure) ∧ accepted tr = []) ∨
      ∃ objects, i.moves c c' ∧ c'.Lists objects ∧ r = .ok (Namespaces.records objects) ∧
        tr = [.asked (.call c' (.listNamespaces none) (.ok objects) c')] := by
  rcases Attempt.runs_bind.mp h with ⟨fault, rfl, hcall⟩ | ⟨tr₁, objects, c₁, tr₂, rfl, hcall, hend⟩
  · obtain ⟨c₁, reply, -, hreply, rfl, hr⟩ := Attempt.runs_call.mp hcall
    cases reply with
    | ok objects => cases hr
    | error failure =>
      cases hr
      exact .inl ⟨c₁, failure, hreply.1, rfl, rfl⟩
  · obtain ⟨c₂, reply, hm, hreply, rfl, hr⟩ := Attempt.runs_call.mp hcall
    obtain ⟨rfl, rfl, rfl⟩ := Attempt.runs_pure.mp hend
    cases reply with
    | error failure => cases hr
    | ok listed =>
      cases hr
      obtain ⟨rfl, hlists⟩ := hreply
      exact .inr ⟨objects, hm, hlists, rfl, rfl⟩

private theorem known_blank (h : ∀ name, readings name past = []) : (⟨[], []⟩ : Memory).Known past := h

theorem noteStale_within (self : String) (claim : Claim) :
    (noteStale self claim).Within fun _ => False := ⟨trivial, trivial, trivial⟩

/-- The patches of a mapping, which starts with a listing of the namespaces. -/
theorem map_grounded {d : DynaKube} {r : Except Fault MappingResult} (hi : i.Truthful)
    (h : Runs i (m.map d deadline).run c tr r c') :
    (∃ fault, r = .error fault ∧ accepted tr = []) ∨
      ∃ c₁ objects wanted rest, i.moves c c₁ ∧ c₁.Lists objects ∧
        m.candidates d (Namespaces.records objects) = .ok wanted ∧
        tr = .asked (.call c₁ (.listNamespaces none) (.ok objects) c₁) :: rest ∧
        Grounded (Ground d.name (staleClaims d.name wanted (Namespaces.records objects))
          (claimsByNamespace wanted)) [] tr ∧
        ∀ v, r = .ok v → ∀ entry ∈ claimsByNamespace wanted, Claimed i d.name entry.1 entry.2 tr := by
  rcases Attempt.runs_bind.mp h with ⟨fault, rfl, hlist⟩ | ⟨tr₁, records, c₁, tr₂, rfl, hlist, hrest⟩
  · rcases list_runs hlist with ⟨_, _, -, -, hnone⟩ | ⟨_, _, _, hr, _⟩
    · exact .inl ⟨fault, rfl, hnone⟩
    · cases hr
  rcases list_runs hlist with ⟨_, _, -, hr, -⟩ | ⟨objects, hm, hlists, hr, rfl⟩
  · cases hr
  cases hr
  rcases Attempt.runs_bind.mp hrest with ⟨fault, rfl, hwanted⟩ | ⟨tr₃, wanted, c₂, tr₄, rfl, hwanted, hmap⟩
  · obtain ⟨rfl, -, -⟩ := Attempt.runs_except.mp hwanted
    exact .inl ⟨fault, rfl, rfl⟩
  obtain ⟨rfl, hok, rfl⟩ := Attempt.runs_except.mp hwanted
  refine .inr ⟨_, objects, wanted, tr₄, hm, hlists, hok.symm, rfl, ?_⟩
  have hops : ∀ entry ∈ claimsByNamespace wanted,
      entry.1 ≠ m.operatorNamespace ∧ entry ∈ claimsByNamespace wanted := by
    intro entry he
    obtain ⟨hne, hmem⟩ := mem_claims hok.symm he
    obtain ⟨f, hf⟩ := List.exists_mem_of_ne_nil _ hne
    obtain ⟨_, _, _, hwants⟩ := (hmem f).mp hf
    exact ⟨hwants.2.1, he⟩
  rw [List.nil_append]
  rcases Attempt.runs_bind.mp hmap with ⟨fault, rfl, hrelease⟩ |
    ⟨tr₅, released, c₃, tr₆, rfl, hrelease, hclaim⟩
  · obtain ⟨hground, -⟩ := releaseAll_grounded (noteStale_within d.name) (fun _ hc => hc) hrelease
    exact ⟨Grounded.append.mpr ⟨.of_accepted_nil rfl, hground⟩, by rintro v ⟨⟩⟩
  obtain ⟨hground, hnone⟩ := releaseAll_grounded (noteStale_within d.name) (fun _ hc => hc) hrelease
  have hblank : (⟨[], []⟩ : Memory).Known
      ([] ++ [.asked (.call c₂ (.listNamespaces none) (.ok objects) c₂)] ++ tr₅) := known_blank fun name => by
    rw [readings_append, hnone name]
    rfl
  rcases Attempt.runs_bind.mp hclaim with ⟨fault, rfl, hall⟩ | ⟨tr₇, v, c₄, tr₈, rfl, hall, hend⟩
  · obtain ⟨v, hrun, hv⟩ := Attempt.runs_state_forget.mp hall
    obtain ⟨hclaims, -⟩ := claimAll_grounded hi hops hblank hrun
    refine ⟨Grounded.append.mpr ⟨.of_accepted_nil rfl, Grounded.append.mpr ⟨hground, hclaims⟩⟩, ?_⟩
    rintro v ⟨⟩
  · obtain ⟨w, hrun, hv⟩ := Attempt.runs_state_forget.mp hall
    obtain ⟨hclaims, hdone⟩ := claimAll_grounded hi hops hblank hrun
    obtain ⟨tr₉, _, c₅, tr₁₀, rfl, hinfo, hpure⟩ := Attempt.runs_lift_bind.mp hend
    obtain ⟨rfl, rfl⟩ := Session.runs_note.mp hinfo
    obtain ⟨rfl, -, -⟩ := Attempt.runs_pure.mp hpure
    refine ⟨Grounded.append.mpr ⟨.of_accepted_nil rfl, Grounded.append.mpr ⟨hground,
      Grounded.append.mpr ⟨hclaims, .of_accepted_nil rfl⟩⟩⟩, fun _ _ entry he => ?_⟩
    cases w with
    | error fault => cases hv
    | ok w => exact (hdone w rfl entry he).append_right.append_left.append_left

end Map

section Within

variable (m : Mapper) (deadline : Option Int)

theorem checkDeadline_ofMapping (operation : String) :
    (checkDeadline deadline operation).run.Within Request.OfMapping :=
  (checkDeadline_within deadline operation).mono fun _ h => h ▸ .clock

/-- Dropping a claim asks for its namespace only. -/
theorem remove_asks (space : String) (f : Feature) (owner : Option String) :
    (m.ledger.remove space f owner deadline).run.Within (Asks space) :=
  Attempt.within_state_forget (modify_within (fun _ => id) fun labels annotations st =>
    (release_within space f owner labels annotations st).mono fun _ => False.elim)

theorem remove_within (space : String) (f : Feature) (owner : Option String) :
    (m.ledger.remove space f owner deadline).run.Within Request.OfMapping :=
  (remove_asks m deadline space f owner).mono fun _ => .of_asks

theorem releaseAll_within (owner operation : String) {noted : Claim → Session Unit}
    (hnoted : ∀ claim, (noted claim).Within fun _ => False) (todo : List Claim) :
    (m.releaseAll owner operation deadline noted todo).run.Within Request.OfMapping := by
  induction todo with
  | nil => trivial
  | cons claim rest ih =>
    refine Attempt.within_bind (checkDeadline_ofMapping deadline operation) fun _ => ?_
    refine Attempt.within_bind (remove_within m deadline _ _ _) fun dropped => ?_
    cases dropped with
    | false => exact ih
    | true =>
      have hnote : (liftM (noted claim) : Attempt Unit).run.Within Request.OfMapping :=
        ((hnoted claim).mono fun _ => False.elim).bind fun _ => trivial
      exact Attempt.within_bind hnote fun _ => Attempt.within_bind ih fun _ => trivial

/-- Claiming the features of a namespace asks for that and for DynaKubes. -/
theorem claimOne_asks (self space : String) (features : List Feature) (st : Memory) :
    ((m.claimOne self deadline space features).run st).run.Within fun request =>
      Asks space request ∨ request.IsReading := by
  refine Attempt.within_state_bind trivial fun _ st => ?_
  refine Attempt.within_state_bind (modify_within (fun _ => .inl) fun labels annotations st =>
    (guarded_within labels annotations st).mono fun _ => .inr) fun written st => ?_
  exact Attempt.within_state_lift
    (((settle_within self space written st.decisions).mono fun _ => False.elim).bind fun _ => trivial)

theorem claimOne_within (self space : String) (features : List Feature) (st : Memory) :
    ((m.claimOne self deadline space features).run st).run.Within Request.OfMapping := by
  refine (claimOne_asks m deadline self space features st).mono ?_
  rintro _ (h | ⟨name, rfl⟩)
  · exact .of_asks h
  · exact .dynakube name

theorem claimAll_within (self : String) (todo : List (String × List Feature)) (st : Memory) :
    ((m.claimAll self deadline todo).run st).run.Within Request.OfMapping := by
  induction todo generalizing st with
  | nil => trivial
  | cons entry rest ih =>
    refine Attempt.within_state_bind (Attempt.within_state_lift (checkDeadline_ofMapping deadline _)) fun _ st => ?_
    refine Attempt.within_state_bind (claimOne_within m deadline self entry.1 entry.2 st) fun v st => ?_
    exact Attempt.within_state_bind (ih st) fun _ _ => trivial

theorem list_sparing : m.ledger.list.run.Within Request.Sparing := ⟨rfl, fun reply => by cases reply <;> trivial⟩

theorem list_within : m.ledger.list.run.Within Request.OfMapping :=
  ⟨.listing _, fun reply => by cases reply <;> trivial⟩

/-- A mapping reports no status and looks up no list of DynaKubes, and does not note how long it takes. -/
theorem map_within (d : DynaKube) : (m.map d deadline).run.Within Request.OfMapping := by
  refine Attempt.within_bind (list_within m) fun records => ?_
  refine Attempt.within_bind (by cases m.candidates d records <;> trivial) fun wanted => ?_
  refine Attempt.within_bind (releaseAll_within m deadline _ _ (noteStale_within d.name) _) fun released => ?_
  refine Attempt.within_bind (Attempt.within_state_forget (claimAll_within m deadline _ _ _)) fun v => ?_
  exact Attempt.within_bind ⟨trivial, trivial⟩ fun _ => trivial

theorem unmap_within (name : Value) : (m.unmap name deadline).run.Within Request.OfMapping := by
  have hnoted (claim : Claim) : (Session.count (.releases claim.2 .unmapped)).Within fun _ => False :=
    ⟨trivial, trivial⟩
  refine Attempt.within_bind (list_within m) fun records => ?_
  refine Attempt.within_bind (releaseAll_within m deadline _ _ hnoted _) fun released => ?_
  exact Attempt.within_bind ⟨trivial, trivial⟩ fun _ => trivial

end Within

end Mapper
end NamespaceOwnership
