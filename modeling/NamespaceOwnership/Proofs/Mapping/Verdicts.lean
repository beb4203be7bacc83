import NamespaceOwnership.Proofs.Mapping.Guard
import NamespaceOwnership.Proofs.Outcome
import NamespaceOwnership.Proofs.Reading

/-!
# What a guard says in the calm

An owner is live if its DynaKube exists, enables the feature, and has a selector for it that selects the labels
or is refused. In the calm there are two reasons why a guard does not pass a feature (`Mapper.Objection`): the claim of
another owner is live, or the object of that owner cannot be interpreted, since it cannot be read or the operator of an
expression in its selector cannot be looked up. A guard ends with the first objection (`Mapper.consult_objects`). Where
all owners can be interpreted, it objects exactly to the claims of live ones.
-/
namespace NamespaceOwnership

open Session (Runs)

namespace Cluster

def Live (c : Cluster) (owner : String) (f : Feature) (labels : Labels) : Prop :=
  ∃ d, c.Shows owner (some d) ∧ d.enables f = true ∧
    ((∃ error, LabelSelector.read (d.selectorFor f) = .error (.selector error)) ∨
      ∃ parsed, LabelSelector.read (d.selectorFor f) = .ok parsed ∧ parsed.selects labels = true)

/-- There is no DynaKube of the name, or it can be read. -/
def Readable (c : Cluster) (name : String) : Prop :=
  ∀ object, c.dynakubes name = some object → ∃ d, DynaKube.ofObject object = .ok d

/-- There is no DynaKube of the name, or it can be read and so can its selectors, unless they are refused. -/
def Interpretable (c : Cluster) (name : String) : Prop :=
  ∀ object, c.dynakubes name = some object → ∃ d, DynaKube.ofObject object = .ok d ∧ ∀ f, d.enables f = true →
    (∃ error, LabelSelector.read (d.selectorFor f) = .error (.selector error)) ∨
      ∃ parsed, LabelSelector.read (d.selectorFor f) = .ok parsed

variable {c c' : Cluster} {name : String} {f : Feature} {labels : Labels}

theorem Shows.unique {found found' : Option DynaKube} (h : c.Shows name found) (h' : c.Shows name found') :
    found = found' := by
  cases found with
  | none =>
    cases found' with
    | none => rfl
    | some e =>
      obtain ⟨object, hobject, -⟩ := h'
      rw [show c.dynakubes name = none from h] at hobject
      cases hobject
  | some d =>
    obtain ⟨object, hobject, hd⟩ := h
    cases found' with
    | none =>
      rw [show c.dynakubes name = none from h'] at hobject
      cases hobject
    | some e =>
      obtain ⟨object', hobject', he⟩ := h'
      cases hobject.symm.trans hobject'
      exact congrArg some (Except.ok.inj (hd.symm.trans he))

end Cluster

/-- Why the object of a DynaKube does not tell whether its claim on a feature is live: it cannot be read, or the operator
of an expression in its selector cannot be looked up. -/
inductive Uninterpretable (object : Value) (f : Feature) : Fault → Prop where
  | unreadable {error : ObjectError} (read : DynaKube.ofObject object = .error error) :
      Uninterpretable object f (.object error)
  | stuck {d : DynaKube} {operator : Value} (read : DynaKube.ofObject object = .ok d) (enables : d.enables f = true)
      (selector : LabelSelector.Stuck (d.selectorFor f) operator) :
      Uninterpretable object f (LabelSelector.operatorFault operator)

namespace Mapper

/-- Another owner has a live claim on the feature. -/
def Contested (c : Cluster) (self : String) (labels : Labels) (f : Feature) : Prop :=
  ∃ owner, Labels.owner? labels f = some owner ∧ owner ≠ self ∧ c.Live owner f labels

/-- Another owner of the feature, if there is one, can be interpreted. -/
def Judgeable (c : Cluster) (self : String) (labels : Labels) (f : Feature) : Prop :=
  ∀ owner, Labels.owner? labels f = some owner → owner ≠ self → c.Interpretable owner

/-- What a guard has against a claim of `self` on a feature, and with which fault it says so. -/
inductive Objection (c : Cluster) (self space : String) (labels : Labels) (f : Feature) : Fault → Prop where
  | live {owner : String} (owns : Labels.owner? labels f = some owner) (other : owner ≠ self)
      (live : c.Live owner f labels) : Objection c self space labels f (.ownership ⟨space, f, owner, self⟩)
  | unknown {owner : String} {object : Value} {fault : Fault} (owns : Labels.owner? labels f = some owner)
      (other : owner ≠ self) (stored : c.dynakubes owner = some object)
      (uninterpretable : Uninterpretable object f fault) : Objection c self space labels f fault

/-- Another owner of the feature, if there is one, has lost its claim. -/
def Forfeited (c : Cluster) (self : String) (labels : Labels) (f : Feature) : Prop :=
  ∀ owner, Labels.owner? labels f = some owner → owner ≠ self → c.NotLive owner f labels

/-- What is remembered of the DynaKubes is right. -/
def Recalls (c : Cluster) (st : Memory) : Prop :=
  ∀ name found, st.peers.lookup name = some found → c.Shows name found

variable {m : Mapper} {pace : Pace} {c c' : Cluster} {space self name owner : String} {f : Feature}
  {features : List Feature} {labels : Labels} {st : Memory} {tr : List Event} {fault : Fault}

theorem Recalls.remember {found : Option DynaKube} (hr : Recalls c st) (h : c.Shows name found) :
    Recalls c { st with peers := (name, found) :: st.peers } := by
  intro other v hv
  rw [TextMap.lookup_cons_ite] at hv
  by_cases hother : other = name
  · rw [if_pos hother] at hv
    cases hv
    exact hother ▸ h
  · rw [if_neg hother] at hv
    exact hr other v hv

theorem Recalls.congr (hr : Recalls c st) (h : c'.dynakubes = c.dynakubes) : Recalls c' st :=
  fun name found hl => (hr name found hl).congr (congrFun h name)

theorem get?_yields (h : c.Readable name) :
    Attempt.Yields pace c (DynaKubes.get? (.text name)) fun found c' => c.Shows name found ∧ c' = c := by
  intro tr r c' hrun _
  obtain ⟨tr₁, reply, c₁, tr₂, rfl, hcall, hend⟩ := Attempt.runs_lift_bind.mp hrun
  obtain ⟨c₀, hm, hr, rfl⟩ := Session.runs_call.mp hcall
  obtain rfl : c = c₀ := hm
  cases reply with
  | error failure =>
    obtain ⟨⟨hnone, h404⟩, rfl⟩ := hr
    simp only [h404, if_true] at hend
    obtain ⟨-, rfl, rfl⟩ := Attempt.runs_pure.mp hend
    exact ⟨none, rfl, hnone name rfl, rfl⟩
  | ok object =>
    obtain ⟨rfl, text, htext, hobject⟩ := hr
    cases htext
    obtain ⟨d, hvalid⟩ := h object hobject
    have hread : DynaKubes.read object = (pure d : Attempt DynaKube) := by
      unfold DynaKubes.read
      rw [hvalid]
    simp only [hread] at hend
    obtain ⟨-, rfl, rfl⟩ := Attempt.runs_pure.mp hend
    exact ⟨some d, rfl, ⟨object, hobject, hvalid⟩, rfl⟩

theorem peer_yields (h : c.Readable name) (hr : Recalls c st) :
    Attempt.Yields pace c ((peer name).run st)
      fun p c' => c.Shows name p.1 ∧ Recalls c p.2 ∧ c' = c := by
  intro tr r c' hrun hpace
  have hget := Attempt.runs_state_get_bind.mp hrun
  cases hl : st.peers.lookup name with
  | some known =>
    simp only [hl] at hget
    obtain ⟨-, rfl, rfl⟩ := Attempt.runs_state_pure.mp hget
    exact ⟨_, rfl, hr name known hl, hr, rfl⟩
  | none =>
    simp only [hl] at hget
    have hread : Attempt.Yields pace c ((do
          let found ← (DynaKubes.get? (.text name) : Attempt _)
          modify fun s => { s with peers := (name, found) :: s.peers }
          return found : Judging (Option DynaKube)).run st)
        fun p c' => c.Shows name p.1 ∧ Recalls c p.2 ∧ c' = c := by
      refine Attempt.yields_state_bind (Attempt.yields_state_lift (get?_yields h))
        fun found st₁ c₁ hfound => ?_
      obtain ⟨⟨hshows, rfl⟩, rfl⟩ := hfound
      exact .pure ⟨hshows, hr.remember hshows, rfl⟩
    exact hread _ _ _ hget hpace

theorem not_live_of_notLive (h : c.NotLive owner f labels) : ¬c.Live owner f labels := by
  rintro ⟨d, hshows, hf, hselector⟩
  obtain ⟨found, hfound, hlapsed⟩ := h
  obtain rfl := hfound.unique hshows
  rcases hlapsed d rfl with hnot | ⟨parsed, hread, hselects⟩
  · rw [hf] at hnot
    cases hnot
  · rcases hselector with ⟨error, herror⟩ | ⟨parsed', hread', hselects'⟩
    · cases hread.symm.trans herror
    · cases hread.symm.trans hread'
      rw [hselects] at hselects'
      cases hselects'

/-- A DynaKube that is there and cannot be read is neither remembered nor returned. -/
theorem peer_unreadable {object : Value} {error : ObjectError} {r : Except Fault (Option DynaKube × Memory)}
    (hobject : c.dynakubes name = some object) (herror : DynaKube.ofObject object = .error error) (hr : Recalls c st)
    (h : Runs .calm ((peer name).run st).run c tr r c') : c' = c ∧ r = .error (.object error) := by
  have hget := Attempt.runs_state_get_bind.mp h
  cases hl : st.peers.lookup name with
  | some known =>
    have hshows := hr name known hl
    cases known with
    | none => cases hobject.symm.trans hshows
    | some d =>
      obtain ⟨object', hobject', hd⟩ := hshows
      cases hobject.symm.trans hobject'
      cases herror.symm.trans hd
  | none =>
    simp only [hl] at hget
    have hread {tr v c'} (hrun : Runs .calm (DynaKubes.get? (.text name)).run c tr v c') :
        c' = c ∧ v = .error (.object error) := by
      obtain ⟨_, reply, c₁, _, -, hcall, hend⟩ := Attempt.runs_lift_bind.mp hrun
      obtain ⟨c₀, hm, hreply, -⟩ := Session.runs_call.mp hcall
      obtain rfl : c = c₀ := hm
      cases reply with
      | error failure =>
        obtain ⟨⟨hnone, -⟩, -⟩ := hreply
        cases hobject.symm.trans (hnone name rfl)
      | ok object' =>
        obtain ⟨rfl, text, htext, hobject'⟩ := hreply
        cases htext
        cases hobject.symm.trans hobject'
        have hthrow : DynaKubes.read object = (throw (.object error) : Attempt DynaKube) := by
          unfold DynaKubes.read
          rw [herror]
        simp only [hthrow] at hend
        obtain ⟨-, rfl, rfl⟩ := Attempt.runs_throw.mp hend
        exact ⟨rfl, rfl⟩
    rcases Attempt.runs_state_lift_bind.mp hget with ⟨fault, rfl, hfound⟩ | ⟨_, _, _, _, -, hfound, -⟩
    · obtain ⟨rfl, hfault⟩ := hread hfound
      cases hfault
      exact ⟨rfl, rfl⟩
    · cases (hread hfound).2

/-- Another DynaKube is remembered or read, unless it cannot be read. -/
theorem peer_calm {r : Except Fault (Option DynaKube × Memory)} (hr : Recalls c st)
    (h : Runs .calm ((peer name).run st).run c tr r c') : c' = c ∧
      ((∃ object error, c.dynakubes name = some object ∧ DynaKube.ofObject object = .error error ∧
        r = .error (.object error)) ∨
      ∃ found st', r = .ok (found, st') ∧ c.Shows name found ∧ Recalls c st') := by
  by_cases hreadable : c.Readable name
  · have hyields : Attempt.Yields .any c ((peer name).run st) _ := peer_yields hreadable hr
    obtain ⟨⟨found, st'⟩, hok, hshows, hrecalls, hsame⟩ := hyields _ _ _ h trivial
    exact ⟨hsame, .inr ⟨found, st', hok, hshows, hrecalls⟩⟩
  · rw [Cluster.Readable] at hreadable
    push Not at hreadable
    obtain ⟨object, hobject, hnot⟩ := hreadable
    cases herror : DynaKube.ofObject object with
    | ok d => exact absurd herror (hnot d)
    | error error =>
      obtain ⟨hsame, hfault⟩ := peer_unreadable hobject herror hr h
      exact ⟨hsame, .inl ⟨object, error, hobject, herror, hfault⟩⟩

/-- The verdict on an owner that is known. -/
theorem verdict_cases (f : Feature) (labels : Labels) {found : Option DynaKube} (hshows : c.Shows owner found)
    (hop : space ≠ m.operatorNamespace) :
    (m.verdict owner f space labels found = .ok none ∧ Lapsed found f labels) ∨
    (m.verdict owner f space labels found = .ok (some owner) ∧ c.Live owner f labels) ∨
    ∃ d operator, found = some d ∧ d.enables f = true ∧ LabelSelector.Stuck (d.selectorFor f) operator ∧
      m.verdict owner f space labels found = .error (LabelSelector.operatorFault operator) := by
  have hlapsed (h : Lapsed found f labels) : m.verdict owner f space labels found = .ok none ∧ Lapsed found f labels :=
    ⟨(verdict_eq_none_iff hop).mpr h, h⟩
  cases found with
  | none => exact .inl (hlapsed nofun)
  | some d =>
    cases hf : d.enables f with
    | false => exact .inl (hlapsed fun _ hd => by cases hd; exact .inl hf)
    | true =>
      cases hread : LabelSelector.read (d.selectorFor f) with
      | ok parsed =>
        cases hselects : parsed.selects labels with
        | false => exact .inl (hlapsed fun _ hd => by cases hd; exact .inr ⟨parsed, hread, hselects⟩)
        | true =>
          refine .inr (.inl ⟨?_, d, hshows, hf, .inr ⟨parsed, hread, hselects⟩⟩)
          simp [verdict, holdsOn, selectsNamespace, hf, hop, hread, hselects, Except.map]
      | error fault =>
        rcases LabelSelector.read_fails _ _ hread with ⟨error, rfl⟩ | ⟨operator, hstuck, rfl⟩
        · refine .inr (.inl ⟨?_, d, hshows, hf, .inl ⟨error, hread⟩⟩)
          simp [verdict, holdsOn, selectsNamespace, hf, hop, hread, Except.map]
        · refine .inr (.inr ⟨d, operator, rfl, hf, hstuck, ?_⟩)
          simp [verdict, holdsOn, selectsNamespace, hf, hop, hread, LabelSelector.operatorFault, Except.map]

/-- In the calm the search for a live owner ends with an objection, or with one to be made, or there is none. -/
theorem liveOwner_objects {r : Except Fault (Option String × Memory)} (hr : Recalls c st)
    (hop : space ≠ m.operatorNamespace)
    (h : Runs .calm ((m.liveOwner self (Labels.owner? labels f) f space labels).run st).run c tr r c') : c' = c ∧
      ((∃ fault, r = .error fault ∧ Objection c self space labels f fault) ∨
        ∃ live st', r = .ok (live, st') ∧ Recalls c st' ∧ (resolve live self ≠ .conflict ∧ Forfeited c self labels f ∨
          resolve live self = .conflict ∧
            Objection c self space labels f (.ownership ⟨space, f, live.getD "", self⟩))) := by
  cases howner : Labels.owner? labels f with
  | none =>
    rw [howner] at h
    obtain ⟨-, rfl, rfl⟩ := liveOwner_runs_free h
    refine ⟨rfl, .inr ⟨none, st, rfl, hr, .inl ⟨by simp [resolve], fun owner hsome => ?_⟩⟩⟩
    rw [howner] at hsome
    cases hsome
  | some owner =>
    rw [howner] at h
    by_cases hself : owner = self
    · subst hself
      obtain ⟨-, rfl, rfl⟩ := liveOwner_runs_self h
      refine ⟨rfl, .inr ⟨_, st, rfl, hr, .inl ⟨by simp [resolve_eq_conflict_iff], fun other hother hne => ?_⟩⟩⟩
      rw [howner] at hother
      exact absurd (Option.some.inj hother).symm hne
    rcases liveOwner_runs hself h with ⟨fault, rfl, hpeer⟩ | ⟨found, st₁, hpeer, rfl⟩
    · obtain ⟨rfl, ⟨object, error, hobject, herror, hfault⟩ | ⟨_, _, hok, -⟩⟩ := peer_calm hr hpeer
      · cases hfault
        exact ⟨rfl, .inl ⟨_, rfl, .unknown howner hself hobject (.unreadable herror)⟩⟩
      · cases hok
    obtain ⟨rfl, ⟨_, _, -, -, hfault⟩ | ⟨_, _, hok, hshows, hrecalls⟩⟩ := peer_calm hr hpeer
    · cases hfault
    cases hok
    refine ⟨rfl, ?_⟩
    rcases verdict_cases f labels hshows hop with ⟨hverdict, hlapsed⟩ | ⟨hverdict, hlive⟩ |
      ⟨d, operator, rfl, hf, hstuck, hverdict⟩
    · rw [hverdict]
      refine .inr ⟨none, st₁, rfl, hrecalls, .inl ⟨by simp [resolve], fun other hother _ => ?_⟩⟩
      rw [howner] at hother
      cases hother
      exact ⟨found, hshows, hlapsed⟩
    · rw [hverdict]
      have hnamed : owner ≠ "" := (Labels.owner?_eq_some_iff.mp howner).2
      have hconflict : resolve (some owner) self = .conflict := resolve_eq_conflict_iff.mpr ⟨owner, rfl, hnamed, hself⟩
      exact .inr ⟨some owner, st₁, rfl, hrecalls, .inr ⟨hconflict, .live howner hself hlive⟩⟩
    · rw [hverdict]
      obtain ⟨object, hobject, hread⟩ := hshows
      exact .inl ⟨_, rfl, .unknown howner hself hobject (.stuck hread hf hstuck)⟩

/-- In the calm a guard objects to a claim, or any other owner has forfeited its claim. -/
theorem judge_objects {r : Except Fault (Unit × Memory)} (hr : Recalls c st) (hop : space ≠ m.operatorNamespace)
    (h : Runs .calm ((m.judge self space f (Labels.owner? labels f) labels).run st).run c tr r c') : c' = c ∧
      ((∃ fault, r = .error fault ∧ Objection c self space labels f fault) ∨
        Forfeited c self labels f ∧ ∃ st', r = .ok ((), st') ∧ Recalls c st') := by
  rcases judge_runs h with ⟨fault, rfl, hlive⟩ | ⟨live, st₁, _, _, -, -, hlive, rfl⟩
  · obtain ⟨rfl, ⟨_, hfault, hobjection⟩ | ⟨_, _, hok, -⟩⟩ := liveOwner_objects hr hop hlive
    · cases hfault
      exact ⟨rfl, .inl ⟨fault, rfl, hobjection⟩⟩
    · cases hok
  · obtain ⟨rfl, ⟨_, hfault, -⟩ | ⟨_, _, hok, hrecalls, hend⟩⟩ := liveOwner_objects hr hop hlive
    · cases hfault
    cases hok
    rcases hend with ⟨hpassed, hforfeited⟩ | ⟨hconflict, hobjection⟩
    · exact ⟨rfl, .inr ⟨hforfeited, _, if_neg hpassed, hrecalls⟩⟩
    · exact ⟨rfl, .inl ⟨_, if_pos hconflict, hobjection⟩⟩

/-- The first feature of a list to which there is an objection. -/
def FirstObjection (c : Cluster) (self space : String) (labels : Labels) (features : List Feature) (f : Feature)
    (fault : Fault) : Prop :=
  ∃ before after, features = before ++ f :: after ∧ (∀ g ∈ before, Forfeited c self labels g) ∧
    Objection c self space labels f fault

theorem FirstObjection.cons {g : Feature} (hg : Forfeited c self labels g)
    (h : FirstObjection c self space labels features f fault) :
    FirstObjection c self space labels (g :: features) f fault := by
  obtain ⟨before, after, rfl, hbefore, hobjection⟩ := h
  exact ⟨g :: before, after, rfl, List.forall_mem_cons.mpr ⟨hg, hbefore⟩, hobjection⟩

/-- A guard that is shown one feature after another ends with the first objection. -/
theorem consult_objects {r : Except Fault (Unit × Memory)} (hr : Recalls c st) (hop : space ≠ m.operatorNamespace)
    (h : Runs .calm ((Ledger.consult (m.judge self space) labels features).run st).run c tr r c') : c' = c ∧
      ((∃ f fault, r = .error fault ∧ FirstObjection c self space labels features f fault) ∨
        (∀ f ∈ features, Forfeited c self labels f) ∧ ∃ st', r = .ok ((), st') ∧ Recalls c st') := by
  induction features generalizing st tr with
  | nil =>
    obtain ⟨-, rfl, rfl⟩ := Attempt.runs_state_pure.mp h
    exact ⟨rfl, .inr ⟨nofun, st, rfl, hr⟩⟩
  | cons f rest ih =>
    have hshown {tr₁ r₁ c₁} (hrun : Runs .calm ((do
          Session.note (.examined f (Labels.owner? labels f) labels)
          m.judge self space f (Labels.owner? labels f) labels : Judging Unit).run st).run c tr₁ r₁ c₁) : c₁ = c ∧
        ((∃ fault, r₁ = .error fault ∧ Objection c self space labels f fault) ∨
          Forfeited c self labels f ∧ ∃ st', r₁ = .ok ((), st') ∧ Recalls c st') := by
      obtain ⟨tr₂, _, c₂, tr₃, rfl, hnote, hjudge⟩ := Attempt.runs_state_session_bind.mp hrun
      obtain ⟨rfl, rfl⟩ := Session.runs_note.mp hnote
      exact judge_objects hr hop hjudge
    rcases Attempt.runs_state_bind.mp h with ⟨fault, rfl, hfirst⟩ | ⟨tr₁, _, st₁, c₁, tr₂, rfl, hfirst, hrest⟩
    · obtain ⟨rfl, ⟨_, hfault, hobjection⟩ | ⟨-, _, hok, -⟩⟩ := hshown hfirst
      · cases hfault
        exact ⟨rfl, .inl ⟨f, fault, rfl, [], rest, rfl, nofun, hobjection⟩⟩
      · cases hok
    · obtain ⟨rfl, ⟨_, hfault, -⟩ | ⟨hforfeited, _, hok, hrecalls⟩⟩ := hshown hfirst
      · cases hfault
      cases hok
      obtain ⟨rfl, ⟨g, fault, rfl, hobjection⟩ | ⟨hothers, hend⟩⟩ := ih hrecalls hrest
      · exact ⟨rfl, .inl ⟨g, fault, rfl, hobjection.cons hforfeited⟩⟩
      · exact ⟨rfl, .inr ⟨List.forall_mem_cons.mpr ⟨hforfeited, hothers⟩, hend⟩⟩

theorem Forfeited.not_contested (h : Forfeited c self labels f) : ¬Contested c self labels f := by
  rintro ⟨owner, howner, hne, hlive⟩
  exact not_live_of_notLive (h owner howner hne) hlive

/-- Where the owner can be interpreted, only its claim can be in the way. -/
theorem Objection.contested (h : Objection c self space labels f fault) (hj : Judgeable c self labels f) :
    Contested c self labels f ∧ ∃ conflict, fault = .ownership conflict := by
  cases h with
  | live owns other live => exact ⟨⟨_, owns, other, live⟩, _, rfl⟩
  | unknown owns other stored uninterpretable =>
    obtain ⟨d, hd, hselectors⟩ := hj _ owns other _ stored
    cases uninterpretable with
    | unreadable read => cases hd.symm.trans read
    | stuck read enables selector =>
      cases hd.symm.trans read
      rcases hselectors f enables with ⟨error, herror⟩ | ⟨parsed, hparsed⟩
      · cases herror.symm.trans selector.read
      · cases hparsed.symm.trans selector.read

/-- A guard that is shown one feature after another objects exactly if there is a rival for one of them. -/
theorem consult_calm {r : Except Fault (Unit × Memory)} (hr : Recalls c st) (hop : space ≠ m.operatorNamespace)
    (hj : ∀ f ∈ features, Judgeable c self labels f)
    (h : Runs .calm ((Ledger.consult (m.judge self space) labels features).run st).run c tr r c') :
    c' = c ∧ (((∃ f ∈ features, Contested c self labels f) ∧ ∃ conflict, r = .error (.ownership conflict)) ∨
      (∀ f ∈ features, ¬Contested c self labels f) ∧ ∃ st', r = .ok ((), st') ∧ Recalls c st') := by
  obtain ⟨rfl, ⟨f, fault, rfl, before, after, rfl, -, hobjection⟩ | ⟨hforfeited, hend⟩⟩ := consult_objects hr hop h
  · have hf : f ∈ before ++ f :: after := List.mem_append_right _ List.mem_cons_self
    obtain ⟨hcontested, conflict, rfl⟩ := hobjection.contested (hj f hf)
    exact ⟨rfl, .inl ⟨⟨f, hf, hcontested⟩, conflict, rfl⟩⟩
  · exact ⟨rfl, .inr ⟨fun f hf => (hforfeited f hf).not_contested, hend⟩⟩

end Mapper
end NamespaceOwnership
