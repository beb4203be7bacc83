import NamespaceOwnership.Mapping
import NamespaceOwnership.Proofs.Ledger.Attempts
import NamespaceOwnership.Proofs.Ledger.Changes

/-!
# What the guard of a mapping knows

The guard judges an owner by a reading of its DynaKube, and a call reads each DynaKube at most once. So its
memory is what the trace of the call says: for a name that it remembers there is one reading, and at that moment
the DynaKube was as it remembers it (`Memory.Known`). A guard that lets a claim pass remembers every other
owner as one whose claim has lapsed.
-/
namespace NamespaceOwnership

open Session (Runs)

/-- The DynaKube of a name, or that there is none. -/
def Cluster.Shows (c : Cluster) (name : String) : Option DynaKube → Prop
  | none => c.dynakubes name = none
  | some d => ∃ object, c.dynakubes name = some object ∧ DynaKube.ofObject object = .ok d

/-- The claim of an owner is void: the DynaKube does not exist, does not enable the feature, or has a selector
for it that can be read and does not select the labels. -/
def Lapsed (found : Option DynaKube) (f : Feature) (labels : Labels) : Prop :=
  ∀ d ∈ found, d.enables f = false ∨
    ∃ parsed, LabelSelector.read (d.selectorFor f) = .ok parsed ∧ parsed.selects labels = false

def Cluster.NotLive (c : Cluster) (owner : String) (f : Feature) (labels : Labels) : Prop :=
  ∃ found, c.Shows owner found ∧ Lapsed found f labels

theorem Cluster.Shows.congr {c c' : Cluster} {name : String} {found : Option DynaKube} (h : c.Shows name found)
    (hc : c'.dynakubes name = c.dynakubes name) : c'.Shows name found := by
  cases found with
  | none => exact hc.trans h
  | some d =>
    obtain ⟨object, hobject, hvalid⟩ := h
    exact ⟨object, hc.trans hobject, hvalid⟩

/-- Only the DynaKube of the owner matters. -/
theorem Cluster.NotLive.congr {c c' : Cluster} {owner : String} {f : Feature} {labels : Labels}
    (h : c.NotLive owner f labels) (hc : c'.dynakubes owner = c.dynakubes owner) :
    c'.NotLive owner f labels := by
  obtain ⟨found, hshows, hlapsed⟩ := h
  exact ⟨found, hshows.congr hc, hlapsed⟩

/-- A DynaKube is only missed where there is none. -/
def Interference.Truthful (i : Interference) : Prop :=
  ∀ c name failure, i.fails c (.getDynaKube (.text name)) failure → failure.status? = some 404 →
    c.dynakubes name = none

theorem Interference.honest_truthful : Interference.honest.Truthful := fun _ _ _ h => h

def Request.readsDynaKube (name : String) : Request → Bool
  | .api (.getDynaKube (.text other)) => other == name
  | _ => false

def Request.IsReading (request : Request) : Prop := ∃ name, request = .api (.getDynaKube name)

theorem Request.readsDynaKube_iff {name : String} {request : Request} :
    request.readsDynaKube name = true ↔ request = .api (.getDynaKube (.text name)) := by
  constructor
  · intro h
    unfold readsDynaKube at h
    split at h
    · rw [beq_iff_eq.mp h]
    · cases h
  · rintro rfl
    exact beq_self_eq_true name

def Event.reading? (name : String) : Event → Option Exchange
  | .asked x => if x.request.readsDynaKube name then some x else none
  | .told _ => none

/-- The readings of a DynaKube in a trace. -/
def readings (name : String) (tr : List Event) : List Exchange := tr.filterMap (Event.reading? name)

@[simp] theorem readings_nil (name : String) : readings name [] = [] := rfl

@[simp] theorem readings_append (name : String) (tr₁ tr₂ : List Event) :
    readings name (tr₁ ++ tr₂) = readings name tr₁ ++ readings name tr₂ := List.filterMap_append

theorem readings_asked (name : String) (y : Exchange) :
    readings name [.asked y] = if y.request.readsDynaKube name then [y] else [] := by
  cases h : y.request.readsDynaKube name <;> simp [readings, Event.reading?, h]

theorem mem_readings {name : String} {tr : List Event} {y : Exchange} :
    y ∈ readings name tr ↔ .asked y ∈ tr ∧ y.request = .api (.getDynaKube (.text name)) := by
  simp only [readings, List.mem_filterMap]
  constructor
  · rintro ⟨note | x, hx, hy⟩
    · cases hy
    · simp only [Event.reading?] at hy
      split at hy
      · cases hy
        exact ⟨hx, Request.readsDynaKube_iff.mp ‹_›⟩
      · cases hy
  · rintro ⟨hy, hreq⟩
    exact ⟨.asked y, hy, by simp [Event.reading?, Request.readsDynaKube_iff.mpr hreq]⟩

theorem readings_eq_nil {name : String} {tr : List Event}
    (h : ∀ x, .asked x ∈ tr → x.request ≠ .api (.getDynaKube (.text name))) : readings name tr = [] :=
  List.eq_nil_iff_forall_not_mem.mpr fun y hy => h y (mem_readings.mp hy).1 (mem_readings.mp hy).2

namespace Memory

/-- What is remembered was read once, and nothing else was read. -/
def Known (past : List Event) (m : Memory) : Prop :=
  ∀ name, match m.peers.lookup name with
    | none => readings name past = []
    | some found => ∃ y, readings name past = [y] ∧ y.before.Shows name found

theorem Known.of_readings_nil {past tr : List Event} {m : Memory} (h : m.Known past)
    (htr : ∀ name, readings name tr = []) : m.Known (past ++ tr) := by
  intro name
  rw [readings_append, htr name, List.append_nil]
  exact h name

/-- The first reading of a DynaKube is remembered. -/
theorem Known.remember {past : List Event} {m : Memory} {name : String} {found : Option DynaKube}
    {y : Exchange} (h : m.Known past) (hl : m.peers.lookup name = none)
    (hy : y.request = .api (.getDynaKube (.text name))) (hshows : y.before.Shows name found) :
    ({ m with peers := (name, found) :: m.peers } : Memory).Known (past ++ [.asked y]) := by
  intro other
  have hother := h other
  rw [readings_append, readings_asked, hy]
  by_cases hname : other = name
  · subst hname
    rw [hl] at hother
    rw [List.lookup_cons_self, hother, if_pos (Request.readsDynaKube_iff.mpr rfl)]
    exact ⟨y, rfl, hshows⟩
  · have hreads : Request.readsDynaKube other (.api (.getDynaKube (.text name))) = false :=
      beq_false_of_ne fun heq => hname heq.symm
    rw [TextMap.lookup_cons_ite, if_neg hname, hreads, if_neg Bool.false_ne_true, List.append_nil]
    exact hother

/-- From one memory to the next, with nothing forgotten. -/
structure Learns (past : List Event) (m : Memory) (tr : List Event) (m' : Memory) : Prop where
  known : m'.Known (past ++ tr)
  kept : ∀ name found, m.peers.lookup name = some found → m'.peers.lookup name = some found

theorem Learns.trans {past tr tr' : List Event} {m m' m'' : Memory} (h : Learns past m tr m')
    (h' : Learns (past ++ tr) m' tr' m'') : Learns past m (tr ++ tr') m'' where
  known := by
    rw [← List.append_assoc]
    exact h'.known
  kept name found hf := h'.kept name found (h.kept name found hf)

/-- Notes teach nothing, and only what is known of other DynaKubes counts. -/
theorem Learns.notes {past tr notes : List Event} {m m' m'' : Memory} (h : Learns past m tr m')
    (hn : OnlyNotes notes) (hp : m''.peers = m'.peers) :
    Learns past m (tr ++ notes) m'' where
  known name := by
    have hnone : readings name notes = [] := readings_eq_nil fun x hx => absurd hx hn.not_asked
    rw [hp, ← List.append_assoc, readings_append, hnone, List.append_nil]
    exact h.known name
  kept name found hf := by
    rw [hp]
    exact h.kept name found hf

theorem Learns.refl {past : List Event} {m : Memory} (h : m.Known past) : Learns past m [] m where
  known := by rwa [List.append_nil]
  kept _ _ hf := hf

end Memory

namespace DynaKubes

variable {i : Interference} {c c' : Cluster} {tr : List Event}

/-- What a reading returns was there, and what it misses was not. -/
theorem get?_runs {name : String} {found : Option DynaKube} (hi : i.Truthful)
    (h : Runs i (get? (.text name)).run c tr (.ok found) c') :
    ∃ reply, i.moves c c' ∧ tr = [.asked (.call c' (.getDynaKube (.text name)) reply c')] ∧
      c'.Shows name found := by
  obtain ⟨tr₁, reply, c₁, tr₂, rfl, hcall, hend⟩ := Attempt.runs_lift_bind.mp h
  obtain ⟨c₀, hm, hr, rfl⟩ := Session.runs_call.mp hcall
  cases reply with
  | ok object =>
    obtain ⟨rfl, text, htext, hobject⟩ := hr
    cases htext
    rcases Attempt.runs_bind.mp hend with ⟨fault, hf, -⟩ | ⟨tr₃, d, c₂, tr₄, rfl, hread, hpure⟩
    · cases hf
    obtain ⟨rfl, hfound, rfl⟩ := Attempt.runs_pure.mp hpure
    cases hfound
    unfold read at hread
    cases hd : DynaKube.ofObject object with
    | error e =>
      rw [hd] at hread
      obtain ⟨-, hf, -⟩ := Attempt.runs_throw.mp hread
      cases hf
    | ok d' =>
      rw [hd] at hread
      obtain ⟨rfl, hd', rfl⟩ := Attempt.runs_pure.mp hread
      cases hd'
      exact ⟨_, hm, rfl, object, hobject, hd⟩
  | error failure =>
    obtain ⟨hfail, rfl⟩ := hr
    by_cases h404 : failure.status? = some 404
    · simp only [h404, if_true] at hend
      obtain ⟨rfl, hfound, rfl⟩ := Attempt.runs_pure.mp hend
      cases hfound
      exact ⟨_, hm, rfl, hi _ _ _ hfail h404⟩
    · simp only [h404, if_false] at hend
      obtain ⟨-, hf, -⟩ := Attempt.runs_throw.mp hend
      cases hf

theorem get?_within (name : Value) : (get? name).run.Within Request.IsReading := by
  refine Attempt.within_bind ⟨⟨name, rfl⟩, fun reply => trivial⟩ fun reply => ?_
  cases reply with
  | ok object =>
    dsimp only
    unfold read
    cases DynaKube.ofObject object <;> trivial
  | error failure =>
    by_cases h404 : failure.status? = some 404
    · simp only [h404, if_true]
      trivial
    · simp only [h404, if_false]
      trivial

end DynaKubes

namespace Mapper

open Memory

variable {i : Interference} {c c' : Cluster} {tr past : List Event} {st st' : Memory}

/-- A DynaKube that is remembered is not read again, and one that is read is remembered. -/
theorem peer_learns {name : String} {found : Option DynaKube} (hi : i.Truthful) (hk : st.Known past)
    (h : Runs i ((peer name).run st).run c tr (.ok (found, st')) c') :
    Learns past st tr st' ∧ st'.peers.lookup name = some found := by
  have hrun := Attempt.runs_state_get_bind.mp h
  cases hl : st.peers.lookup name with
  | some known =>
    simp only [hl] at hrun
    obtain ⟨rfl, hr, rfl⟩ := Attempt.runs_state_pure.mp hrun
    cases hr
    exact ⟨⟨by simpa using hk, fun _ _ hf => hf⟩, hl⟩
  | none =>
    simp only [hl] at hrun
    rcases Attempt.runs_state_lift_bind.mp hrun with ⟨fault, hf, -⟩ | ⟨tr₁, v, c₁, tr₂, rfl, hget, hrest⟩
    · cases hf
    rcases Attempt.runs_state_bind.mp hrest with ⟨fault, hf, -⟩ |
      ⟨tr₃, _, st₁, c₂, tr₄, rfl, hmodify, hend⟩
    · cases hf
    obtain ⟨rfl, hst, rfl⟩ := Attempt.runs_state_modify.mp hmodify
    cases hst
    obtain ⟨rfl, hr, rfl⟩ := Attempt.runs_state_pure.mp hend
    cases hr
    obtain ⟨reply, -, rfl, hshows⟩ := DynaKubes.get?_runs hi hget
    refine ⟨⟨?_, fun other v hv => ?_⟩, by simp⟩
    · simpa using hk.remember hl rfl hshows
    · by_cases hother : other = name
      · subst hother
        rw [hl] at hv
        cases hv
      · rwa [TextMap.lookup_cons_ite, if_neg hother]

/-- What is thought of the owner of a place once its DynaKube is known. -/
def verdict (m : Mapper) (owner : String) (f : Feature) (space : String) (labels : Labels) :
    Option DynaKube → Except Fault (Option String)
  | none => .ok none
  | some d =>
    if d.enables f then
      (m.holdsOn (d.selectorFor f) space labels).map fun live => if live then some owner else none
    else .ok none

theorem verdict_eq_none_iff {m : Mapper} {owner space : String} {f : Feature} {labels : Labels}
    {found : Option DynaKube} (hs : space ≠ m.operatorNamespace) :
    m.verdict owner f space labels found = .ok none ↔ Lapsed found f labels := by
  cases found with
  | none => simp [verdict, Lapsed]
  | some d =>
    cases he : d.enables f with
    | false => simp [verdict, Lapsed, he]
    | true =>
      simp only [verdict, he, if_true, Lapsed, Option.mem_some_iff, forall_eq', Bool.true_eq_false, false_or]
      cases hread : LabelSelector.read (d.selectorFor f) with
      | error fault =>
        cases fault <;> simp [holdsOn, selectsNamespace, hs, hread, Except.map]
      | ok parsed =>
        cases hsel : parsed.selects labels <;>
          simp [holdsOn, selectsNamespace, hs, hread, hsel, Except.map]

theorem verdict_ok {m : Mapper} {owner space : String} {f : Feature} {labels : Labels}
    {found : Option DynaKube} {live : Option String}
    (h : m.verdict owner f space labels found = .ok live) : live = none ∨ live = some owner := by
  cases found with
  | none =>
    cases h
    exact .inl rfl
  | some d =>
    cases he : d.enables f with
    | false =>
      simp only [verdict, he, Bool.false_eq_true, if_false, Except.ok.injEq] at h
      exact .inl h.symm
    | true =>
      cases hh : m.holdsOn (d.selectorFor f) space labels with
      | error fault => simp [verdict, he, hh, Except.map] at h
      | ok held => cases held <;> simp_all [verdict, Except.map]

/-- Another owner is looked up, and then there is a verdict. -/
theorem liveOwner_runs {m : Mapper} {self owner space : String} {f : Feature} {labels : Labels}
    {r : Except Fault (Option String × Memory)} (hne : owner ≠ self)
    (h : Runs i ((m.liveOwner self (some owner) f space labels).run st).run c tr r c') :
    (∃ fault, r = .error fault ∧ Runs i ((peer owner).run st).run c tr (.error fault) c') ∨
      ∃ found st₁, Runs i ((peer owner).run st).run c tr (.ok (found, st₁)) c' ∧
        r = (m.verdict owner f space labels found).map (·, st₁) := by
  simp only [liveOwner, hne, if_false] at h
  rcases Attempt.runs_state_bind.mp h with hfail | ⟨tr₁, found, st₁, c₁, tr₂, rfl, hpeer, hend⟩
  · exact .inl hfail
  refine .inr ⟨found, st₁, ?_⟩
  cases found with
  | none =>
    obtain ⟨rfl, rfl, rfl⟩ := Attempt.runs_state_pure.mp hend
    exact ⟨by simpa using hpeer, rfl⟩
  | some d =>
    cases he : d.enables f with
    | false =>
      simp only [he, Bool.not_false, if_true] at hend
      obtain ⟨rfl, rfl, rfl⟩ := Attempt.runs_state_pure.mp hend
      exact ⟨by simpa using hpeer, by simp [verdict, he, Except.map]⟩
    | true =>
      simp only [he, Bool.not_true, Bool.false_eq_true, if_false] at hend
      cases hh : m.holdsOn (d.selectorFor f) space labels with
      | error fault =>
        simp only [hh] at hend
        obtain ⟨rfl, rfl, rfl⟩ := Attempt.runs_state_throw.mp hend
        exact ⟨by simpa using hpeer, by simp [verdict, he, hh, Except.map]⟩
      | ok live =>
        simp only [hh] at hend
        obtain ⟨rfl, rfl, rfl⟩ := Attempt.runs_state_pure.mp hend
        exact ⟨by simpa using hpeer, by simp [verdict, he, hh, Except.map]⟩

theorem liveOwner_runs_free {m : Mapper} {self space : String} {f : Feature} {labels : Labels}
    {r : Except Fault (Option String × Memory)}
    (h : Runs i ((m.liveOwner self none f space labels).run st).run c tr r c') :
    tr = [] ∧ r = .ok (none, st) ∧ c' = c := Attempt.runs_state_pure.mp h

theorem liveOwner_runs_self {m : Mapper} {self space : String} {f : Feature} {labels : Labels}
    {r : Except Fault (Option String × Memory)}
    (h : Runs i ((m.liveOwner self (some self) f space labels).run st).run c tr r c') :
    tr = [] ∧ r = .ok (some self, st) ∧ c' = c := by
  simp only [liveOwner, if_true] at h
  exact Attempt.runs_state_pure.mp h

/-- The guard objects exactly if the owner that it finds live is another one. -/
theorem judge_runs {m : Mapper} {self space : String} {f : Feature} {owner : Option String}
    {labels : Labels} {r : Except Fault (Unit × Memory)}
    (h : Runs i ((m.judge self space f owner labels).run st).run c tr r c') :
    (∃ fault, r = .error fault ∧
        Runs i ((m.liveOwner self owner f space labels).run st).run c tr (.error fault) c') ∨
      ∃ live st₁ tr₁ tr₂, tr = tr₁ ++ tr₂ ∧ OnlyNotes tr₂ ∧
        Runs i ((m.liveOwner self owner f space labels).run st).run c tr₁ (.ok (live, st₁)) c' ∧
        r = if resolve live self = .conflict then .error (.ownership ⟨space, f, live.getD "", self⟩)
          else .ok ((), st₁.decide f (resolve live self)) := by
  rcases Attempt.runs_state_bind.mp h with hfail | ⟨tr₁, live, st₁, c₁, tr₂, rfl, hlive, hrest⟩
  · exact .inl hfail
  refine .inr ⟨live, st₁, tr₁, tr₂, rfl, ?_⟩
  by_cases hconflict : resolve live self = .conflict
  · simp only [hconflict, if_true] at hrest ⊢
    obtain ⟨tr₃, _, c₂, tr₄, rfl, hcount, hthrow⟩ := Attempt.runs_state_session_bind.mp hrest
    obtain ⟨rfl, rfl⟩ := Session.runs_note.mp hcount
    obtain ⟨rfl, rfl, rfl⟩ := Attempt.runs_state_throw.mp hthrow
    exact ⟨by simp [OnlyNotes], hlive, rfl⟩
  · simp only [hconflict, if_false] at hrest ⊢
    by_cases hstale : ∃ stale, owner = some stale ∧ live = none
    · obtain ⟨stale, rfl, rfl⟩ := hstale
      obtain ⟨tr₃, _, c₂, tr₄, rfl, hinfo, hmodify⟩ := Attempt.runs_state_session_bind.mp hrest
      obtain ⟨rfl, rfl⟩ := Session.runs_note.mp hinfo
      obtain ⟨rfl, rfl, rfl⟩ := Attempt.runs_state_modify.mp hmodify
      exact ⟨by simp [OnlyNotes], hlive, rfl⟩
    · have hmodify : Runs i ((modify (·.decide f (resolve live self)) : Judging Unit).run st₁).run c₁
          tr₂ r c' := by
        cases owner with
        | none => exact hrest
        | some stale =>
          cases live with
          | none => exact absurd ⟨stale, rfl, rfl⟩ hstale
          | some live => exact hrest
      obtain ⟨rfl, rfl, rfl⟩ := Attempt.runs_state_modify.mp hmodify
      exact ⟨by simp [OnlyNotes], hlive, rfl⟩

theorem peer_within (name : String) (st : Memory) :
    ((peer name).run st).run.Within Request.IsReading := by
  refine Attempt.within_state_bind trivial fun m st => ?_
  cases m.peers.lookup name with
  | some known => trivial
  | none =>
    exact Attempt.within_state_bind (Attempt.within_state_lift (DynaKubes.get?_within _))
      fun found st => trivial

theorem judge_within (m : Mapper) (self space : String) (f : Feature) (owner : Option String)
    (labels : Labels) (st : Memory) :
    ((m.judge self space f owner labels).run st).run.Within Request.IsReading := by
  refine Attempt.within_state_bind ?_ fun live st => ?_
  · cases owner with
    | none => trivial
    | some other =>
      unfold liveOwner
      by_cases hself : other = self
      · simp only [hself, if_true]
        trivial
      simp only [hself, if_false]
      refine Attempt.within_state_bind (peer_within other st) fun found st => ?_
      cases found with
      | none => trivial
      | some d =>
        dsimp only
        cases d.enables f with
        | false => trivial
        | true => cases m.holdsOn (d.selectorFor f) space labels <;> trivial
  · by_cases hconflict : resolve live self = .conflict
    · simp only [hconflict, if_true]
      trivial
    · simp only [hconflict, if_false]
      cases owner <;> cases live <;> trivial

theorem consult_within (m : Mapper) (self space : String) (labels : Labels) (features : List Feature)
    (st : Memory) :
    ((Ledger.consult (m.judge self space) labels features).run st).run.Within Request.IsReading := by
  induction features generalizing st with
  | nil => trivial
  | cons f rest ih =>
    exact Attempt.within_state_bind ⟨trivial, judge_within m self space f _ labels st⟩ fun _ st => ih st

/-- Every owner among the labels is the DynaKube itself, or one that is remembered and whose claim has
lapsed. -/
def Free (self : String) (labels : Labels) (m : Memory) (f : Feature) : Prop :=
  ∀ owner, Labels.owner? labels f = some owner → owner ≠ self →
    ∃ found, m.peers.lookup owner = some found ∧ Lapsed found f labels

theorem Free.mono {self : String} {labels : Labels} {f : Feature} (h : Free self labels st f)
    (hl : Learns past st tr st') : Free self labels st' f := by
  intro owner howner hne
  obtain ⟨found, hfound, hlapsed⟩ := h owner howner hne
  exact ⟨found, hl.kept owner found hfound, hlapsed⟩

/-- What the guard lets pass is free. -/
theorem judge_learns {m : Mapper} {self space : String} {f : Feature} {labels : Labels}
    (hi : i.Truthful) (hk : st.Known past) (hs : space ≠ m.operatorNamespace)
    (h : Runs i ((m.judge self space f (Labels.owner? labels f) labels).run st).run c tr
      (.ok ((), st')) c') : Learns past st tr st' ∧ Free self labels st' f := by
  rcases judge_runs h with ⟨fault, hf, -⟩ | ⟨live, st₁, tr₁, tr₂, rfl, hnotes, hlive, hr⟩
  · cases hf
  by_cases hconflict : resolve live self = .conflict
  · rw [if_pos hconflict] at hr
    cases hr
  rw [if_neg hconflict] at hr
  cases hr
  cases howner : Labels.owner? labels f with
  | none =>
    rw [howner] at hlive
    obtain ⟨rfl, hr, -⟩ := liveOwner_runs_free hlive
    cases hr
    exact ⟨(Learns.refl hk).notes hnotes rfl, fun owner h => by simp [howner] at h⟩
  | some owner =>
    rw [howner] at hlive
    by_cases hself : owner = self
    · subst hself
      obtain ⟨rfl, hr, -⟩ := liveOwner_runs_self hlive
      cases hr
      refine ⟨(Learns.refl hk).notes hnotes rfl, fun other h hne => ?_⟩
      rw [howner] at h
      exact absurd (Option.some.inj h).symm hne
    · rcases liveOwner_runs hself hlive with ⟨fault, hf, -⟩ | ⟨found, st₂, hpeer, hr⟩
      · cases hf
      obtain ⟨hlearns, hfound⟩ := peer_learns hi hk hpeer
      cases hverdict : m.verdict owner f space labels found with
      | error fault =>
        rw [hverdict] at hr
        cases hr
      | ok v =>
        rw [hverdict] at hr
        cases hr
        have hnone : live = none := by
          refine (verdict_ok hverdict).resolve_right fun hsome => hconflict ?_
          exact resolve_eq_conflict_iff.mpr ⟨owner, hsome, (Labels.owner?_eq_some_iff.mp howner).2, hself⟩
        subst hnone
        refine ⟨hlearns.notes hnotes rfl, fun other h hne => ?_⟩
        rw [howner] at h
        cases h
        exact ⟨found, hfound, (verdict_eq_none_iff hs).mp hverdict⟩

/-- Every feature that the guard was shown and let pass is free. -/
theorem consulted_learns {m : Mapper} {self space : String} {features : List Feature} {labels : Labels}
    (hi : i.Truthful) (hk : st.Known past) (hs : space ≠ m.operatorNamespace)
    (h : Ledger.Consulted i (m.judge self space) labels features st c tr st' c') :
    Learns past st tr st' ∧ ∀ f ∈ features, Free self labels st' f := by
  induction h generalizing past with
  | nil st c => exact ⟨.refl hk, by simp⟩
  | @cons f rest st st₁ st₂ c c₁ c₂ tr₁ tr₂ shown others ih =>
    have hnote : Learns past st [.told (.examined f (Labels.owner? labels f) labels)] st :=
      (Learns.refl hk).notes (.single _) rfl
    obtain ⟨hjudged, hfree⟩ := judge_learns hi hnote.known hs shown
    obtain ⟨hothers, hrest⟩ := ih (hnote.trans hjudged).known
    refine ⟨hnote.trans (hjudged.trans ?_), fun g hg => ?_⟩
    · rwa [List.append_assoc]
    · rcases List.mem_cons.mp hg with rfl | hg
      · exact hfree.mono hothers
      · exact hrest g hg

end Mapper
end NamespaceOwnership
