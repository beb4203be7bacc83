import Mathlib.Data.Set.Insert
import Mathlib.Logic.Relation
import NamespaceOwnership.Election.Elector
import NamespaceOwnership.Proofs.Course

/-!
# How one cycle takes the lease

Other replicas may create, replace and delete the lease before each request of a cycle, with whatever content, and any
request may fail without effect. No version comes twice, and the lease is replaced at its present version only
and created only where there is none. So what a cycle has read and judged is still there, or there is still nothing,
when its write is accepted: it takes only a lease that is free (`Elector.cycle_takes`).
-/
namespace NamespaceOwnership

open Session (Course)

/-- The lease, with all versions that it has had. -/
structure LeaseState where
  lease : Option Lease
  issued : Set String
  known : ∀ l ∈ lease, l.version ∈ issued

namespace LeaseState

def put (m : LeaseState) (spec : Option LeaseSpec) (version : String) : LeaseState where
  lease := some ⟨spec, version⟩
  issued := insert version m.issued
  known l hl := by
    cases hl
    exact Set.mem_insert _ _

def drop (m : LeaseState) : LeaseState where
  lease := none
  issued := m.issued
  known _ hl := nomatch hl

variable {m m₁ m₂ m' : LeaseState}

/-- What another replica may do to the lease. -/
inductive Foreign (m : LeaseState) : LeaseState → Prop where
  | created {version : String} (spec : Option LeaseSpec) (absent : m.lease = none) (fresh : version ∉ m.issued) :
      Foreign m (m.put spec version)
  | replaced {l : Lease} {version : String} (spec : Option LeaseSpec) (present : m.lease = some l)
      (fresh : version ∉ m.issued) : Foreign m (m.put spec version)
  | deleted : Foreign m m.drop

abbrev Moves : LeaseState → LeaseState → Prop := Relation.ReflTransGen Foreign

/-- What a request may be answered, and the lease right after it. A request that fails has no effect. -/
inductive Answers (m : LeaseState) : (request : Request) → request.Answer → LeaseState → Prop where
  | failed {call : ApiCall} (failure : CallFailure) : Answers m (.api call) (.error failure) m
  | read {name : LeaseName} {l : Lease} (present : m.lease = some l) : Answers m (.api (.readLease name)) (.ok l) m
  | created {name : LeaseName} {spec : LeaseSpec} {version : String} (absent : m.lease = none)
      (fresh : version ∉ m.issued) : Answers m (.api (.createLease name spec)) (.ok ()) (m.put (some spec) version)
  | replaced {name : LeaseName} {spec : LeaseSpec} {l : Lease} {version : String} (present : m.lease = some l)
      (fresh : version ∉ m.issued) :
      Answers m (.api (.replaceLease name spec l.version)) (.ok ()) (m.put (some spec) version)
  | wallTime (answer : Except CalendarError Int) : Answers m .wallTime answer m

/-- A request of the replica, with the lease right before it and right after it. -/
structure Access where
  before : LeaseState
  act : Act
  after : LeaseState

/-- The lease is written. -/
def Access.Wins (x : Access) : Prop :=
  (∃ name spec, x.act = .asked (.api (.createLease name spec)) (.ok ())) ∨
    ∃ name spec version, x.act = .asked (.api (.replaceLease name spec version)) (.ok ())

/-- The acts of a replica among those of the others. -/
inductive Among : LeaseState → List Act → List Access → Prop where
  | done (m : LeaseState) : Among m [] []
  | told {m : LeaseState} {acts : List Act} {tr : List Access} (note : Note) (rest : Among m acts tr) :
      Among m (.told note :: acts) tr
  | asked {m m₁ m₂ : LeaseState} {request : Request} {answer : request.Answer} {acts : List Act} {tr : List Access}
      (others : Moves m m₁) (answered : m₁.Answers request answer m₂) (rest : Among m₂ acts tr) :
      Among m (.asked request answer :: acts) (⟨m₁, .asked request answer, m₂⟩ :: tr)

/-- The lease is still the same, or it has a version that was not there before. -/
structure Outdates (m m' : LeaseState) : Prop where
  issued : m.issued ⊆ m'.issued
  fresh : m'.lease = m.lease ∨ ∀ l ∈ m'.lease, l.version ∉ m.issued

theorem Outdates.trans (h : m.Outdates m₁) (h' : m₁.Outdates m₂) : m.Outdates m₂ where
  issued := h.issued.trans h'.issued
  fresh := by
    rcases h'.fresh with hsame | hfresh
    · rw [hsame]
      exact h.fresh
    · exact .inr fun l hl hissued => hfresh l hl (h.issued hissued)

theorem Foreign.outdates (h : m.Foreign m') : m.Outdates m' := by
  have hput {spec : Option LeaseSpec} {version : String} (hfresh : version ∉ m.issued) :
      m.Outdates (m.put spec version) := by
    refine ⟨Set.subset_insert _ _, .inr fun l hl => ?_⟩
    cases hl
    exact hfresh
  cases h with
  | created _ _ fresh | replaced _ _ fresh => exact hput fresh
  | deleted => exact ⟨subset_rfl, .inr fun _ hl => nomatch hl⟩

theorem Moves.outdates (h : Moves m m') : m.Outdates m' := by
  induction h with
  | refl => exact ⟨subset_rfl, .inl rfl⟩
  | tail _ hlast ih => exact ih.trans hlast.outdates

/-- A lease that has still the version that was read is what was read. -/
theorem Moves.lease_eq {l l' : Lease} (h : Moves m m') (hl : m.lease = some l) (hl' : m'.lease = some l')
    (hversion : l'.version = l.version) : l' = l := by
  rcases h.outdates.fresh with hsame | hfresh
  · rw [hl, hl'] at hsame
    exact Option.some.inj hsame
  · exact absurd (hversion ▸ m.known l hl) (hfresh l' hl')

end LeaseState

open LeaseState

namespace Elector

variable {e : Elector} {now : Int} {acts : List Act} {r : Except Fault Bool}

/-- The lease is nobody's but that of the replica, or it has run out. -/
def Free (e : Elector) (now : Int) (lease : Option Lease) : Prop :=
  lease = none ∨ ∃ l, lease = some l ∧ (l.spec = none ∨ ∃ spec, l.spec = some spec ∧
    (spec.holder = none ∨ spec.holder = some "" ∨ spec.holder = some e.identity ∨ spec.renewed = none ∨
      ∃ t, spec.renewed = some t ∧ 1000 * spec.duration.getD e.leaseDuration ≤ now - t))

/-- The lease names the replica, which renewed it at that time. -/
def Holds (e : Elector) (now : Int) (lease : Option Lease) : Prop :=
  ∃ l spec, lease = some l ∧ l.spec = some spec ∧ spec.holder = some e.identity ∧ spec.renewed = some now

theorem stated_le_validity (e : Elector) (spec : LeaseSpec) : spec.duration.getD e.leaseDuration ≤ e.validity spec := by
  unfold validity
  cases hduration : spec.duration with
  | none => exact le_rfl
  | some d =>
    dsimp only [Option.getD_some]
    split
    · have hperiod := e.retryPeriod_nonneg
      have hless := e.retryPeriod_lt
      have hlease := e.renewDeadline_lt
      omega
    · exact le_rfl

theorem free_of_not_heldByOther {l : Lease} (h : e.heldByOther l.spec now = false) : e.Free now (some l) := by
  refine .inr ⟨l, rfl, ?_⟩
  cases hspec : l.spec with
  | none => exact .inl rfl
  | some spec =>
    refine .inr ⟨spec, rfl, ?_⟩
    rw [hspec] at h
    cases hholder : spec.holder with
    | none => exact .inl rfl
    | some holder =>
      cases hrenewed : spec.renewed with
      | none => exact .inr (.inr (.inr (.inl rfl)))
      | some renewed =>
        have hstated := e.stated_le_validity spec
        simp only [heldByOther, hholder, hrenewed, Bool.and_eq_false_iff, bne_eq_false_iff_eq, decide_eq_false_iff_not,
          or_assoc] at h
        rcases h with rfl | rfl | hexpired
        · exact .inr (.inl rfl)
        · exact .inr (.inr (.inl rfl))
        · exact .inr (.inr (.inr (.inr ⟨renewed, rfl, by omega⟩)))

/-- How a cycle, or what is left of it, ends after its clock has shown that time. -/
structure Takes (e : Elector) (now : Int) (tr : List Access) (r : Except Fault Bool) : Prop where
  won : r = .ok true ↔ ∃ x ∈ tr, x.Wins
  last : ∀ x ∈ tr, x.Wins → tr.getLast? = some x
  free : ∀ x ∈ tr, x.Wins → e.Free now x.before.lease
  held : ∀ x ∈ tr, x.Wins → e.Holds now x.after.lease

namespace Takes

variable {tr : List Access} {x : Access}

theorem nothing (h : r ≠ .ok true) : e.Takes now [] r where
  won := by simp [h]
  last _ hx := nomatch hx
  free _ hx := nomatch hx
  held _ hx := nomatch hx

theorem cons (hx : ¬x.Wins) (h : e.Takes now tr r) : e.Takes now (x :: tr) r where
  won := by simp [h.won, hx]
  last y hy hwins := by
    rcases List.mem_cons.mp hy with rfl | hy
    · exact absurd hwins hx
    · rw [List.getLast?_cons, h.last y hy hwins, Option.getD_some]
  free y hy hwins := by
    rcases List.mem_cons.mp hy with rfl | hy
    · exact absurd hwins hx
    · exact h.free y hy hwins
  held y hy hwins := by
    rcases List.mem_cons.mp hy with rfl | hy
    · exact absurd hwins hx
    · exact h.held y hy hwins

theorem write (hr : r = .ok true) (hx : x.Wins) (hfree : e.Free now x.before.lease)
    (hheld : e.Holds now x.after.lease) : e.Takes now [x] r where
  won := by simp [hr, hx]
  last y hy _ := by rw [List.mem_singleton.mp hy]; rfl
  free y hy _ := by rwa [List.mem_singleton.mp hy]
  held y hy _ := by rwa [List.mem_singleton.mp hy]

end Takes

section Cycle

variable {m : LeaseState} {tr : List Access}

/-- A refusal is logged, unless it has that status. -/
private theorem refused_course {status : Option Int} {text : String}
    (h : Course (do
      if status != some 409 then Session.warning text
      return false : Attempt Bool).run acts r) : r = .ok false ∧ ∃ told : List Note, acts = told.map .told := by
  by_cases hstatus : (status != some 409) = true
  · rw [if_pos hstatus] at h
    obtain ⟨_, _, rest, rfl, hnote, hend⟩ := Attempt.course_lift_bind.mp h
    obtain rfl := Session.course_note.mp hnote
    obtain ⟨rfl, rfl⟩ := Attempt.course_pure.mp hend
    exact ⟨rfl, [_], rfl⟩
  · rw [if_neg hstatus] at h
    obtain ⟨rfl, rfl⟩ := Attempt.course_pure.mp h
    exact ⟨rfl, [], rfl⟩

/-- Nothing is asked any more. -/
theorem Takes.lost {told : List Note} (hr : r ≠ .ok true) (h : Among m (told.map .told) tr) : e.Takes now tr r := by
  induction told with
  | nil =>
    cases h
    exact .nothing hr
  | cons _ _ ih =>
    cases h with
    | told _ rest => exact ih rest

theorem create_takes (h : Course (e.create now).run acts r) (hamong : Among m acts tr) : e.Takes now tr r := by
  obtain ⟨_, reply, rest, rfl, hcall, hend⟩ := Attempt.course_lift_bind.mp h
  obtain rfl := Session.course_request.mp hcall
  cases hamong with
  | asked others answered hrest =>
    cases answered with
    | failed failure =>
      refine .cons (by simp [Access.Wins]) ?_
      cases failure with
      | refused status reason =>
        obtain ⟨rfl, told, rfl⟩ := refused_course hend
        exact .lost nofun hrest
      | _ =>
        obtain ⟨rfl, rfl⟩ := Attempt.course_throw.mp hend
        cases hrest
        exact .nothing nofun
    | created absent fresh =>
      obtain ⟨_, _, _, rfl, hnote, hreturn⟩ := Attempt.course_lift_bind.mp hend
      obtain rfl := Session.course_note.mp hnote
      obtain ⟨rfl, rfl⟩ := Attempt.course_pure.mp hreturn
      cases hrest with
      | told _ hdone =>
        cases hdone
        exact .write rfl (.inl ⟨_, _, rfl⟩) (.inl absent) ⟨_, _, rfl, rfl, rfl, rfl⟩

theorem claim_takes {l : Lease} (hfree : e.heldByOther l.spec now = false) (hread : m.lease = some l)
    (h : Course (e.claim l now).run acts r) (hamong : Among m acts tr) : e.Takes now tr r := by
  obtain ⟨_, reply, rest, rfl, hcall, hend⟩ := Attempt.course_lift_bind.mp h
  obtain rfl := Session.course_request.mp hcall
  cases hamong with
  | asked others answered hrest =>
    generalize hversion : l.version = version at answered
    cases answered with
    | failed failure =>
      refine .cons (by simp [Access.Wins]) ?_
      cases failure with
      | refused status reason =>
        obtain ⟨rfl, told, rfl⟩ := refused_course hend
        exact .lost nofun hrest
      | _ =>
        obtain ⟨rfl, rfl⟩ := Attempt.course_throw.mp hend
        cases hrest
        exact .nothing nofun
    | replaced present fresh =>
      obtain ⟨rfl, rfl⟩ := Attempt.course_pure.mp hend
      cases hrest
      obtain rfl := Moves.lease_eq others hread present hversion.symm
      exact .write rfl (.inr ⟨_, _, _, rfl⟩) (present ▸ free_of_not_heldByOther hfree) ⟨_, _, rfl, rfl, rfl, rfl⟩

private theorem wallTime_course {r : Except Fault Int} (h : Course Attempt.wallTime.run acts r) :
    (∃ now, acts = [.asked .wallTime (.ok now)] ∧ r = .ok now) ∨
      ∃ error, acts = [.asked .wallTime (.error error)] ∧ r = .error (.calendar error) := by
  obtain ⟨_, answer, rest, rfl, hrequest, hend⟩ := Attempt.course_lift_bind.mp h
  obtain rfl := Session.course_request.mp hrequest
  cases answer with
  | ok now =>
    obtain ⟨rfl, rfl⟩ := Attempt.course_pure.mp hend
    exact .inl ⟨now, rfl, rfl⟩
  | error error =>
    obtain ⟨rfl, rfl⟩ := Attempt.course_throw.mp hend
    exact .inr ⟨error, rfl, rfl⟩

/-- A cycle looks at the clock, reads the lease and judges it, and then writes it or leaves it. -/
theorem cycle_course (h : Course e.cycle.run acts r) :
    (∃ error, acts = [.asked .wallTime (.error error)] ∧ r = .error (.calendar error)) ∨
      ∃ now reply later, acts = .asked .wallTime (.ok now) :: .asked (.api (.readLease e.lease)) reply :: later ∧
        match reply with
        | .ok l => e.heldByOther l.spec now = true ∧ later = [] ∧ r = .ok false ∨
          e.heldByOther l.spec now = false ∧ Course (e.claim l now).run later r
        | .error _ => Course (e.create now).run later r ∨
          (∃ told : List Note, later = told.map .told) ∧ r ≠ .ok true := by
  rcases Attempt.course_bind.mp h with ⟨fault, rfl, hclock⟩ | ⟨_, now, rest, rfl, hclock, hread⟩
  · rcases wallTime_course hclock with ⟨_, _, hr⟩ | ⟨error, rfl, hr⟩
    · cases hr
    · exact .inl ⟨error, rfl, by rw [Except.error.inj hr]⟩
  rcases wallTime_course hclock with ⟨_, rfl, hr⟩ | ⟨_, _, hr⟩ <;> cases hr
  obtain ⟨_, reply, later, rfl, hcall, hend⟩ := Attempt.course_lift_bind.mp hread
  obtain rfl := Session.course_request.mp hcall
  refine .inr ⟨now, reply, later, rfl, ?_⟩
  cases reply with
  | ok l =>
    dsimp only at hend
    by_cases hheld : e.heldByOther l.spec now = true
    · rw [if_pos hheld] at hend
      obtain ⟨rfl, rfl⟩ := Attempt.course_pure.mp hend
      exact .inl ⟨hheld, rfl, rfl⟩
    · rw [if_neg hheld] at hend
      exact .inr ⟨Bool.eq_false_iff.mpr hheld, hend⟩
  | error failure =>
    cases failure with
    | refused status reason =>
      dsimp only at hend
      by_cases hstatus : status = some 404
      · rw [if_pos hstatus] at hend
        exact .inl hend
      · rw [if_neg hstatus] at hend
        obtain ⟨_, _, _, rfl, hnote, hreturn⟩ := Attempt.course_lift_bind.mp hend
        obtain rfl := Session.course_note.mp hnote
        obtain ⟨rfl, rfl⟩ := Attempt.course_pure.mp hreturn
        exact .inr ⟨⟨[_], rfl⟩, by simp⟩
    | _ =>
      obtain ⟨rfl, rfl⟩ := Attempt.course_throw.mp hend
      exact .inr ⟨⟨[], rfl⟩, by simp⟩

end Cycle

/-- A cycle among others that create, replace and delete the lease at any time, with any content and always with a new
version. It holds the lease at its end if and only if its own write was accepted. That write is its last request. Right
before it the lease was free by the clock with which the cycle began, and right after it the lease names the replica
and states that time. -/
theorem cycle_takes {m : LeaseState} {tr : List Access} (h : Course e.cycle.run acts r) (hamong : Among m acts tr) :
    (r = .ok true ↔ ∃ x ∈ tr, x.Wins) ∧ ∀ x ∈ tr, x.Wins → tr.getLast? = some x ∧
      ∃ now rest, acts = .asked .wallTime (.ok now) :: rest ∧ e.Free now x.before.lease ∧
        e.Holds now x.after.lease := by
  rcases cycle_course h with ⟨error, rfl, rfl⟩ | ⟨now, reply, later, rfl, hlater⟩
  · cases hamong with
    | asked _ _ hrest =>
      cases hrest
      simp [Access.Wins]
  have htakes : e.Takes now tr r := by
    cases hamong with
    | asked _ hclock hrest =>
      refine .cons (by simp [Access.Wins]) ?_
      cases hrest with
      | asked _ answered hrest =>
        refine .cons (by simp [Access.Wins]) ?_
        cases answered with
        | read present =>
          rcases hlater with ⟨-, rfl, rfl⟩ | ⟨hfree, hclaim⟩
          · cases hrest
            exact .nothing (by simp)
          · exact claim_takes hfree present hclaim hrest
        | failed failure =>
          rcases hlater with hcreate | ⟨⟨told, rfl⟩, hr⟩
          · exact create_takes hcreate hrest
          · exact .lost hr hrest
  exact ⟨htakes.won, fun x hx hwins =>
    ⟨htakes.last x hx hwins, now, _, rfl, htakes.free x hx hwins, htakes.held x hx hwins⟩⟩

section Expired

private def candidate : Elector := ⟨⟨"ns", "lease"⟩, "a", 20, 12, 1, by decide, by decide, by decide⟩

private def nobody : LeaseState := ⟨none, ∅, fun _ hl => nomatch hl⟩

private def theirs : LeaseSpec := ⟨some "b", some 10, some 0, some 0⟩

private def taking : List Act :=
  [.asked .wallTime (.ok 20000), .asked (.api (.readLease candidate.lease)) (.ok ⟨some theirs, "1"⟩),
    .asked (.api (.replaceLease candidate.lease (candidate.renewal (some theirs) 20000) "1")) (.ok ())]

/-- The lease that another replica creates after the cycle has begun has already run out. -/
theorem cycle_takes_expired : ∃ tr, Among nobody taking tr ∧ Course candidate.cycle.run taking (.ok true) ∧
    ∃ x ∈ tr, x.Wins ∧ candidate.Free 20000 x.before.lease ∧ candidate.Holds 20000 x.after.lease := by
  have hcourse : Course candidate.cycle.run taking (.ok true) := .ask (.ask (.ask (.done _)))
  have hcreated : Moves nobody (nobody.put (some theirs) "1") := .single (.created _ rfl (Set.notMem_empty _))
  have hamong : Among nobody taking _ :=
    .asked .refl (.wallTime _) (.asked hcreated (.read rfl) (.asked .refl
      (.replaced (l := ⟨some theirs, "1"⟩) rfl (by simp [LeaseState.put, nobody] : "2" ∉ _)) (.done _)))
  obtain ⟨hwon, hwins⟩ := cycle_takes hcourse hamong
  obtain ⟨x, hx, hwin⟩ := hwon.mp rfl
  obtain ⟨-, now, rest, hacts, hfree, hholds⟩ := hwins x hx hwin
  cases hacts
  exact ⟨_, hamong, hcourse, x, hx, hwin, hfree, hholds⟩

end Expired

end Elector
end NamespaceOwnership
