import Mathlib.Data.Set.Insert
import Mathlib.Logic.Relation
import NamespaceOwnership.Election.Campaign
import NamespaceOwnership.Proofs.Conduct

/-!
# Replicas that contend for a lease

Any number of replicas with the same timings campaign for one lease and share one clock. An `Arena` is the state that
they share. The lease is replaced only at the version that was read and created only where there is none, every call
may fail without effect, and time passes only while every replica waits, and not beyond the end of any wait, which is
cut short where the replica is asked to stop. `Contest.Meanwhile` is what one of them can tell about the time between
two of its own steps: as long as its lease has not run out, the others leave it alone.
-/
namespace NamespaceOwnership

structure Contest (ι : Type) where
  /-- The lease and the timings of all replicas. -/
  common : Elector
  identity : ι → String
  distinct : Function.Injective identity
  named : ∀ i, identity i ≠ ""
  periodic : 1 ≤ common.retryPeriod
  /-- Where the clock of a replica starts. -/
  boot : ι → Int

/-- Whether a replica takes part, and until when it waits. -/
inductive Contest.Phase where
  | away
  | busy
  | waiting (wake : Int)
  deriving DecidableEq

structure Arena (ι : Type) where
  now : Int
  lease : Option Lease
  /-- All versions that the lease has had. -/
  issued : Set String
  known : ∀ l ∈ lease, l.version ∈ issued
  phase : ι → Contest.Phase
  leading : ι → Bool
  /-- Who was asked to stop. -/
  stopping : ι → Bool

variable {ι : Type} {m m' : Arena ι} {i j : ι}

/-- The lease is written anew. -/
def Arena.put (m : Arena ι) (spec : LeaseSpec) (version : String) : Arena ι :=
  { m with
    lease := some ⟨some spec, version⟩
    issued := insert version m.issued
    known := fun l hl => by
      cases hl
      exact Set.mem_insert _ _ }

/-- What a call may be answered, and the moment right after it. -/
def Arena.Replies (m : Arena ι) : (call : ApiCall) → Except CallFailure call.Reply → Arena ι → Prop
  | _, .error _, m' => m' = m
  | .readLease _, .ok lease, m' => m' = m ∧ m.lease = some lease
  | .createLease _ spec, .ok _, m' => m.lease = none ∧ ∃ version, version ∉ m.issued ∧ m' = m.put spec version
  | .replaceLease _ spec old, .ok _, m' =>
    (∃ l, m.lease = some l ∧ l.version = old) ∧ ∃ version, version ∉ m.issued ∧ m' = m.put spec version
  | _, .ok _, m' => m' = m

namespace Contest

variable {k : Contest ι}

def elector (k : Contest ι) (i : ι) : Elector := { k.common with identity := k.identity i }

/-- The lease names the replica and was renewed at that time. -/
def HeldSince (k : Contest ι) (i : ι) (t : Int) (m : Arena ι) : Prop :=
  ∃ l spec, m.lease = some l ∧ l.spec = some spec ∧ spec.holder = some (k.identity i) ∧
    spec.duration = some k.common.leaseDuration ∧ spec.renewed = some t

/-- When a lease that was renewed at that time runs out. -/
def expiry (k : Contest ι) (t : Int) : Int := t + 1000 * k.common.leaseDuration

theorem HeldSince.congr {t : Int} (h : k.HeldSince i t m) (hlease : m'.lease = m.lease) : k.HeldSince i t m' := by
  unfold HeldSince
  rwa [hlease]

/-- What a replica can tell about two moments between two of its own steps. -/
structure Meanwhile (k : Contest ι) (i : ι) (m m' : Arena ι) : Prop where
  later : m.now ≤ m'.now
  leading : m'.leading i = m.leading i
  stopping : m.stopping i = true → m'.stopping i = true
  away : m.phase i = .away → m'.phase i = .away
  busy : m.phase i = .busy → m'.phase i = .busy ∧ m'.now = m.now
  waiting : ∀ wake, m.phase i = .waiting wake → (m'.now = m.now ∨ m'.now ≤ wake) ∧
    (m'.phase i = .waiting wake ∨ m'.phase i = .busy ∧ (m'.now = wake ∨ m'.stopping i = true))
  issued : m.issued ⊆ m'.issued
  fresh : m'.lease = m.lease ∨ ∀ l ∈ m'.lease, l.version ∉ m.issued
  kept : ∀ t, k.HeldSince i t m → m'.now < k.expiry t → m'.lease = m.lease

namespace Meanwhile

theorem refl : k.Meanwhile i m m where
  later := le_rfl
  leading := rfl
  stopping := id
  away := id
  busy h := ⟨h, rfl⟩
  waiting _ h := ⟨.inl rfl, .inl h⟩
  issued := subset_rfl
  fresh := .inl rfl
  kept _ _ _ := rfl

theorem trans {m'' : Arena ι} (first : k.Meanwhile i m m') (second : k.Meanwhile i m' m'') :
    k.Meanwhile i m m'' where
  later := first.later.trans second.later
  leading := second.leading.trans first.leading
  stopping := second.stopping ∘ first.stopping
  away := second.away ∘ first.away
  busy h := ⟨(second.busy (first.busy h).1).1, (second.busy (first.busy h).1).2.trans (first.busy h).2⟩
  waiting wake h := by
    obtain ⟨hnow, hwaiting | ⟨hbusy, hwoken⟩⟩ := first.waiting wake h
    · obtain ⟨hnow', hphase⟩ := second.waiting wake hwaiting
      refine ⟨?_, hphase⟩
      rcases hnow' with hnow' | hnow'
      · rwa [hnow']
      · exact .inr hnow'
    · obtain ⟨hbusy', hnow'⟩ := second.busy hbusy
      rw [hnow']
      exact ⟨hnow, .inr ⟨hbusy', hwoken.imp_right second.stopping⟩⟩
  issued := first.issued.trans second.issued
  fresh := by
    rcases second.fresh with hsame | hfresh
    · rw [hsame]
      exact first.fresh
    · exact .inr fun l hl hissued => hfresh l hl (first.issued hissued)
  kept t hheld hnow := by
    have hsame : m'.lease = m.lease := first.kept t hheld (second.later.trans_lt hnow)
    exact (second.kept t (hheld.congr hsame) hnow).trans hsame

/-- Nothing changes but what concerns others. -/
theorem of_same (hnow : m'.now = m.now) (hlease : m'.lease = m.lease) (hissued : m'.issued = m.issued)
    (hphase : m'.phase i = m.phase i) (hleading : m'.leading i = m.leading i)
    (hstopping : m.stopping i = true → m'.stopping i = true) : k.Meanwhile i m m' where
  later := hnow.ge
  leading := hleading
  stopping := hstopping
  away := hphase.trans
  busy h := ⟨hphase.trans h, hnow⟩
  waiting _ h := ⟨.inl hnow, .inl (hphase.trans h)⟩
  issued := hissued.ge
  fresh := .inl hlease
  kept _ _ _ := hlease

/-- The lease is written anew while it does not name that replica, or has run out. -/
theorem put {spec : LeaseSpec} {version : String} (hfresh : version ∉ m.issued)
    (hfree : ∀ t, k.HeldSince i t m → k.expiry t ≤ m.now) : k.Meanwhile i m (m.put spec version) where
  later := le_rfl
  leading := rfl
  stopping := id
  away := id
  busy h := ⟨h, rfl⟩
  waiting _ h := ⟨.inl rfl, .inl h⟩
  issued := Set.subset_insert _ _
  fresh := .inr fun l hl => by
    cases hl
    exact hfresh
  kept t hheld hnow := absurd (hfree t hheld) (not_le.mpr hnow)

end Meanwhile

/-- The replica was asked to stop and is about to give up its lease. -/
def Leaving (i : ι) (m : Arena ι) : Prop := m.stopping i = true ∧ m.phase i = .busy

/-- The lease of a leader that is not leaving is in force. -/
def Secured (k : Contest ι) (i : ι) (m : Arena ι) : Prop :=
  m.leading i = true → Leaving i m ∨ ∃ t, k.HeldSince i t m ∧ m.now < k.expiry t

end Contest

variable [DecidableEq ι]

namespace Arena

def setPhase (m : Arena ι) (i : ι) (phase : Contest.Phase) : Arena ι :=
  { m with phase := Function.update m.phase i phase }

def setLeading (m : Arena ι) (i : ι) (leading : Bool) : Arena ι :=
  { m with leading := Function.update m.leading i leading }

def setStopping (m : Arena ι) (i : ι) (stopping : Bool) : Arena ι :=
  { m with stopping := Function.update m.stopping i stopping }

/-- What a replica notes about itself. -/
def hear (m : Arena ι) (i : ι) : Note → Arena ι
  | .leading yes => m.setLeading i yes
  | _ => m

end Arena

namespace Contest

variable {k : Contest ι}

/-- What a request of a replica may be answered, and the moment right after it. -/
def Answers (k : Contest ι) (i : ι) (m : Arena ι) : (r : Request) → r.Answer → Arena ι → Prop
  | .api call, reply, m' => m.Replies call reply m'
  | .wallTime, answer, m' => m' = m ∧ ∀ time, answer = .ok time → time = m.now
  | .clock, time, m' => m' = m ∧ time = m.now - k.boot i
  | .stopRequested, yes, m' => m' = m ∧ yes = m.stopping i
  | .pause milliseconds, _, m' => m' = m.setPhase i (.waiting (m.now + milliseconds))
  | _, _, m' => m' = m

/-- A replica owes the others that what it does looks to them as if it were done meanwhile. -/
def conduct (k : Contest ι) (i : ι) : Conduct (Arena ι) where
  meanwhile := k.Meanwhile i
  refl _ := .refl
  trans := .trans
  hears note m m' := m.phase i = .busy ∧ m' = m.hear i note
  answers r a m m' := m.phase i = .busy ∧ k.Answers i m r a m'
  holds m := m.phase i ≠ .away ∧ k.Secured i m
  owes _ _ m m' := ∀ j, j ≠ i → k.Meanwhile j m m'

/-- All replicas with what each of them has still to do. -/
abbrev State (ι : Type) := Arena ι × (ι → Session (Option Elector.Standing))

/-- A replica begins a campaign, takes one step of it or is done with it, is asked to stop or ends its wait, or time
passes. -/
inductive Step (k : Contest ι) : State ι → State ι → Prop where
  | begin {m : Arena ι} {p : ι → Session (Option Elector.Standing)} (i : ι) (n : Nat) (away : m.phase i = .away) :
      Step k (m, p)
        ((m.setPhase i .busy).setStopping i false, Function.update p i ((k.elector i).campaignFor n false))
  | tell {m m' : Arena ι} {p : ι → Session (Option Elector.Standing)} (i : ι) {note : Note}
      {next : Session (Option Elector.Standing)} (told : p i = .tell note next)
      (heard : (k.conduct i).hears note m m') : Step k (m, p) (m', Function.update p i next)
  | ask {m m' : Arena ι} {p : ι → Session (Option Elector.Standing)} (i : ι) {r : Request}
      {next : r.Answer → Session (Option Elector.Standing)} (asked : p i = .ask r next) (a : r.Answer)
      (answered : (k.conduct i).answers r a m m') : Step k (m, p) (m', Function.update p i (next a))
  | finish {m : Arena ι} {p : ι → Session (Option Elector.Standing)} (i : ι) {s : Elector.Standing}
      (done : p i = .done (some s)) (busy : m.phase i = .busy) : Step k (m, p) (m.setPhase i .away, p)
  | stop {m : Arena ι} {p : ι → Session (Option Elector.Standing)} (i : ι) : Step k (m, p) (m.setStopping i true, p)
  | wake {m : Arena ι} {p : ι → Session (Option Elector.Standing)} (i : ι) {wake : Int}
      (waiting : m.phase i = .waiting wake) (due : m.now = wake ∨ m.stopping i = true) :
      Step k (m, p) (m.setPhase i .busy, p)
  | pass {m : Arena ι} {p : ι → Session (Option Elector.Standing)} (now : Int) (later : m.now ≤ now)
      (idle : ∀ i, m.phase i ≠ .busy) (due : ∀ i wake, m.phase i = .waiting wake → now ≤ wake) :
      Step k (m, p) ({ m with now }, p)

/-- Before anybody begins, whatever the lease is. -/
def Begins (s : State ι) : Prop := ∀ i, s.1.phase i = .away ∧ s.1.leading i = false

namespace Meanwhile

variable {phase : Phase} {yes : Bool}

theorem setPhase (hij : i ≠ j) : k.Meanwhile i m (m.setPhase j phase) :=
  .of_same rfl rfl rfl (Function.update_of_ne hij _ _) rfl id

theorem setLeading (hij : i ≠ j) : k.Meanwhile i m (m.setLeading j yes) :=
  .of_same rfl rfl rfl rfl (Function.update_of_ne hij _ _) id

theorem setStopping (hij : i ≠ j) : k.Meanwhile i m (m.setStopping j yes) :=
  .of_same rfl rfl rfl rfl rfl fun h => (Function.update_of_ne hij _ _).trans h

theorem hear (hij : i ≠ j) (note : Note) : k.Meanwhile i m (m.hear j note) := by
  cases note with
  | leading yes => exact setLeading hij
  | _ => exact .refl

theorem stop : k.Meanwhile i m (m.setStopping j true) := by
  refine .of_same rfl rfl rfl rfl rfl fun h => ?_
  by_cases hij : i = j
  · subst hij
    exact Function.update_self _ _ _
  · exact (Function.update_of_ne hij _ _).trans h

theorem wake {wake : Int} (hwaiting : m.phase i = .waiting wake) (hdue : m.now = wake ∨ m.stopping i = true) :
    k.Meanwhile i m (m.setPhase i .busy) where
  later := le_rfl
  leading := rfl
  stopping := id
  away h := by cases hwaiting.symm.trans h
  busy h := by cases hwaiting.symm.trans h
  waiting other h := by
    cases hwaiting.symm.trans h
    exact ⟨.inl rfl, .inr ⟨Function.update_self _ _ _, hdue⟩⟩
  issued := subset_rfl
  fresh := .inl rfl
  kept _ _ _ := rfl

omit [DecidableEq ι] in
theorem pass {now : Int} (hlater : m.now ≤ now) (hidle : m.phase i ≠ .busy)
    (hdue : ∀ wake, m.phase i = .waiting wake → now ≤ wake) : k.Meanwhile i m { m with now } where
  later := hlater
  leading := rfl
  stopping := id
  away := id
  busy h := absurd h hidle
  waiting wake h := ⟨.inr (hdue wake h), .inl h⟩
  issued := subset_rfl
  fresh := .inl rfl
  kept _ _ _ := rfl

end Meanwhile

end Contest
end NamespaceOwnership
