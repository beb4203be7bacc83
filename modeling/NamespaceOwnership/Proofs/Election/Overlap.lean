import NamespaceOwnership.Proofs.Election.Exclusion

/-!
# When two leaders overlap

Where a leader may lead for longer than its lease is in force, two replicas can lead at the same time: one of them
takes the lease and then fails to renew it, and when the lease runs out the other one takes it over before the first
one steps down. So the timings decide whether there is at most one leader.
-/
namespace NamespaceOwnership

open Elector (Standing)
open Session (Plays)
open Relation (ReflTransGen)

variable {ι : Type} [DecidableEq ι] {k : Contest ι} {m m' : Arena ι} {i a b : ι}

namespace Contest

variable {p : ι → Session (Option Standing)} {s s' : Standing}

/-- The moment after a replica has taken the lease with the first cycle of a campaign. -/
def taken (k : Contest ι) (i : ι) (m : Arena ι) (old : Option LeaseSpec) (version : String) : Arena ι :=
  { m.put ((k.elector i).renewal old m.now) version with
    phase := Function.update m.phase i (.waiting (m.now + 1000 * k.common.retryPeriod))
    leading := Function.update m.leading i true
    stopping := Function.update m.stopping i false }

/-- What the time leaves alone while only one replica takes part. -/
structure Unmoved (a : ι) (m m' : Arena ι) : Prop where
  lease : m'.lease = m.lease
  issued : m'.issued = m.issued
  leading : m'.leading = m.leading
  stopping : m'.stopping = m.stopping
  others : ∀ j, j ≠ a → m'.phase j = m.phase j

omit [DecidableEq ι] in
theorem Unmoved.trans {m'' : Arena ι} (first : Unmoved a m m') (second : Unmoved a m' m'') : Unmoved a m m'' where
  lease := second.lease.trans first.lease
  issued := second.issued.trans first.issued
  leading := second.leading.trans first.leading
  stopping := second.stopping.trans first.stopping
  others j hj := (second.others j hj).trans (first.others j hj)

theorem Unmoved.setPhase {phase : Phase} : Unmoved a m (m.setPhase a phase) where
  lease := rfl
  issued := rfl
  leading := rfl
  stopping := rfl
  others _ hj := Function.update_of_ne hj _ _

omit [DecidableEq ι] in
theorem Unmoved.pass {now : Int} : Unmoved a m { m with now } := ⟨rfl, rfl, rfl, rfl, fun _ _ => rfl⟩

/-- Before the first replica begins, with a lease that nobody holds. -/
def vacant : Arena ι where
  now := 0
  lease := some ⟨none, "0"⟩
  issued := {"0"}
  known l hl := by
    cases hl
    exact Set.mem_singleton _
  phase _ := .away
  leading _ := false
  stopping _ := false

/-- Two replicas. -/
def pair (leaseDuration renewDeadline retryPeriod : Int)
    (h : renewDeadline < leaseDuration ∧ retryPeriod < renewDeadline ∧ 1 ≤ retryPeriod) : Contest Bool where
  common := ⟨⟨"ns", "lease"⟩, "", leaseDuration, renewDeadline, retryPeriod, h.1, h.2.1, by omega⟩
  identity i := if i then "b" else "a"
  distinct := by
    unfold Function.Injective
    decide
  named := by decide
  periodic := h.2.2
  boot _ := 0

end Contest
end NamespaceOwnership
