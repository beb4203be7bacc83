import NamespaceOwnership.Proofs.Controller.Upkeep
import NamespaceOwnership.Proofs.Number.Nearest

/-!
# How long a watch lasts

The books have a time for each repetition and for the next resync; these are the duties of the controller. A watch
lasts a whole number of seconds from one to thirty, which is computed from the difference between now and the first of
these times. The difference is a floating-point number and is rounded. Where it is rounded down to a whole number of
seconds, the watch ends too early, if only by `2 ^ -49` seconds, and one more watch of a second follows
(`Books.FallsShort`). Otherwise what is at most thirty seconds away is due when the watch ends, and it ends less than a
second after that (`Books.Timely`). What is done then are the duties that are due at that moment: no repetition moves
the next resync, so that nothing is added to them and nothing is taken away (`Controller.drain_run`).
-/
namespace NamespaceOwnership

open Number (Binary64)
open Session (Course)

variable {α : Type} {k : Controller} {b : Books} {now first : Binary64} {t : ℕ}

/-- Work that the books have a time for. -/
inductive Duty where
  | repetition (name : Value)
  | resync

variable {duty : Duty}

namespace Books

/-- The duty is due at that time. -/
def Awaits (b : Books) : Duty → Binary64 → Prop
  | .repetition name, time => (name, time) ∈ b.pending.entries
  | .resync, time => b.nextResync = some time

/-- The times at which something is due. -/
def wakeTimes (b : Books) : Set Binary64 := {time | ∃ duty, b.Awaits duty time}

/-- Nothing is due before. -/
structure IsFirst (b : Books) (first : Binary64) : Prop where
  mem : first ∈ b.wakeTimes
  le : ∀ time ∈ b.wakeTimes, first.value ≤ time.value

/-- The duties that are due by now, in the order in which they are carried out. -/
def duties (b : Books) (now : Binary64) : List Duty :=
  (b.due now).map .repetition ++ if b.nextResync.any (·.le now) then [.resync] else []

theorem mem_duties : duty ∈ b.duties now ↔ ∃ time, time.le now = true ∧ b.Awaits duty time := by
  cases duty with
  | repetition name => simp [duties, due, Awaits, and_comm]
  | resync => cases hnext : b.nextResync <;> simp [duties, Awaits, hnext]

/-- What is due first is among the duties of any time from `ended` on. -/
def Reaches (b : Books) (first ended : Binary64) : Prop :=
  ∀ later, ended.le later = true → ∀ duty time, b.Awaits duty time → time.value = first.value → duty ∈ b.duties later

/-- The difference between the times has been rounded down to the length of the watch. When it is over, the next one
lasts a second, and then what is due first is carried out. -/
structure FallsShort (b : Books) (now first : Binary64) (t : ℕ) : Prop where
  rounded : (first.sub now).value = t
  early : now.value + t < first.value
  early_le : first.value ≤ now.value + t + 2 ^ (-49 : ℤ)
  again : b.watchTimeout (now.add (.ofInt t)) = .ok 1
  reaches : b.Reaches first ((now.add (.ofInt t)).add (.ofInt 1))

/-- A watch of `t` seconds is as long as it should be. The end of the watch is a number, which may have been rounded. -/
structure Timely (b : Books) (now first : Binary64) (t : ℕ) : Prop where
  one_le : 1 ≤ t
  le_thirty : t ≤ 30
  not_late : now.value < first.value → now.value + t < first.value + 1
  reaches : first.value ≤ now.value + 30 → b.Reaches first (now.add (.ofInt t)) ∨ b.FallsShort now first t

section Length

theorem mem_wakeTimes {time : Binary64} :
    time ∈ b.wakeTimes ↔ time ∈ b.pending.entries.map Prod.snd ++ b.nextResync.toList := by
  rw [List.mem_append, List.mem_map, Option.mem_toList]
  constructor
  · rintro ⟨duty, hawaits⟩
    cases duty with
    | repetition name => exact .inl ⟨_, hawaits, rfl⟩
    | resync => exact .inr hawaits
  · rintro (⟨⟨name, time⟩, hmem, rfl⟩ | hnext)
    · exact ⟨.repetition name, hmem⟩
    · exact ⟨.resync, hnext⟩

theorem one_second : (Binary64.ofInt 1).IsNumber ∧ (Binary64.ofInt 1).value = 1 := by
  simpa using Binary64.ofNat_eq (n := 1) (by norm_num)

/-- That the end of a watch is rounded does not take it before a time that is a number. -/
theorem reaches_of_le (hnow : now.IsNumber) (hb : ∀ time ∈ b.wakeTimes, time.IsNumber) (hfirst : b.IsFirst first)
    (ht : t ≤ 30) (hle : first.value ≤ now.value + t) : b.Reaches first (now.add (.ofInt t)) := by
  intro later hlater duty time hduty heq
  have hended := Binary64.add_ofNat_nearest hnow (by omega : t < 2 ^ 53)
  have htime : time.IsNumber := hb time ⟨duty, hduty⟩
  have hvalue : time.value ≤ (now.add (.ofInt t)).value := heq.trans_le (hended.le_value (hb first hfirst.mem) hle)
  exact mem_duties.mpr ⟨time, Binary64.le_of_value_le htime.isFinite hended.isNumber.isFinite hvalue hlater, hduty⟩

theorem IsFirst.value_eq {other : Binary64} (h : b.IsFirst first) (h' : b.IsFirst other) : first.value = other.value :=
  le_antisymm (h.le other h'.mem) (h'.le first h.mem)

/-- Where the difference up to the first time is finite, the watch lasts so many seconds, rounded up, but no less than
one and no more than thirty. -/
theorem watchTimeout_cases (hnow : now.IsNumber) (hb : ∀ time ∈ b.wakeTimes, time.IsNumber) :
    b.wakeTimes = ∅ ∧ b.watchTimeout now = .ok 30 ∨ ∃ first, b.IsFirst first ∧
      (((first.sub now).isFinite = true ∧ ∃ t : ℕ, b.watchTimeout now = .ok t ∧
          (t : ℤ) = min 30 (max 1 ⌈(first.sub now).value⌉)) ∨
        first.value < now.value ∧ b.watchTimeout now = .ok 1 ∨
        first.sub now = .infinite false ∧ b.watchTimeout now = .error (.object .infinite)) := by
  unfold watchTimeout
  split
  · rename_i hnone
    refine .inl ⟨Set.eq_empty_of_forall_notMem fun time hmem => ?_, rfl⟩
    rw [mem_wakeTimes, hnone] at hmem
    cases hmem
  rename_i time rest htimes
  have hall (x : Binary64) (hx : x ∈ time :: rest) : x ∈ b.wakeTimes := mem_wakeTimes.mpr (htimes ▸ hx)
  obtain ⟨hmem, hle⟩ := Binary64.least_spec rest (hb time (hall time List.mem_cons_self))
    fun x hx => hb x (hall x (List.mem_cons_of_mem _ hx))
  have hfirst : b.IsFirst (Binary64.least time rest) :=
    ⟨hall _ hmem, fun x hx => hle x (htimes ▸ mem_wakeTimes.mp hx)⟩
  refine .inr ⟨_, hfirst, ?_⟩
  generalize Binary64.least time rest = first at hfirst
  have hnumber : first.IsNumber := hb first hfirst.mem
  cases hfinite : (first.sub now).isFinite with
  | true =>
    obtain ⟨hone, hvalue⟩ := one_second
    obtain ⟨hmax, heq⟩ := Binary64.max_eq hone (Binary64.sub_nearest hnumber hnow hfinite).isNumber
    refine .inl ⟨rfl, min longestWatch (max 1 ⌈((Binary64.ofInt 1).max (first.sub now)).value⌉.toNat), ?_, ?_⟩
    · simp only [Binary64.ceil?_eq hmax]
    · rw [heq, hvalue, Int.ceil_mono.map_max, Int.ceil_one, longestWatch]
      omega
  | false =>
    have hpast : (Binary64.ofInt 1).max (.infinite true) = .ofInt 1 := by decide +kernel
    have hnever : (Binary64.ofInt 1).max (.infinite false) = .infinite false := by decide +kernel
    have hceil : (Binary64.ofInt 1).ceil? = some 1 := by decide +kernel
    rw [Binary64.sub_eq_infinite hnumber hnow hfinite]
    by_cases hlt : first.value < now.value
    · refine .inr (.inl ⟨hlt, ?_⟩)
      simp only [hlt, decide_true, hpast, hceil]
      rfl
    · refine .inr (.inr ?_)
      simp only [hlt, decide_false, hnever, true_and]
      rfl

/-- A watch that begins at most a second before the first time lasts a second. -/
theorem watchTimeout_eq_one (hnow : now.IsNumber) (hb : ∀ time ∈ b.wakeTimes, time.IsNumber) (hfirst : b.IsFirst first)
    (hsoon : |first.value - now.value| ≤ 1) : b.watchTimeout now = .ok 1 := by
  obtain ⟨hone, hvalue⟩ := one_second
  obtain ⟨hnone, -⟩ | ⟨other, hother, hcases⟩ := watchTimeout_cases hnow hb
  · exact absurd hfirst.mem (hnone ▸ Set.notMem_empty _)
  have hnumber : other.IsNumber := hb other hother.mem
  rw [hfirst.value_eq hother] at hsoon
  obtain ⟨hfinite, t, ht, hlength⟩ | ⟨-, ht⟩ | ⟨hinfinite, -⟩ := hcases
  · have hrounded : (other.sub now).value ≤ 1 := by
      rw [← hvalue]
      exact (Binary64.sub_nearest hnumber hnow hfinite).value_le hone (hvalue ▸ (abs_le.mp hsoon).2)
    have hceil : ⌈(other.sub now).value⌉ ≤ 1 := Int.ceil_le.mpr (by exact_mod_cast hrounded)
    rw [ht]
    congr
    omega
  · exact ht
  · have hoverflow : (1 : ℚ) < Binary64.overflow := lt_trans (by norm_num) Binary64.two_pow_lt_overflow
    have hfinite := Binary64.isFinite_sub hnumber hnow (hsoon.trans_lt hoverflow)
    rw [hinfinite] at hfinite
    cases hfinite

/-- From one to thirty the numbers are at most `2 ^ -48` apart. -/
theorem le_of_rounded {x : Binary64} {q : ℚ} (hx : x.Nearest q) (ht : t < 30) (hvalue : x.value = t) (hle : t ≤ q) :
    q ≤ t + 2 ^ (-49 : ℤ) := by
  let next : Binary64 := .finite false (t * 2 ^ 48 + 1) (-48)
  have hnext : next.IsNumber := ⟨by omega, by norm_num, by norm_num⟩
  have hstep : next.value = t + 2 ^ (-49 : ℤ) + 2 ^ (-49 : ℤ) := by
    simp only [next, Binary64.value, Binary64.sign]
    norm_num
    ring
  have hpos : (0 : ℚ) < 2 ^ (-49 : ℤ) := by positivity
  have hbelow : q < next.value := by
    by_contra hge
    have habove := hx.le_value hnext (not_lt.mp hge)
    linarith
  have hdist := hx.dist_le next hnext
  rw [hvalue, abs_of_nonpos (by linarith), abs_of_pos (by linarith)] at hdist
  linarith

/-- A watch that ends before the first time, but had a finite difference and less than the greatest length. -/
theorem fallsShort_of_lt (hnow : now.IsNumber) (hb : ∀ time ∈ b.wakeTimes, time.IsNumber) (hfirst : b.IsFirst first)
    (hfinite : (first.sub now).isFinite = true) (hmost : t < 30) (hceil : ⌈(first.sub now).value⌉ ≤ t)
    (hearly : now.value + t < first.value) : b.FallsShort now first t := by
  have hnumber : first.IsNumber := hb first hfirst.mem
  have hrounded := Binary64.sub_nearest hnumber hnow hfinite
  obtain ⟨hseconds, hvalue⟩ := Binary64.ofNat_eq (by omega : t < 2 ^ 53)
  have heq : (first.sub now).value = t := by
    refine le_antisymm (by exact_mod_cast Int.ceil_le.mp hceil) ?_
    rw [← hvalue]
    exact hrounded.le_value hseconds (by linarith)
  have hlate := le_of_rounded hrounded hmost heq (by linarith)
  -- the end of the watch is rounded by no more than what is missing
  have hended := Binary64.add_ofNat_nearest hnow (by omega : t < 2 ^ 53)
  have hclose : |first.value - (now.add (.ofInt t)).value| ≤ 1 := by
    have hdist := hended.dist_le first hnumber
    rw [abs_of_pos (by linarith : 0 < first.value - (now.value + t)), abs_le] at hdist
    obtain ⟨hbelow, habove⟩ := hdist
    have hsmall : first.value - now.value ≤ t + 1 / 2 := hlate.trans (by norm_num)
    rw [abs_le]
    constructor <;> linarith
  have hagain : first.value ≤ (now.add (.ofInt t)).value + (1 : ℕ) := by
    push_cast
    linarith [(abs_le.mp hclose).2]
  exact ⟨heq, hearly, by linarith, watchTimeout_eq_one hended.isNumber hb hfirst hclose,
    reaches_of_le hended.isNumber hb hfirst (by norm_num) hagain⟩

theorem timely_of_length (hnow : now.IsNumber) (hb : ∀ time ∈ b.wakeTimes, time.IsNumber) (hfirst : b.IsFirst first)
    (hfinite : (first.sub now).isFinite = true) (ht : (t : ℤ) = min 30 (max 1 ⌈(first.sub now).value⌉)) :
    b.Timely now first t := by
  have hrounded := Binary64.sub_nearest (hb first hfirst.mem) hnow hfinite
  have hmost : t ≤ 30 := by omega
  refine ⟨by omega, hmost, fun hlater => ?_, fun hsoon => ?_⟩
  · -- if it ended later, the difference would be at most a second less
    by_contra hlate
    obtain ⟨shorter, rfl⟩ : ∃ shorter, t = shorter + 1 := Nat.exists_eq_add_of_le' (by omega)
    push_cast at hlate
    obtain ⟨hseconds, hvalue⟩ := Binary64.ofNat_eq (by omega : shorter < 2 ^ 53)
    have hle : (first.sub now).value ≤ shorter := by
      rw [← hvalue]
      exact hrounded.value_le hseconds (by linarith)
    have hceil : ⌈(first.sub now).value⌉ ≤ shorter := Int.ceil_le.mpr (by exact_mod_cast hle)
    obtain rfl : shorter = 0 := by omega
    rw [Nat.cast_zero] at hlate
    linarith
  · rcases le_or_gt first.value (now.value + t) with hle | hearly
    · exact .inl (reaches_of_le hnow hb hfirst hmost hle)
    · have hlt : t < 30 := by
        have hlt : (t : ℚ) < 30 := by linarith
        exact_mod_cast hlt
      exact .inr (fallsShort_of_lt hnow hb hfirst hfinite hlt (by omega) hearly)

end Length
end Books

/-- Whatever happens, the time of the next resync stays as it is. -/
def Control.KeepsPlan (x : Control α) : Prop := Sustains (fun b _ b' => b'.nextResync = b.nextResync) x

namespace Controller

open Control (KeepsPlan Sustains)

section Plan

private theorem plan_composes : Control.Composes fun b _ b' => b'.nextResync = b.nextResync where
  refl _ := rfl
  trans h h' := h'.trans h

theorem keepsPlan_closed : Control.Closed fun x => KeepsPlan x := Sustains.closed plan_composes fun _ _ _ => rfl

/-- An attempt does not touch the books. -/
theorem keepsPlan_attempt (x : Attempt α) : KeepsPlan (Control.attempt x) := .attempt fun _ _ _ _ => rfl

theorem keepsPlan_housekeeping : Control.Housekeeping fun x => KeepsPlan x where
  toClosed := keepsPlan_closed
  modify _ hg := .modify hg
  pending _ := .note fun _ => rfl
  clock := .request fun _ _ => rfl
  report _ _ _ := keepsPlan_attempt _

theorem reconcile_keepsPlan (d : DynaKube) : KeepsPlan (k.reconcile d) :=
  keepsPlan_housekeeping.reconcile (fun _ => .note fun _ => rfl) (fun _ => .note fun _ => rfl) (keepsPlan_attempt _)

theorem unmap_keepsPlan (name : Value) : KeepsPlan (k.unmap name) :=
  keepsPlan_housekeeping.unmap (fun _ => .note fun _ => rfl) (fun _ => .note fun _ => rfl) (keepsPlan_attempt _)

theorem retryAll_keepsPlan (names : List Value) : KeepsPlan (k.retryAll names) := by
  refine keepsPlan_closed.retryAll (fun name => ?_) keepsPlan_housekeeping.repeatLater names
  exact keepsPlan_closed.retry (keepsPlan_attempt _) (unmap_keepsPlan name) reconcile_keepsPlan

end Plan

/-- A repetition that is refused its DynaKube is put off, and so is a resync that is refused. -/
def carryOut (k : Controller) : Duty → Control Unit
  | .repetition name => k.retryAll [name]
  | .resync => k.periodicResync

def carryOutAll (k : Controller) : List Duty → Control Unit
  | [] => return
  | duty :: rest => do
    k.carryOut duty
    k.carryOutAll rest

theorem retryAll_cons (name : Value) (rest : List Value) : k.retryAll (name :: rest) = (do
    k.retryAll [name]
    k.retryAll rest) := by
  simp only [retryAll, bind_assoc]
  congr 1
  funext _
  congr 1
  funext result
  split <;> simp only [bind_assoc, pure_bind]

theorem carryOutAll_singleton (duty : Duty) : k.carryOutAll [duty] = k.carryOut duty := bind_pure_unit

/-- Repetitions are carried out one by one. -/
theorem carryOutAll_repetitions (names : List Value) (rest : List Duty) :
    k.carryOutAll (names.map .repetition ++ rest) = (do
      k.retryAll names
      k.carryOutAll rest) := by
  induction names with
  | nil => simp [retryAll]
  | cons name names ih =>
    rw [retryAll_cons, bind_assoc, ← ih]
    rfl

/-- Due work is to carry out the duties that are due when it begins, until one of them raises. -/
theorem drain_run (k : Controller) (b : Books) (now : Binary64) :
    (k.drain now).run.run b = (k.carryOutAll (b.duties now)).run.run b := by
  rw [Books.duties, carryOutAll_repetitions, drain_eq]
  change (k.retryAll (b.due now) >>= _ : Control Unit).run.run b = _
  rw [Control.run_bind, Control.run_bind]
  refine Session.bind_congr fun acts ⟨r, b'⟩ hcourse => ?_
  cases r with
  | error fault => rfl
  | ok _ =>
    -- whether the resync is due is looked up only now, but that has not changed
    have hplan : b'.nextResync = b.nextResync := retryAll_keepsPlan _ _ _ _ _ hcourse
    change (if b'.nextResync.any (·.le now) then k.periodicResync else pure ()).run.run b' = _
    rw [hplan]
    split
    · rw [carryOutAll_singleton]
      rfl
    · rfl

/-- How long a watch lasts, wherever the times are numbers. Only if the difference up to the first time is too large for
a number it has no length. The duties that are due when it is over are the ones that are carried out then. -/
theorem watch_ends_on_time (k : Controller) (b : Books) (now : Binary64) (hnow : now.IsNumber)
    (hb : ∀ time ∈ b.wakeTimes, time.IsNumber) :
    (b.wakeTimes = ∅ ∧ b.watchTimeout now = .ok 30 ∨ ∃ first, b.IsFirst first ∧
      ((∃ t : ℕ, b.watchTimeout now = .ok t ∧ b.Timely now first t) ∨
        first.sub now = .infinite false ∧ b.watchTimeout now = .error (.object .infinite))) ∧
    ∀ later, (k.drain later).run.run b = (k.carryOutAll (b.duties later)).run.run b := by
  refine ⟨?_, k.drain_run b⟩
  obtain hnone | ⟨first, hfirst, hcases⟩ := Books.watchTimeout_cases hnow hb
  · exact .inl hnone
  refine .inr ⟨first, hfirst, ?_⟩
  obtain ⟨hfinite, t, ht, hlength⟩ | ⟨hpast, ht⟩ | hnever := hcases
  · exact .inl ⟨t, ht, Books.timely_of_length hnow hb hfirst hfinite hlength⟩
  · refine .inl ⟨1, ht, le_rfl, by norm_num, fun hlater => absurd hlater hpast.not_gt, fun _ => .inl ?_⟩
    exact Books.reaches_of_le hnow hb hfirst (by norm_num) (by linarith [Nat.cast_one (R := ℚ)])
  · exact .inr hnever

/-- The difference between 64.9 and 63.9 is rounded up to more than a second. -/
example : ({ nextResync := some (Clock.seconds 64900) } : Books).watchTimeout (Clock.seconds 63900) = .ok 2 := rfl

theorem seconds_isNumber {time : ℤ} (h : (Clock.seconds time).isFinite = true) : (Clock.seconds time).IsNumber :=
  (Binary64.ofQuotient_nearest (by norm_num) h).isNumber

/-- With a repetition due in 5.2 seconds and a resync due in 2.5 seconds a watch lasts three seconds. -/
theorem watch_ends_on_time_resync : ∃ (k : Controller) (b : Books) (now first : Binary64), now.IsNumber ∧
    (∀ time ∈ b.wakeTimes, time.IsNumber) ∧ b.Awaits (.repetition (.text "dk")) (Clock.seconds 105200) ∧
    b.Awaits .resync first ∧ b.IsFirst first ∧ b.watchTimeout now = .ok 3 ∧ b.Timely now first 3 ∧
    (k.drain (Clock.seconds 103000)).run.run b =
      (k.carryOutAll (b.duties (Clock.seconds 103000))).run.run b ∧ .resync ∈ b.duties (Clock.seconds 103000) := by
  let b : Books := { pending := ⟨[(.text "dk", Clock.seconds 105200)]⟩, nextResync := some (Clock.seconds 102500) }
  have hnow : (Clock.seconds 100000).IsNumber := seconds_isNumber (by decide +kernel)
  have hrepetition : (Clock.seconds 105200).IsNumber := seconds_isNumber (by decide +kernel)
  have hresync : (Clock.seconds 102500).IsNumber := seconds_isNumber (by decide +kernel)
  have hb (time : Binary64) (htime : time ∈ b.wakeTimes) :
      time = Clock.seconds 105200 ∨ time = Clock.seconds 102500 := by
    obtain ⟨duty, hduty⟩ := htime
    cases duty with
    | repetition name =>
      cases List.mem_singleton.mp hduty
      exact .inl rfl
    | resync =>
      cases hduty
      exact .inr rfl
  have hnumbers (time : Binary64) (htime : time ∈ b.wakeTimes) : time.IsNumber := by
    rcases hb time htime with rfl | rfl
    · exact hrepetition
    · exact hresync
  have hlt : (Clock.seconds 102500).value < (Clock.seconds 105200).value :=
    (Binary64.lt_iff hresync.isFinite hrepetition.isFinite).mp (by decide +kernel)
  have hlength : b.watchTimeout (Clock.seconds 100000) = .ok 3 := by rfl
  let k : Controller := ⟨⟨⟨2, Nat.two_pos⟩, "operator"⟩, 30, 300⟩
  obtain ⟨⟨hnone, -⟩ | ⟨first, hfirst, ⟨t, ht, htimely⟩ | ⟨-, hnever⟩⟩, hdrain⟩ :=
    watch_ends_on_time k b (Clock.seconds 100000) hnow hnumbers
  · have hmem : Clock.seconds 102500 ∈ b.wakeTimes := ⟨.resync, rfl⟩
    rw [hnone] at hmem
    cases hmem
  · obtain rfl : first = Clock.seconds 102500 := by
      refine (hb first hfirst.mem).resolve_left ?_
      rintro rfl
      exact absurd (hfirst.le _ ⟨.resync, rfl⟩) hlt.not_ge
    rw [hlength] at ht
    cases ht
    refine ⟨k, b, _, _, hnow, hnumbers, List.mem_singleton_self _, rfl, hfirst, hlength, htimely, hdrain _, ?_⟩
    exact Books.mem_duties.mpr ⟨_, by decide +kernel, rfl⟩
  · rw [hlength] at hnever
    cases hnever

/-- A millisecond after the clock began a resync is planned for five seconds later. When a watch begins a second
after that, the difference up to the resync is rounded down to four seconds, and the resync is not due at their end. -/
theorem watch_falls_short : ∃ (b : Books) (now first : Binary64), now.IsNumber ∧ first.IsNumber ∧
    now = Clock.seconds 1001 ∧ first = (Clock.seconds 1).add (.ofInt 5) ∧ b.IsFirst first ∧ b.Awaits .resync first ∧
    first.value ≤ now.value + 30 ∧ b.watchTimeout now = .ok 4 ∧ .resync ∉ b.duties (now.add (.ofInt 4)) := by
  let b : Books := { nextResync := some ((Clock.seconds 1).add (.ofInt 5)) }
  have hplanned : (Clock.seconds 1).IsNumber := seconds_isNumber (by decide +kernel)
  have hnow : (Clock.seconds 1001).IsNumber := seconds_isNumber (by decide +kernel)
  have hfirst : ((Clock.seconds 1).add (.ofInt 5)).IsNumber :=
    (Binary64.add_ofNat_nearest hplanned (by norm_num : 5 < 2 ^ 53)).isNumber
  have hawaits (duty : Duty) (time : Binary64) (hduty : b.Awaits duty time) :
      time = (Clock.seconds 1).add (.ofInt 5) := by
    cases duty with
    | repetition name => cases hduty
    | resync =>
      cases hduty
      rfl
  have hsoon : ((Clock.seconds 1).add (.ofInt 5)).value ≤ (Clock.seconds 1001).value + 30 := by
    have hten := Binary64.ofNat_eq (n := 10) (by norm_num)
    have hbelow := (Binary64.le_iff hfirst.isFinite hten.1.isFinite).mp (by decide +kernel)
    have hzero := Binary64.ofNat_eq (n := 0) (by norm_num)
    have habove := (Binary64.le_iff hzero.1.isFinite hnow.isFinite).mp (by decide +kernel)
    rw [hten.2] at hbelow
    rw [hzero.2] at habove
    norm_num at hbelow habove
    linarith
  refine ⟨b, _, _, hnow, hfirst, rfl, rfl, ⟨⟨.resync, rfl⟩, ?_⟩, rfl, hsoon, rfl, fun hmem => ?_⟩
  · rintro time ⟨duty, hduty⟩
    rw [hawaits duty time hduty]
  · obtain ⟨time, hle, hduty⟩ := Books.mem_duties.mp hmem
    rw [hawaits _ _ hduty] at hle
    exact absurd hle (by decide +kernel)

end Controller
end NamespaceOwnership
