import NamespaceOwnership.Proofs.Election.Contest

/-!
# At most one leader

A leader whose renewals fail steps down at the end of the first of its periods that is not before the deadline for a
renewal. If its lease is still in force then, no two replicas lead at the same time: a leader knows at each of its
steps how long its lease will last, and the others do not touch the lease before that.
-/
namespace NamespaceOwnership

/-- The seconds from its last success on for which a leader may lead: the first multiple of the period that is not
before the deadline. -/
def Elector.patience (e : Elector) : Int :=
  e.retryPeriod * ((e.renewDeadline + e.retryPeriod - 1) / e.retryPeriod)

open Elector (Standing)

variable {ι : Type} [DecidableEq ι] {k : Contest ι} {m m' : Arena ι} {i j : ι} {s : Standing} {wake : Int}

theorem Elector.le_patience {e : Elector} {cycles : Int} (hpositive : 1 ≤ e.retryPeriod)
    (h : e.retryPeriod * (cycles - 1) < e.renewDeadline) : e.retryPeriod * cycles ≤ e.patience := by
  have hcycles : cycles ≤ (e.renewDeadline + e.retryPeriod - 1) / e.retryPeriod := by
    refine Int.le_ediv_of_mul_le (by omega) ?_
    rw [Int.mul_sub, Int.mul_one] at h
    rw [Int.mul_comm]
    omega
  exact Int.mul_le_mul_of_nonneg_left hcycles (by omega)

namespace Contest

open Conduct (Stage)

/-- A leader steps down before its lease runs out. -/
def Patient (k : Contest ι) : Prop := k.common.patience < k.common.leaseDuration

/-- The lease names the replica since its last success, and `wake` is the end of a period up to which it leads. -/
def Tenure (k : Contest ι) (i : ι) (s : Standing) (wake : Int) (m : Arena ι) : Prop :=
  ∃ t cycles : Int, k.HeldSince i t m ∧ s.renewed = t - k.boot i ∧
    wake = t + 1000 * (k.common.retryPeriod * cycles) ∧ k.common.retryPeriod * (cycles - 1) < k.common.renewDeadline

omit [DecidableEq ι] in
theorem Tenure.inForce (hk : k.Patient) (h : k.Tenure i s wake m) : ∃ t, k.HeldSince i t m ∧ wake < k.expiry t := by
  obtain ⟨t, cycles, hheld, -, rfl, hcycles⟩ := h
  have hle := Elector.le_patience k.periodic hcycles
  refine ⟨t, hheld, ?_⟩
  unfold expiry
  unfold Patient at hk
  omega

omit [DecidableEq ι] in
/-- Until then the others leave the lease alone. -/
theorem Tenure.stays (hk : k.Patient) (h : k.Tenure i s wake m) (hm : k.Meanwhile i m m') (hle : m'.now ≤ wake) :
    k.Tenure i s wake m' := by
  obtain ⟨t, cycles, hheld, hrest⟩ := id h
  obtain ⟨t', hheld', hlt⟩ := h.inForce hk
  have hsame : m'.lease = m.lease := hm.kept t' hheld' (hle.trans_lt hlt)
  exact ⟨t, cycles, hheld.congr hsame, hrest⟩

omit [DecidableEq ι] in
theorem Tenure.secured (hk : k.Patient) (h : k.Tenure i s wake m) (hle : m.now ≤ wake) :
    ∃ t, k.HeldSince i t m ∧ m.now < k.expiry t := by
  obtain ⟨t, hheld, hlt⟩ := h.inForce hk
  exact ⟨t, hheld, hle.trans_lt hlt⟩

/-- In a cycle. -/
def cycling (hk : k.Patient) (i : ι) (s : Standing) : Stage (k.conduct i) where
  knows m := m.phase i = .busy ∧ m.leading i = s.leading ∧ (s.leading = true → k.Tenure i s m.now m)
  stays := by
    rintro m m' ⟨hbusy, hleading, htenure⟩ hm
    obtain ⟨hbusy', hnow⟩ := Meanwhile.busy hm hbusy
    refine ⟨hbusy', (Meanwhile.leading hm).trans hleading, fun hs => ?_⟩
    rw [hnow]
    exact (htenure hs).stays hk hm hnow.le
  holds := by
    rintro m ⟨hbusy, hleading, htenure⟩
    exact ⟨hbusy ▸ nofun, fun hs => .inr ((htenure (hleading.symm.trans hs)).secured hk le_rfl)⟩

/-- At the end of a cycle, before the next wait. -/
def acted (hk : k.Patient) (i : ι) (s : Standing) : Stage (k.conduct i) where
  knows m := m.phase i = .busy ∧ m.leading i = s.leading ∧
    (s.leading = true → k.Tenure i s (m.now + 1000 * k.common.retryPeriod) m)
  stays := by
    rintro m m' ⟨hbusy, hleading, htenure⟩ hm
    obtain ⟨hbusy', hnow⟩ := Meanwhile.busy hm hbusy
    have hperiod := k.periodic
    refine ⟨hbusy', (Meanwhile.leading hm).trans hleading, fun hs => ?_⟩
    rw [hnow]
    exact (htenure hs).stays hk hm (by omega)
  holds := by
    rintro m ⟨hbusy, hleading, htenure⟩
    have hperiod := k.periodic
    exact ⟨hbusy ▸ nofun, fun hs => .inr ((htenure (hleading.symm.trans hs)).secured hk (by omega))⟩

/-- Between two cycles, until the wait is over. -/
def resting (hk : k.Patient) (i : ι) (s : Standing) : Stage (k.conduct i) where
  knows m := m.leading i = s.leading ∧ ∃ wake, m.now ≤ wake ∧
    (m.phase i = .waiting wake ∨ m.phase i = .busy ∧ (m.now = wake ∨ m.stopping i = true)) ∧
    (s.leading = true → k.Tenure i s wake m)
  stays := by
    rintro m m' ⟨hleading, wake, hle, hphase, htenure⟩ hm
    have hnext : m'.now ≤ wake ∧
        (m'.phase i = .waiting wake ∨ m'.phase i = .busy ∧ (m'.now = wake ∨ m'.stopping i = true)) := by
      rcases hphase with hwaiting | ⟨hbusy, hdue⟩
      · obtain ⟨hnow, hphase'⟩ := Meanwhile.waiting hm wake hwaiting
        exact ⟨hnow.elim (fun h => h.le.trans hle) id, hphase'⟩
      · obtain ⟨hbusy', hnow⟩ := Meanwhile.busy hm hbusy
        rw [hnow]
        exact ⟨hle, .inr ⟨hbusy', hdue.imp_right (Meanwhile.stopping hm)⟩⟩
    exact ⟨(Meanwhile.leading hm).trans hleading, wake, hnext.1, hnext.2, fun hs => (htenure hs).stays hk hm hnext.1⟩
  holds := by
    rintro m ⟨hleading, wake, hle, hphase, htenure⟩
    refine ⟨?_, fun hs => .inr ((htenure (hleading.symm.trans hs)).secured hk hle)⟩
    rcases hphase with hwaiting | ⟨hbusy, -⟩
    · exact hwaiting ▸ nofun
    · exact hbusy ▸ nofun

omit [DecidableEq ι] in
theorem lt_expiry (k : Contest ι) (t : Int) : t < k.expiry t := by
  have hperiod := k.periodic
  have hless := k.common.retryPeriod_lt
  have hlease := k.common.renewDeadline_lt
  unfold expiry
  omega

/-- The lease has just been written. -/
def won (k : Contest ι) (i : ι) (leading : Bool) : Stage (k.conduct i) where
  knows m := m.phase i = .busy ∧ m.leading i = leading ∧ k.HeldSince i m.now m
  stays := by
    rintro m m' ⟨hbusy, hleading, hheld⟩ hm
    obtain ⟨hbusy', hnow⟩ := Meanwhile.busy hm hbusy
    have hsame : m'.lease = m.lease := Meanwhile.kept hm m.now hheld (hnow ▸ k.lt_expiry m.now)
    refine ⟨hbusy', (Meanwhile.leading hm).trans hleading, ?_⟩
    rw [hnow]
    exact hheld.congr hsame
  holds := by
    rintro m ⟨hbusy, -, hheld⟩
    exact ⟨hbusy ▸ nofun, fun _ => .inr ⟨m.now, hheld, k.lt_expiry m.now⟩⟩

/-- The replica was asked to stop. -/
def leaving (k : Contest ι) (i : ι) (s : Standing) : Stage (k.conduct i) where
  knows m := m.phase i = .busy ∧ m.stopping i = true ∧ m.leading i = s.leading
  stays := by
    rintro m m' ⟨hbusy, hstopping, hleading⟩ hm
    exact ⟨(Meanwhile.busy hm hbusy).1, Meanwhile.stopping hm hstopping, (Meanwhile.leading hm).trans hleading⟩
  holds := by
    rintro m ⟨hbusy, hstopping, -⟩
    exact ⟨hbusy ▸ nofun, fun _ => .inl ⟨hstopping, hbusy⟩⟩

/-- The campaign is cut off. -/
def lasting (hk : k.Patient) (i : ι) : Stage (k.conduct i) where
  knows m := ∃ s, resting hk i s m
  stays := by
    rintro m m' ⟨s, hs⟩ hm
    exact ⟨s, (resting hk i s).stays hs hm⟩
  holds := by
    rintro m ⟨s, hs⟩
    exact (resting hk i s).holds hs

/-- The lease is still the one that was read, unless it was written anew. -/
def Seen (lease : Lease) (m : Arena ι) : Prop :=
  lease.version ∈ m.issued ∧ ∀ l ∈ m.lease, l.version = lease.version → l = lease

omit [DecidableEq ι] in
theorem Seen.stays {lease : Lease} (h : Seen lease m) (hm : k.Meanwhile i m m') : Seen lease m' := by
  refine ⟨hm.issued h.1, fun l hl hversion => ?_⟩
  rcases hm.fresh with hsame | hfresh
  · exact h.2 l (hsame ▸ hl) hversion
  · exact absurd (hversion ▸ h.1) (hfresh l hl)

omit [DecidableEq ι] in
theorem Seen.of_lease {lease : Lease} (h : m.lease = some lease) : Seen lease m := by
  refine ⟨m.known lease h, fun l hl _ => ?_⟩
  exact Option.some.inj (hl.symm.trans h)

omit [DecidableEq ι] in
/-- If it is replaced, it is the one that was read. -/
theorem Seen.lease_eq {lease : Lease} (h : Seen lease m) (hversion : ∃ l, m.lease = some l ∧ l.version = lease.version) :
    m.lease = some lease := by
  obtain ⟨l, hl, hversion⟩ := hversion
  rw [hl, h.2 l hl hversion]

omit [DecidableEq ι] in
theorem validity_eq {spec : LeaseSpec} (h : spec.duration = some k.common.leaseDuration) :
    (k.elector i).validity spec = k.common.leaseDuration := by
  have hperiod := k.periodic
  have hless := k.common.retryPeriod_lt
  have hlonger := k.common.renewDeadline_lt
  unfold Elector.validity
  rw [h]
  exact if_neg (by omega)

omit [DecidableEq ι] in
/-- A lease that another replica finds free is not in force for anybody else. -/
theorem expired {lease : Lease} {t : Int} (hij : j ≠ i) (hlease : m.lease = some lease)
    (hfree : (k.elector i).heldByOther lease.spec m.now = false) (hheld : k.HeldSince j t m) :
    k.expiry t ≤ m.now := by
  obtain ⟨l, spec, hl, hspec, hholder, hduration, hrenewed⟩ := hheld
  obtain rfl : lease = l := Option.some.inj (hlease.symm.trans hl)
  have hother : k.identity j ≠ k.identity i := fun h => hij (k.distinct h)
  unfold Elector.heldByOther at hfree
  rw [hspec] at hfree
  have hnamed : (k.identity j != "") = true := bne_iff_ne.mpr (k.named j)
  have hothers : (k.identity j != (k.elector i).identity) = true := bne_iff_ne.mpr hother
  simp only [hholder, hrenewed, validity_eq hduration, hnamed, hothers, Bool.true_and, decide_eq_false_iff_not] at hfree
  unfold expiry
  omega

section Steps

variable {α β : Type} {before : Stage (k.conduct i)} {last : β → Stage (k.conduct i)}

/-- What changes nothing keeps every stage. -/
theorem leads_quiet {r : Request} {f : r.Answer → Session β} (hr : ∀ m a m', k.Answers i m r a m' → m' = m)
    (hf : ∀ a, (k.conduct i).Leads before (f a) last) :
    (k.conduct i).Leads before (Session.request r >>= f) last := by
  refine .request_bind (fun a m m' hs ha => ?_) hf
  obtain rfl := hr m a m' ha.2
  exact ⟨fun j _ => .refl, hs⟩

/-- Nor does a note, unless it is about leading. -/
theorem leads_note {note : Note} {f : Unit → Session β} (hnote : ∀ m : Arena ι, m.hear i note = m)
    (hf : (k.conduct i).Leads before (f ()) last) : (k.conduct i).Leads before (Session.note note >>= f) last := by
  refine .note_bind (fun m m' hs hheard => ?_) hf
  obtain rfl : m' = m := hheard.2.trans (hnote m)
  exact hs

theorem leads_log {level : LogLevel} {text : String} {f : Unit → Session β}
    (hf : (k.conduct i).Leads before (f ()) last) :
    (k.conduct i).Leads before (Session.log level text >>= f) last :=
  leads_note (fun _ => rfl) hf

theorem leads_transition {yes : Bool} {after : Stage (k.conduct i)}
    (h : ∀ m, before m → after (m.setLeading i yes)) :
    (k.conduct i).Leads before (Elector.transition yes) fun _ => after := by
  have hcount (counter : Counter) : (k.conduct i).Leads after (Session.count counter) fun _ => after :=
    leads_note (fun _ => rfl) (.pure fun _ hs => hs)
  refine .note_bind (fun m m' hs hheard => ?_) (hcount _)
  obtain rfl : m' = m.setLeading i yes := hheard.2
  exact h m hs

/-- The lease was read, too. -/
def seen (stage : Stage (k.conduct i)) (lease : Lease) : Stage (k.conduct i) :=
  stage.also (Seen lease) fun _ hseen hm => hseen.stays hm

/-- What reading the lease leaves behind. -/
def read (stage : Stage (k.conduct i)) : Except CallFailure Lease → Stage (k.conduct i)
  | .ok lease => seen stage lease
  | .error _ => stage

theorem read_of_answered {name : LeaseName} (reply : Except CallFailure Lease) (m m' : Arena ι) (hs : before m)
    (ha : (k.conduct i).answers (.api (.readLease name)) reply m m') :
    (∀ j, j ≠ i → k.Meanwhile j m m') ∧ read before reply m' := by
  cases reply with
  | ok lease =>
    obtain ⟨-, rfl, hlease⟩ := ha
    exact ⟨fun j _ => .refl, hs, .of_lease hlease⟩
  | error failure =>
    obtain ⟨-, rfl⟩ := ha
    exact ⟨fun j _ => .refl, hs⟩

variable {mid : Except Fault β → Stage (k.conduct i)}

theorem leads_attempt_log {level : LogLevel} {text : String} {f : Unit → Attempt β}
    (hf : (k.conduct i).Leads before (f ()).run mid) :
    (k.conduct i).Leads before ((liftM (Session.log level text) : Attempt Unit) >>= f).run mid := by
  refine .attempt_note_bind (fun m m' hs hheard => ?_) hf
  obtain rfl : m' = m := hheard.2
  exact hs

end Steps

variable (hk : k.Patient)

/-- What a cycle leaves behind. -/
def cycled (i : ι) (s : Standing) : Except Fault Bool → Stage (k.conduct i)
  | .ok true => won k i s.leading
  | _ => cycling hk i s

/-- In a cycle whose time was read. -/
def judging (i : ι) (s : Standing) (now : Int) : Stage (k.conduct i) :=
  (cycling hk i s).also (fun m => m.now = now) fun hs hnow hm => (Meanwhile.busy hm hs.1).2.trans hnow

theorem wallTime_leads : (k.conduct i).Leads (cycling hk i s) Attempt.wallTime.run fun
    | .ok now => judging hk i s now
    | .error _ => cycling hk i s := by
  have hasked (answer : Except CalendarError Int) (m m' : Arena ι) (hs : cycling hk i s m)
      (ha : (k.conduct i).answers .wallTime answer m m') : (∀ j, j ≠ i → k.Meanwhile j m m') ∧
        (match answer with
          | .ok now => judging hk i s now
          | .error _ => cycling hk i s) m' := by
    obtain ⟨-, rfl, htime⟩ := ha
    refine ⟨fun j _ => .refl, ?_⟩
    cases answer with
    | ok now => exact ⟨hs, (htime now rfl).symm⟩
    | error e => exact hs
  refine .attempt_request_bind hasked fun answer => ?_
  cases answer with
  | ok now => exact .pure fun _ hs => hs
  | error e => exact .pure fun _ hs => hs

/-- What a call that writes the lease leaves behind. -/
def written (i : ι) (s : Standing) : Except CallFailure Unit → Stage (k.conduct i)
  | .ok _ => won k i s.leading
  | .error _ => cycling hk i s

/-- The lease may be written for a replica if it is not in force for anybody else. -/
theorem writes {spec : LeaseSpec} {version : String} (hs : cycling hk i s m) (hfresh : version ∉ m.issued)
    (hfree : ∀ j t, j ≠ i → k.HeldSince j t m → k.expiry t ≤ m.now) (hholder : spec.holder = some (k.identity i))
    (hduration : spec.duration = some k.common.leaseDuration) (hrenewed : spec.renewed = some m.now) :
    (∀ j, j ≠ i → k.Meanwhile j m (m.put spec version)) ∧ won k i s.leading (m.put spec version) :=
  ⟨fun j hij => .put hfresh fun t => hfree j t hij, hs.1, hs.2.1, _, spec, rfl, rfl, hholder, hduration, hrenewed⟩

/-- A lease is created where there is none. -/
theorem create_leads (now : Int) :
    (k.conduct i).Leads (judging hk i s now) ((k.elector i).create now).run (cycled hk i s) := by
  let spec : LeaseSpec := ⟨some (k.identity i), some k.common.leaseDuration, some now, some now⟩
  have hasked (reply : Except CallFailure Unit) (m m' : Arena ι) (hs : judging hk i s now m)
      (ha : (k.conduct i).answers (.api (.createLease k.common.lease spec)) reply m m') :
      (∀ j, j ≠ i → k.Meanwhile j m m') ∧ written hk i s reply m' := by
    cases reply with
    | ok _ =>
      obtain ⟨-, hnone, version, hfresh, rfl⟩ := ha
      refine writes hk hs.1 hfresh (fun j t _ hheld => ?_) rfl rfl (congrArg some hs.2.symm)
      obtain ⟨l, _, hl, -⟩ := hheld
      cases hnone.symm.trans hl
    | error failure =>
      obtain ⟨-, rfl⟩ := ha
      exact ⟨fun j _ => .refl, hs.1⟩
  refine .attempt_request_bind hasked fun reply => ?_
  cases reply with
  | ok _ => exact leads_attempt_log (.pure fun _ hs => hs)
  | error failure =>
    cases failure with
    | refused status reason =>
      dsimp only
      split
      · exact leads_attempt_log (.pure fun _ hs => hs)
      · exact .pure fun _ hs => hs
    | _ => exact .pure fun _ hs => hs

/-- A lease that was found free is still the one that was read, if it is replaced. -/
theorem claim_leads {lease : Lease} {now : Int} (hfree : (k.elector i).heldByOther lease.spec now = false) :
    (k.conduct i).Leads (seen (judging hk i s now) lease) ((k.elector i).claim lease now).run (cycled hk i s) := by
  have hasked (reply : Except CallFailure Unit) (m m' : Arena ι) (hs : seen (judging hk i s now) lease m)
      (ha : (k.conduct i).answers
        (.api (.replaceLease k.common.lease ((k.elector i).renewal lease.spec now) lease.version)) reply m m') :
      (∀ j, j ≠ i → k.Meanwhile j m m') ∧ written hk i s reply m' := by
    obtain ⟨⟨hcycling, rfl⟩, hseen⟩ := hs
    cases reply with
    | ok _ =>
      obtain ⟨-, hversion, version, hfresh, rfl⟩ := ha
      exact writes hk hcycling hfresh (fun j t hij => expired hij (hseen.lease_eq hversion) hfree) rfl rfl rfl
    | error failure =>
      obtain ⟨-, rfl⟩ := ha
      exact ⟨fun j _ => .refl, hcycling⟩
  refine .attempt_request_bind hasked fun reply => ?_
  cases reply with
  | ok _ => exact .pure fun _ hs => hs
  | error failure =>
    cases failure with
    | refused status reason =>
      dsimp only
      split
      · exact leads_attempt_log (.pure fun _ hs => hs)
      · exact .pure fun _ hs => hs
    | _ => exact .pure fun _ hs => hs

theorem cycle_leads : (k.conduct i).Leads (cycling hk i s) (k.elector i).cycle.run (cycled hk i s) := by
  refine .attempt_bind (wallTime_leads hk) (fun now => ?_) fun fault m hs => hs
  refine .attempt_request_bind read_of_answered fun reply => ?_
  cases reply with
  | ok lease =>
    cases hfree : (k.elector i).heldByOther lease.spec now with
    | true =>
      simp only [hfree, if_true]
      exact .pure fun _ hs => hs.1.1
    | false =>
      simp only [hfree, Bool.false_eq_true, if_false]
      exact claim_leads hk hfree
  | error failure =>
    cases failure with
    | refused status reason =>
      dsimp only
      split
      · exact create_leads hk now
      · exact leads_attempt_log (.pure fun _ hs => hs.1)
    | _ => exact .pure fun _ hs => hs.1

theorem holdsLease_leads : (k.conduct i).Leads (cycling hk i s) (k.elector i).holdsLease fun held =>
    if held then won k i s.leading else cycling hk i s := by
  refine (cycle_leads hk).bind fun r => ?_
  cases r with
  | ok held =>
    cases held with
    | false => exact .pure fun _ hs => hs
    | true => exact .pure fun _ hs => hs
  | error fault => exact leads_log (.pure fun _ hs => hs)

/-- The clock was read. -/
def clocked (stage : Stage (k.conduct i)) (time : Int) : Stage (k.conduct i) :=
  stage.also (fun m => m.phase i = .busy ∧ time = m.now - k.boot i) fun _ hclock hm => by
    obtain ⟨hbusy', hnow⟩ := Meanwhile.busy hm hclock.1
    exact ⟨hbusy', hnow ▸ hclock.2⟩

theorem leads_clock {β : Type} {stage : Stage (k.conduct i)} {f : Int → Session β} {last : β → Stage (k.conduct i)}
    (hf : ∀ time, (k.conduct i).Leads (clocked stage time) (f time) last) :
    (k.conduct i).Leads stage (Session.clock >>= f) last := by
  refine .request_bind (fun time m m' hs ha => ?_) hf
  obtain ⟨hbusy, rfl, htime⟩ := ha
  exact ⟨fun j _ => .refl, hs, hbusy, htime⟩

/-- With a success the tenure begins anew. -/
theorem afterSuccess_leads :
    (k.conduct i).Leads (won k i s.leading) ((k.elector i).afterSuccess s) (acted hk i) := by
  obtain ⟨leading, renewed⟩ := s
  have hacted (time : Int) (m : Arena ι) (hs : clocked (won k i true) time m) : acted hk i ⟨true, time⟩ m := by
    obtain ⟨⟨hbusy, hleading, hheld⟩, -, htime⟩ := hs
    have hperiod := k.periodic
    have hless := k.common.retryPeriod_lt
    exact ⟨hbusy, hleading, fun _ => ⟨m.now, 1, hheld, htime, by omega, by omega⟩⟩
  refine leads_clock fun time => ?_
  cases leading with
  | true => exact .pure (hacted time)
  | false =>
    have hbegin (m : Arena ι) (hs : clocked (won k i false) time m) :
        clocked (won k i true) time (m.setLeading i true) :=
      ⟨⟨hs.1.1, Function.update_self _ _ _, hs.1.2.2⟩, hs.2⟩
    refine leads_log ((leads_transition hbegin).bind fun _ => leads_quiet (fun _ _ _ ha => ha) fun _ => ?_)
    exact .pure (hacted time)

/-- With a failure it goes on until the deadline has passed. -/
theorem afterFailure_leads :
    (k.conduct i).Leads (cycling hk i s) ((k.elector i).afterFailure s) (acted hk i) := by
  obtain ⟨leading, renewed⟩ := s
  cases leading with
  | false => exact .pure fun m hs => ⟨hs.1, hs.2.1, nofun⟩
  | true =>
    refine leads_clock fun time => ?_
    dsimp only
    split
    · have hend (m : Arena ι) (hs : clocked (cycling hk i ⟨true, renewed⟩) time m) :
          acted hk i ⟨false, renewed⟩ (m.setLeading i false) :=
        ⟨hs.1.1, Function.update_self _ _ _, nofun⟩
      refine leads_log ((leads_transition hend).bind fun _ => leads_quiet (fun _ _ _ ha => ha) fun _ => ?_)
      exact .pure fun _ hs => hs
    · rename_i hearly
      refine leads_log (.pure fun m hs => ?_)
      obtain ⟨⟨hbusy, hleading, htenure⟩, -, htime⟩ := hs
      obtain ⟨t, cycles, hheld, hrenewed, hnow, -⟩ := htenure rfl
      have hdeadline : ¬1000 * k.common.renewDeadline ≤ time - renewed := hearly
      refine ⟨hbusy, hleading, fun _ => ⟨t, cycles + 1, hheld, hrenewed, ?_, ?_⟩⟩
      · rw [Int.mul_add, Int.mul_one]
        omega
      · rw [Int.add_sub_cancel]
        dsimp only at hrenewed
        omega

theorem campaignStep_leads :
    (k.conduct i).Leads (cycling hk i s) ((k.elector i).campaignStep s) (resting hk i) := by
  have hasked (s' : Standing) (u : Unit) (m m' : Arena ι) (hs : acted hk i s' m)
      (ha : (k.conduct i).answers (.pause (1000 * k.common.retryPeriod)) u m m') :
      (∀ j, j ≠ i → k.Meanwhile j m m') ∧ resting hk i s' m' := by
    obtain ⟨-, rfl⟩ := ha
    have hperiod := k.periodic
    refine ⟨fun j hij => .setPhase hij, hs.2.1, m.now + 1000 * k.common.retryPeriod, ?_, .inl ?_, hs.2.2⟩
    · change m.now ≤ _
      omega
    · exact Function.update_self _ _ _
  have hpause (s' : Standing) : (k.conduct i).Leads (acted hk i s')
      (do Session.request (.pause (1000 * k.common.retryPeriod)); return s') (resting hk i) :=
    .request_bind (hasked s') fun _ => .pure fun _ hs => hs
  refine (holdsLease_leads hk).bind fun held => ?_
  cases held with
  | false => exact (afterFailure_leads hk).bind hpause
  | true => exact (afterSuccess_leads hk).bind hpause

/-- A lease is given up only by the replica that it names. -/
theorem leaving_of_cleared {lease : Lease} {spec : LeaseSpec} (hspec : lease.spec = some spec)
    (hholder : spec.holder = some (k.identity i)) (reply : Except CallFailure Unit) (m m' : Arena ι)
    (hs : seen (leaving k i s) lease m)
    (ha : (k.conduct i).answers (.api (.replaceLease k.common.lease { spec with holder := none } lease.version)) reply
      m m') :
    (∀ j, j ≠ i → k.Meanwhile j m m') ∧ leaving k i s m' := by
  cases reply with
  | ok _ =>
    obtain ⟨-, hversion, version, hfresh, rfl⟩ := ha
    refine ⟨fun j hij => .put hfresh fun t hheld => ?_, hs.1⟩
    obtain ⟨l, spec', hl, hspec', hholder', -⟩ := hheld
    cases (hs.2.lease_eq hversion).symm.trans hl
    cases hspec.symm.trans hspec'
    exact absurd (k.distinct (Option.some.inj (hholder'.symm.trans hholder))) hij
  | error failure =>
    obtain ⟨-, rfl⟩ := ha
    exact ⟨fun j _ => .refl, hs.1⟩

theorem release_leads : (k.conduct i).Leads (leaving k i s) (k.elector i).release fun _ => leaving k i s := by
  have hfailed : (k.conduct i).Leads (leaving k i s) (Elector.release.failed (k.elector i)) fun _ => leaving k i s :=
    leads_log (.pure fun _ hs => hs)
  refine .request_bind read_of_answered fun reply => ?_
  cases reply with
  | error failure => exact hfailed
  | ok lease =>
    dsimp only
    split
    · exact .pure fun _ hs => hs.1
    rename_i spec hspec
    split
    · rename_i hholder
      refine .request_bind (leaving_of_cleared hspec hholder) fun reply => ?_
      cases reply with
      | ok _ => exact leads_log (.pure fun _ hs => hs)
      | error failure => exact hfailed
    · exact .pure fun _ hs => hs.1

/-- In the end the replica does not lead. -/
theorem resign_leads :
    (k.conduct i).Leads (leaving k i s) ((k.elector i).resign s) fun _ => leaving k i { s with leading := false } := by
  obtain ⟨leading, renewed⟩ := s
  cases leading with
  | false => exact .pure fun _ hs => hs
  | true =>
    have hend (m : Arena ι) (hs : leaving k i ⟨true, renewed⟩ m) :
        leaving k i ⟨false, renewed⟩ (m.setLeading i false) :=
      ⟨hs.1, hs.2.1, Function.update_self _ _ _⟩
    refine release_leads.bind fun _ => (leads_transition hend).bind fun _ => ?_
    exact leads_quiet (fun _ _ _ ha => ha) fun _ => .pure fun _ hs => hs

/-- How a campaign ends, be it cut off or not. -/
def ended (i : ι) : Option Standing → Stage (k.conduct i)
  | none => lasting hk i
  | some s => leaving k i { s with leading := false }

/-- A wait that was not cut short has led to the next cycle. -/
theorem campaignFrom_leads (n : Nat) :
    (k.conduct i).Leads (resting hk i s) ((k.elector i).campaignFrom n s) (ended hk i) := by
  induction n generalizing s with
  | zero => exact .pure fun m hs => ⟨s, hs⟩
  | succ n ih =>
    have hasked (stop : Bool) (m m' : Arena ι) (hs : resting hk i s m)
        (ha : (k.conduct i).answers .stopRequested stop m m') :
        (∀ j, j ≠ i → k.Meanwhile j m m') ∧ (if stop then leaving k i s else cycling hk i s) m' := by
      obtain ⟨hbusy, rfl, rfl⟩ := ha
      refine ⟨fun j _ => .refl, ?_⟩
      obtain ⟨hleading, wake, -, hphase, htenure⟩ := hs
      cases hstop : m'.stopping i with
      | true => exact ⟨hbusy, hstop, hleading⟩
      | false =>
        have hdue : m'.now = wake := by
          rcases hphase with hwaiting | ⟨-, hnow | hstopping⟩
          · cases hbusy.symm.trans hwaiting
          · exact hnow
          · cases hstop.symm.trans hstopping
        subst hdue
        exact ⟨hbusy, hleading, htenure⟩
    refine .request_bind hasked fun stop => ?_
    cases stop with
    | true => exact resign_leads.bind fun _ => .pure fun _ hs => hs
    | false => exact (campaignStep_leads hk).bind fun _ => ih

/-- A campaign that is not cut off ends without leading. -/
def Over (i : ι) (r : Option Standing) (m : Arena ι) : Prop := ∀ s, r = some s → m.leading i = false

/-- A replica that takes part keeps to its conduct in what it has still to do, and another one does not lead. -/
def Going (k : Contest ι) (i : ι) (x : Session (Option Standing)) (m : Arena ι) : Prop :=
  m.phase i = .away ∧ m.leading i = false ∨ x.Upholds (k.conduct i) (Over i) m

variable {x : Session (Option Standing)}

theorem Going.meanwhile (h : k.Going i x m) (hm : k.Meanwhile i m m') : k.Going i x m' := by
  rcases h with ⟨haway, hleading⟩ | hupholds
  · exact .inl ⟨hm.away haway, hm.leading.trans hleading⟩
  · exact .inr (hupholds.meanwhile hm)

end Contest
end NamespaceOwnership
