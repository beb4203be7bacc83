import NamespaceOwnership.Proofs.Controller.Retries
import NamespaceOwnership.Proofs.Number.Nearest

/-!
# When a failure is repeated

The n-th failure in a row of a name is repeated after `2 ^ (n - 1)` seconds, and after a minute at the latest. The
power is a floating-point number before it is cut off, and from the 1025th failure on it has none: the failure is
counted, but no time is set for its repetition, and the operation that was dealing with it raises
(`Controller.repetition_timed`). A day of failures is enough for that.
-/
namespace NamespaceOwnership

open Number (Binary64)
open Session (Course refusing)

variable {α : Type} {k : Controller} {b b' b₁ : Books} {acts : List Act} {log : List Incident} {name : String} {n : Nat}

/-- Up to this number of failures the power of two has a floating-point number. -/
theorem unboundedDelays_spec (h : 1 ≤ n) :
    n < unboundedDelays ↔ (Binary64.ofInt (2 ^ (n - 1))).isFinite = true := by
  have hpower : ((Nat.pow 2 (n - 1) : Nat) : Int) = 2 ^ (n - 1) := by simp
  rw [← hpower, Binary64.ofInt_two_pow]
  split
  · exact iff_of_true (by unfold unboundedDelays; omega) rfl
  · exact iff_of_false (by unfold unboundedDelays; omega) (by simp [Binary64.isFinite])

theorem delay_capped (h : 7 ≤ n) : min 60 (2 ^ (n - 1)) = 60 := by
  have hpower : 2 ^ 6 ≤ 2 ^ (n - 1) := Nat.pow_le_pow_right Nat.two_pos (by omega)
  exact Nat.min_eq_left (Nat.le_trans (by decide) hpower)

/-- The time of a repetition is the number nearest to the one that is as long after `now` as it should be, which is the
same one wherever that is a number. -/
theorem delay_nearest {now : Binary64} (h : now.IsNumber) :
    (now.add (.ofInt (min 60 (2 ^ (n - 1)) : Nat))).Nearest (now.value + (min 60 (2 ^ (n - 1)) : Nat)) := by
  have hdelay : min 60 (2 ^ (n - 1)) ≤ 60 := Nat.min_le_left _ _
  exact Binary64.add_ofNat_nearest h (hdelay.trans_lt (by norm_num))

/-- The n-th failure in a row is counted, and its repetition is set to be as long after `now` as it should be. Where
this has no number, what is to be repeated stays as it was. -/
structure Postponed (name : String) (n : Nat) (now : Binary64) (b b' : Books) : Prop where
  attempts : b'.attempts.get? (.text name) = some n
  due : n ≤ 1024 → b'.pending.get? (.text name) = some (now.add (.ofInt (min 60 (2 ^ (n - 1)) : Nat)))
  stuck : 1024 < n → b'.pending = b.pending

theorem Postponed.of_pending {now : Binary64} (h : Postponed name n now b₁ b') (hpending : b₁.pending = b.pending) :
    Postponed name n now b b' where
  attempts := h.attempts
  due := h.due
  stuck hlate := (h.stuck hlate).trans hpending

/-- An operation that is the n-th in a row to fail, if it fails. The time of its repetition counts from a reading of
the clock after the failure is counted. -/
structure Repeats (name : String) (n : Nat) (b : Books) (acts : List Act) (r : Except Fault α) (b' : Books) : Prop where
  raises (fault : Fault) : r = .error fault ↔
    fault = .numberTooLarge ∧ 1024 < n ∧ ∃ result ∈ results acts, result.failed = true
  postponed : (∃ result ∈ results acts, result.failed = true) → ∃ before now after,
    acts = before ++ .asked .clock now :: after ∧ results before = results acts ∧
      Postponed name n (Clock.seconds now) b b'

namespace Controller

variable {now : Binary64} {r : Except Fault Unit} {v : Except Fault α} {result : ReconcileResult}

theorem scheduleRetry_postpones (hn : (b.attempts.get? (.text name)).getD 0 + 1 = n)
    (h : Course ((scheduleRetry (.text name) now).run.run b) acts (r, b')) : Postponed name n now b b' ∧
      (n ≤ 1024 ∧ r = .ok ⟨⟩ ∨ 1024 < n ∧ r = .error .numberTooLarge) := by
  have hself : (Value.text name).sameName (.text name) = true := Value.sameName_eq_text_iff.mpr rfl
  have hset : (b.attempts.set (.text name) n).get? (.text name) = some n := by
    rw [NameTable.get?_set_text, if_pos hself]
  have hscalar : (Value.text name).isScalar = true := rfl
  rw [scheduleRetry_run, if_pos hscalar] at h
  simp only [hn] at h
  split at h
  · rename_i hmany
    have hlate : 1024 < n := hmany
    obtain ⟨-, hr⟩ := Session.course_done.mp h
    cases hr
    exact ⟨⟨hset, fun hle => absurd hlate (Nat.not_lt.mpr hle), fun _ => rfl⟩, .inr ⟨hlate, rfl⟩⟩
  · rename_i hfew
    have hsoon : n ≤ 1024 := Nat.le_of_lt_succ (Nat.not_le.mp hfew)
    obtain ⟨_, -, htold⟩ := Session.course_tell.mp h
    obtain ⟨_, -, hend⟩ := Session.course_tell.mp htold
    obtain ⟨-, hr⟩ := Session.course_done.mp hend
    cases hr
    refine ⟨⟨hset, fun _ => ?_, fun hlate => absurd hlate (Nat.not_lt.mpr hsoon)⟩, .inl ⟨hsoon, rfl⟩⟩
    exact (NameTable.get?_set_text _ _ _ _).trans (if_pos hself)

theorem repeats_of_failed {before last after : List Act} (hn : (b.attempts.get? (.text name)).getD 0 + 1 = n)
    (hbefore : results before = [result]) (hfailed : result.failed = true) (hafter : results after = [])
    (h : Course ((repeatLater (.text name)).run.run b) last (r, b'))
    (hr : ∀ fault, v = .error fault ↔ r = .error fault) : Repeats name n b (before ++ last ++ after) v b' := by
  have hcounted : results (before ++ last ++ after) = [result] := by
    simp [hbefore, hafter, (repeatLater_amounts _ _ _ _ _ h).2.1]
  obtain ⟨_, now, rest, rfl, hclock, hrest⟩ := Control.course_session_bind.mp h
  obtain rfl := Session.course_request.mp hclock
  obtain ⟨hpostponed, hends⟩ := scheduleRetry_postpones hn hrest
  refine ⟨fun fault => ?_, fun _ => ⟨before, now, rest ++ after, by simp, by rw [hbefore, hcounted], hpostponed⟩⟩
  rw [hr, hcounted]
  rcases hends with ⟨hsoon, rfl⟩ | ⟨hlate, rfl⟩
  · exact iff_of_false (by simp) fun h => absurd h.2.1 (Nat.not_lt.mpr hsoon)
  · refine ⟨fun hfault => ?_, fun h => by rw [h.1]⟩
    cases hfault
    exact ⟨rfl, hlate, result, List.mem_singleton_self _, hfailed⟩

theorem repeats_of_not_failed (hcounted : results acts = [result]) (hfailed : result.failed = false)
    (hr : ∀ fault, v ≠ .error fault) : Repeats name n b acts v b' := by
  have hnone : ¬∃ other ∈ results acts, other.failed = true := by simp [hcounted, hfailed]
  exact ⟨fun fault => iff_of_false (hr fault) fun h => hnone h.2.2, fun hany => absurd hany hnone⟩

theorem reconcile_repeats {d : DynaKube} {v : Except Fault (Option MappingResult)} (hname : d.name = name)
    (hn : (b.attempts.get? (.text name)).getD 0 + 1 = n) (h : Course ((k.reconcile d).run.run b) acts (v, b'))
    (hdated : Dated acts) : Repeats name n b acts v b' := by
  subst hname
  obtain ⟨outcome, r, hoperates, hraised⟩ := reconcile_operates h
  have hcounted : results acts = [resultOf outcome] := Reconciles.counted ⟨_, _, h, hoperates⟩
  obtain ⟨before, inner, after, rfl, hbefore, hafter, hdealt⟩ := hoperates.exists_dealt (mapping_within k d)
  obtain ⟨logged, rest, rfl, hlogged, hrest⟩ := settleMapped_course hdealt
  rcases Control.course_bind.mp hrest with ⟨fault, -, hundated⟩ | ⟨reported, _, b₁, last, rfl, hreported, hlast⟩
  · obtain ⟨error, -, hundated⟩ := reportStatus_timekeeping _ _ _ _ _ _ _ hundated
    exact absurd (by simp [hundated]) (hdated error)
  -- the report changes neither of the tables
  have hreport : b.Unmoved reported b₁ := reportStatus_neutral _ _ _ _ _ _ _ hreported
  cases hfinal : isFinal outcome with
  | true =>
    have hr : r = .ok ⟨⟩ := by
      rw [hfinal, if_pos rfl] at hlast
      rcases Control.course_bind.mp hlast with ⟨fault, -, hclear⟩ | ⟨_, _, _, _, rfl, -, hobserve⟩
      · rcases clearRetry_course hclear with ⟨hr, -⟩ | ⟨-, -, -, hscalar⟩
        · cases hr
        · cases hscalar
      · exact congrArg Prod.fst (Session.course_done.mp hobserve).2
    refine repeats_of_not_failed hcounted (by rw [failed_resultOf, hfinal]; rfl) fun fault hfault => ?_
    rw [hraised, hr] at hfault
    cases hfault
  | false =>
    rw [hfinal, if_neg Bool.false_ne_true] at hlast
    have hfirst : results (before ++ (logged ++ [.told (.count (.reconciles (resultOf outcome)))] ++ reported)) =
        [resultOf outcome] := by
      simp [hbefore.aside.results, hlogged.aside.results, hreport.aside.results]
    have hrepeats := repeats_of_failed (n := n) (by rw [hreport.attempts, hn]) hfirst
      (by rw [failed_resultOf, hfinal]; rfl) hafter.aside.results hlast hraised
    simp only [List.append_assoc] at hrepeats ⊢
    refine ⟨hrepeats.raises, fun hany => ?_⟩
    obtain ⟨first, now, later, hacts, hresults, hpostponed⟩ := hrepeats.postponed hany
    exact ⟨first, now, later, hacts, hresults, hpostponed.of_pending hreport.pending⟩

theorem unmap_repeats {v : Except Fault (Option MappingResult)}
    (hn : (b.attempts.get? (.text name)).getD 0 + 1 = n)
    (h : Course ((k.unmap (.text name)).run.run b) acts (v, b')) : Repeats name n b acts v b' := by
  obtain ⟨outcome, r, hoperates, hraised⟩ := unmap_operates h
  have hcounted : results acts = [Drops.resultOf outcome] := Drops.counted ⟨_, _, h, hoperates⟩
  obtain ⟨before, inner, after, rfl, hbefore, hafter, hdealt⟩ := hoperates.exists_dealt (unmapping_within k _)
  cases outcome with
  | ok result =>
    have hr : r = .ok ⟨⟩ := by
      obtain ⟨_, _, rest, rfl, -, hrest⟩ := Control.course_session_bind.mp hdealt
      rcases Control.course_bind.mp hrest with ⟨fault, -, hclear⟩ | ⟨_, _, b₁, last, rfl, -, hforget⟩
      · rcases clearRetry_course hclear with ⟨hr, -⟩ | ⟨-, -, -, hscalar⟩
        · cases hr
        · cases hscalar
      · exact congrArg Prod.fst (Session.course_done.mp hforget).2
    refine repeats_of_not_failed hcounted rfl fun fault hfault => ?_
    rw [hraised, hr] at hfault
    cases hfault
  | error fault =>
    obtain ⟨_, _, _, rfl, hlog, hlogged⟩ := Control.course_session_bind.mp hdealt
    obtain ⟨_, _, rest, rfl, hcount, hrest⟩ := Control.course_session_bind.mp hlogged
    obtain rfl := Session.course_note.mp hlog
    obtain rfl := Session.course_note.mp hcount
    have hfirst : results (before ++ [.told (.log .error ("Failed to unmap dynakube " ++ (Value.text name).shown)),
        .told (.count (.reconciles .error))]) = [.error] := by
      rw [results_append, hbefore.aside.results]
      rfl
    simpa using repeats_of_failed hn hfirst rfl hafter.aside.results hrest hraised

section History

private def steady : Controller := ⟨⟨⟨2, Nat.two_pos⟩, "operator"⟩, 30, 300⟩

/-- A session that is refused every call has a course. -/
private theorem exists_refused (x : Control α) (b : Books) : ∃ r b',
    Course (x.run.run b) ((x.run.run b).answeredBy refusing).1 (r, b') ∧
      Dated ((x.run.run b).answeredBy refusing).1 :=
  ⟨_, _, Session.course_answeredBy refusing _, fun _ hmem => by cases Session.answer_of_mem_answeredBy hmem⟩

/-- The claims of a name cannot be dropped where the API refuses everything. -/
private theorem unmap_refused (name : String) (b : Books) :
    results (((steady.unmap (.text name)).run.run b).answeredBy refusing).1 = [.error] := by
  obtain ⟨v, b', hcourse, -⟩ := exists_refused (steady.unmap (.text name)) b
  obtain ⟨outcome, hdrops⟩ := exists_drops hcourse
  obtain ⟨rest, hfirst⟩ : ∃ rest, results (((steady.unmap (.text name)).run.run b).answeredBy refusing).1 =
      .error :: rest := ⟨_, rfl⟩
  have hcounted := hdrops.counted
  rw [hfirst] at hcounted ⊢
  obtain ⟨-, rfl⟩ := List.cons.inj hcounted
  rfl

/-- Nor can a DynaKube be mapped then. -/
private theorem reconcile_refused (d : DynaKube) (b : Books) :
    results (((steady.reconcile d).run.run b).answeredBy refusing).1 = [.error] := by
  obtain ⟨v, b', hcourse, -⟩ := exists_refused (steady.reconcile d) b
  obtain ⟨outcome, hreconciles⟩ := exists_reconciles hcourse
  obtain ⟨rest, hfirst⟩ : ∃ rest, results (((steady.reconcile d).run.run b).answeredBy refusing).1 =
      .error :: rest := ⟨_, rfl⟩
  have hcounted := hreconciles.counted
  rw [hfirst] at hcounted ⊢
  obtain ⟨-, rfl⟩ := List.cons.inj hcounted
  rfl

/-- Any number of failures comes about. -/
private theorem exists_failures (name : String) (m : Nat) (b : Books) : ∃ acts b',
    Course ((steady.performAll (List.replicate m (.unmap (.text name)))).run.run b) acts (.ok ⟨⟩, b') ∧ Dated acts ∧
      Chronicle steady b acts (List.replicate m (.tried (.text name) .error)) b' := by
  induction m generalizing b with
  | zero => exact ⟨[], b, .done _, by simp [Dated], .start⟩
  | succ m ih =>
    obtain ⟨v, b₁, hfirst, hfirstDated⟩ := exists_refused (steady.unmap (.text name)) b
    obtain ⟨rest, b', hrest, hrestDated, hlog⟩ := ih b₁
    obtain ⟨r, htask⟩ : ∃ r, Course ((steady.perform (.unmap (.text name))).run.run b) _ (r, b₁) := by
      cases v with
      | error fault => exact ⟨_, Control.course_bind.mpr (.inl ⟨fault, rfl, hfirst⟩)⟩
      | ok result => exact ⟨_, Control.course_discard hfirst⟩
    refine ⟨_, b', performAll_cons htask hrest, fun error hmem => ?_,
      (Chronicle.single (.unmapped hfirst (unmap_refused name b))).trans hlog⟩
    exact (List.mem_append.mp hmem).elim (hfirstDated error) (hrestDated error)

private theorem failures_replicate (name : String) (m : Nat) :
    failures (List.replicate m (.tried (.text name) .error)) name = m := by
  have hself : (Value.text name).sameName (.text name) = true := Value.sameName_eq_text_iff.mpr rfl
  induction m with
  | zero => rfl
  | succ m ih =>
    rw [List.replicate_succ', failures_snoc]
    simp [Incident.name, Incident.failed, hself, ih, ReconcileResult.failed]

private theorem exists_failing (m : Nat) : ∃ acts b log, steady.Proceeds {} acts b ∧ Dated acts ∧
    Chronicle steady {} acts log b ∧ failures log "a" = m := by
  obtain ⟨acts, b, hcourse, hdated, hlog⟩ := exists_failures "a" m {}
  exact ⟨acts, b, _, .tasks hcourse, hdated, hlog, failures_replicate "a" m⟩

end History

/-- The n-th failure in a row of a name, whatever has happened before. It is repeated after the number of seconds that
the documentation gives, at the nearest number to that time, as long as the power of two has a floating-point number,
which it has for the first 1024 failures. From then on the time of the repetition stays as it was, and nobody catches
the error: dropping or mapping the claims of the name raises exactly if it fails once more. -/
theorem repetition_timed (h : k.Proceeds {} acts b) (hdated : Dated acts) : (∃ log, Chronicle k {} acts log b) ∧
    ∀ log, Chronicle k {} acts log b → ∀ name n, failures log name + 1 = n →
      (n ≤ 1024 ↔ (Binary64.ofInt (2 ^ (n - 1))).isFinite = true) ∧
      (∀ now acts' r b', Course ((scheduleRetry (.text name) now).run.run b) acts' (r, b') →
        Postponed name n now b b' ∧ (n ≤ 1024 ∧ r = .ok ⟨⟩ ∨ 1024 < n ∧ r = .error .numberTooLarge)) ∧
      (∀ now : Binary64, now.IsNumber →
        (now.add (.ofInt (min 60 (2 ^ (n - 1)) : Nat))).Nearest (now.value + (min 60 (2 ^ (n - 1)) : Nat))) ∧
      (∀ d acts' r b', d.name = name → Course ((k.reconcile d).run.run b) acts' (r, b') → Dated acts' →
        Repeats name n b acts' r b') ∧
      ∀ acts' r b', Course ((k.unmap (.text name)).run.run b) acts' (r, b') → Repeats name n b acts' r b' := by
  obtain ⟨entries, stage, haccount, rfl⟩ := h.exists_account
  refine ⟨haccount.exists_chronicle, fun log hlog name n hn => ?_⟩
  have hattempts : (b.attempts.get? (.text name)).getD 0 + 1 = n := by
    rw [(hlog.fits hdated).attempts name, ← hn]
    split <;> simp_all
  refine ⟨?_, fun now acts' r b' hcourse => scheduleRetry_postpones hattempts hcourse, fun _ => delay_nearest,
    fun d acts' r b' hname hcourse hdated' => reconcile_repeats hname hattempts hcourse hdated',
    fun acts' r b' hcourse => unmap_repeats hattempts hcourse⟩
  have hbound : n ≤ 1024 ↔ n < unboundedDelays := Nat.lt_succ_iff.symm
  exact hbound.trans (unboundedDelays_spec (by omega))

/-- The last failure whose repetition has a time, a minute later. -/
theorem repetition_timed_last : ∃ (k : Controller) (acts acts' : List Act) (b b' : Books) (log : List Incident)
    (r : Except Fault (Option MappingResult)), k.Proceeds {} acts b ∧ Dated acts ∧ Chronicle k {} acts log b ∧
      failures log "a" + 1 = 1024 ∧ Course ((k.unmap (.text "a")).run.run b) acts' (r, b') ∧ results acts' = [.error] ∧
      (∀ fault, r ≠ .error fault) ∧ b'.pending.get? (.text "a") = some (.ofInt 60) := by
  obtain ⟨acts, b, log, hproceeds, hdated, hlog, hfailures⟩ := exists_failing 1023
  obtain ⟨r, b', hcourse, -⟩ := exists_refused (steady.unmap (.text "a")) b
  have hcounted := unmap_refused "a" b
  obtain ⟨-, hnames⟩ := repetition_timed hproceeds hdated
  obtain ⟨-, -, -, -, hunmap⟩ := hnames log hlog "a" 1024 (by rw [hfailures])
  have hrepeats := hunmap _ _ _ hcourse
  obtain ⟨before, now, after, hacts, -, hpostponed⟩ := hrepeats.postponed ⟨.error, by simp [hcounted], rfl⟩
  have hnow : now = 0 := Session.answer_of_mem_answeredBy (hacts ▸ List.mem_append_right _ (List.mem_cons_self ..))
  subst hnow
  refine ⟨steady, acts, _, b, b', log, r, hproceeds, hdated, hlog, by rw [hfailures], hcourse, hcounted, ?_, ?_⟩
  · intro fault hfault
    exact absurd ((hrepeats.raises fault).mp hfault).2.1 (by decide)
  · have hminute : (Clock.seconds 0).add (.ofInt (60 : Nat)) = .ofInt 60 := by decide +kernel
    rw [hpostponed.due (by decide), delay_capped (by decide), hminute]

/-- The next failure is not dealt with. -/
theorem failure_escapes : ∃ (k : Controller) (acts : List Act) (b : Books) (log : List Incident), k.Proceeds {} acts b ∧
    Dated acts ∧ Chronicle k {} acts log b ∧ failures log "a" + 1 = 1025 ∧
    (∃ acts' b', Course ((scheduleRetry (.text "a") (.ofInt 0)).run.run b) acts' (.error .numberTooLarge, b') ∧
      b'.pending = b.pending) ∧
    (∃ d acts' b', d.name = "a" ∧ Course ((k.reconcile d).run.run b) acts' (.error .numberTooLarge, b') ∧
      Dated acts') ∧
    ∃ acts' b', Course ((k.unmap (.text "a")).run.run b) acts' (.error .numberTooLarge, b') ∧ Dated acts' := by
  obtain ⟨acts, b, log, hproceeds, hdated, hlog, hfailures⟩ := exists_failing 1024
  have hattempts : (b.attempts.get? (.text "a")).getD 0 + 1 = 1025 := by
    rw [(hlog.fits hdated).attempts "a", hfailures]
    rfl
  refine ⟨steady, acts, b, log, hproceeds, hdated, hlog, by rw [hfailures], ?_, ?_, ?_⟩
  · obtain ⟨r, b', hcourse, -⟩ := exists_refused (scheduleRetry (.text "a") (.ofInt 0)) b
    obtain ⟨hpostponed, ⟨hsoon, -⟩ | ⟨-, rfl⟩⟩ := scheduleRetry_postpones hattempts hcourse
    · exact absurd hsoon (by decide)
    · exact ⟨_, b', hcourse, hpostponed.stuck (by decide)⟩
  · obtain ⟨r, b', hcourse, hdated'⟩ := exists_refused (steady.reconcile ⟨"a", .null, [], none⟩) b
    have hraises := (reconcile_repeats rfl hattempts hcourse hdated').raises .numberTooLarge
    rw [hraises.mpr ⟨rfl, by decide, .error, by simp [reconcile_refused], rfl⟩] at hcourse
    exact ⟨_, _, b', rfl, hcourse, hdated'⟩
  · obtain ⟨r, b', hcourse, hdated'⟩ := exists_refused (steady.unmap (.text "a")) b
    have hraises := (unmap_repeats hattempts hcourse).raises .numberTooLarge
    rw [hraises.mpr ⟨rfl, by decide, .error, by simp [unmap_refused], rfl⟩] at hcourse
    exact ⟨_, b', hcourse, hdated'⟩

end Controller

end NamespaceOwnership
