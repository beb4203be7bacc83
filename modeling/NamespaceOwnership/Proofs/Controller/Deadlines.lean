import NamespaceOwnership.Controller.Reconciliation
import NamespaceOwnership.Proofs.Mapping.Relabelling

/-!
# The deadline of an operation

An operation of the controller reads the clock twice and sets its deadline by the second reading, right before
it lists the namespaces. When it is over the clock is read once more, for the note of how long it took. Where no
deadline passes (`Timely`), every reading in between is before the deadline, and an operation that does its work
in time does not fail.
-/
namespace NamespaceOwnership

open Session (Runs)

/-- Deadlines can be set, and none of them passes: after the reading that sets the deadline, which a listing
follows, the clock shows an earlier time at every reading but the one right before the operation is noted. -/
structure Timely (timeout : Int) (tr : List Event) : Prop where
  settable : ∀ x, .asked x ∈ tr → ∀ start ∈ x.time?, ∃ limit, Clock.later start timeout = .ok limit
  kept : ∀ (pre post : List Event) {mid : List Event} {x y : Exchange} {e : Event} {start limit : Int},
    tr = pre ++ .asked x :: .asked y :: (mid ++ e :: post) → x.time? = some start →
      y.request = .api (.listNamespaces none) → (∀ ms, .told (.elapsed ms) ∉ mid ++ [e]) →
      Clock.later start timeout = .ok limit → (Pace.before limit).holds mid

/-- A clock that stands still keeps every deadline that is later. -/
theorem Timely.of_still {timeout now limit : Int} {tr : List Event} (hlater : Clock.later now timeout = .ok limit)
    (hlt : now < limit) (h : ∀ x, .asked x ∈ tr → ∀ time ∈ x.time?, time = now) : Timely timeout tr where
  settable x hx start hstart := ⟨limit, h x hx start hstart ▸ hlater⟩
  kept := by
    intro pre post mid x y e start bound htr hstart _ _ hbound z hz time htime
    obtain rfl : start = now := h x (by simp [htr]) start hstart
    obtain rfl : bound = limit := Except.ok.inj (hbound.symm.trans hlater)
    rw [h z (by simp [htr, hz]) time htime]
    exact hlt

def Pace.timely (timeout : Int) : Pace where
  holds := Timely timeout
  split := by
    intro tr₁ tr₂ h
    refine ⟨⟨fun x hx => h.settable x (List.mem_append_left _ hx), ?_⟩,
      ⟨fun x hx => h.settable x (List.mem_append_right _ hx), ?_⟩⟩
    · intro pre post mid x y e start limit htr hx hy he hlimit
      exact h.kept pre (post ++ tr₂) (by simp [htr]) hx hy he hlimit
    · intro pre post mid x y e start limit htr hx hy he hlimit
      exact h.kept (tr₁ ++ pre) post (by simp [htr]) hx hy he hlimit

namespace Controller

variable {α : Type} {k : Controller} {c c' : Cluster} {b : Books} {tr : List Event}

/-- What an operation does under its deadline begins with a listing of the namespaces, and notes no time. -/
structure Works (body : Int → Attempt α) (c : Cluster) : Prop where
  first : ∀ {limit tr r c'}, Runs .calm (body limit).run c tr r c' →
    ∃ y tr', tr = .asked y :: tr' ∧ y.request = .api (.listNamespaces none) ∧ y.time? = none
  quiet : ∀ limit, (body limit).run.Within fun _ => True

theorem works_of_list {m : Mapper} {rest : Int → List NamespaceRecord → Attempt α}
    (hquiet : ∀ limit, (m.ledger.list >>= rest limit).run.Within fun _ => True) :
    Works (fun limit => m.ledger.list >>= rest limit) c where
  first h := by
    rcases Attempt.runs_bind.mp h with ⟨fault, rfl, hlist⟩ | ⟨tr₁, records, c₁, tr₂, rfl, hlist, hrest⟩
    · obtain ⟨_, -, -, hok, -⟩ := Mapper.list_calm hlist
      cases hok
    · obtain ⟨objects, -, -, -, rfl⟩ := Mapper.list_calm hlist
      exact ⟨_, tr₂, rfl, rfl, rfl⟩
  quiet := hquiet

/-- An operation reads the clock and does its work under the deadline. -/
theorem withDeadline_runs {body : Int → Attempt α} {r : Except Fault α} (hw : Works body c)
    (hset : ∀ x, .asked x ∈ tr → ∀ start ∈ x.time?, ∃ limit, Clock.later start k.reconcileTimeout = .ok limit)
    (h : Runs .calm (k.withDeadline body).run c tr r c') :
    ∃ x y tr' start limit, tr = .asked x :: .asked y :: tr' ∧ x.time? = some start ∧
      Clock.later start k.reconcileTimeout = .ok limit ∧ y.request = .api (.listNamespaces none) ∧
      (∀ ms, .told (.elapsed ms) ∉ tr') ∧ y.time? = none ∧
      Runs .calm (body limit).run c (.asked y :: tr') r c' := by
  obtain ⟨tr₁, now, c₁, tr₂, rfl, hclock, hrun⟩ := Attempt.runs_lift_bind.mp h
  obtain ⟨c₀, hm, ⟨-, rfl⟩, rfl⟩ := Session.runs_request.mp hclock
  obtain rfl : c = c₁ := hm
  obtain ⟨limit, hlimit⟩ := hset _ (List.mem_append_left _ (List.mem_singleton_self _)) now rfl
  simp only [later, hlimit] at hrun
  rcases Attempt.runs_bind.mp hrun with ⟨fault, rfl, hfail⟩ | ⟨tr₃, _, c₂, tr₄, rfl, hlater, hbody⟩
  · obtain ⟨-, hok, -⟩ := Attempt.runs_pure.mp hfail
    cases hok
  obtain ⟨rfl, hok, rfl⟩ := Attempt.runs_pure.mp hlater
  cases hok
  obtain ⟨y, tr', rfl, hlisting, htime⟩ := hw.first hbody
  have helapsed : ∀ ms, .told (.elapsed ms) ∉ tr' := fun ms hms =>
    hbody.not_elapsed (hw.quiet limit) ms (List.mem_cons_of_mem _ hms)
  exact ⟨_, y, tr', now, limit, rfl, rfl, hlimit, hlisting, helapsed, htime, hbody⟩

/-- The clock is read before and after something, and then the time is noted. -/
theorem timed_runs {body : Control α} {r : Except Fault α} {b' : Books}
    (h : Runs .calm ((timed body).run.run b) c tr (r, b') c') :
    ∃ started ended tr', tr = .asked ⟨c, .clock, started, c⟩ ::
        (tr' ++ [.asked ⟨c', .clock, ended, c'⟩, .told (.elapsed (ended - started))]) ∧
      Runs .calm (body.run.run b) c tr' (r, b') c' := by
  rw [timed, Control.run_session_bind, Session.runs_bind] at h
  obtain ⟨tr₁, started, c₁, tr₂, rfl, hstart, h⟩ := h
  obtain ⟨c₀, hm, ⟨-, rfl⟩, rfl⟩ := Session.runs_request.mp hstart
  obtain rfl : c = c₁ := hm
  rw [Control.run_outcome_bind, Session.runs_bind] at h
  obtain ⟨tr₃, ⟨v, b₁⟩, c₂, tr₄, rfl, hbody, h⟩ := h
  rw [Control.run_session_bind, Session.runs_bind] at h
  obtain ⟨tr₅, ended, c₃, tr₆, rfl, hend, h⟩ := h
  obtain ⟨c₄, hm, ⟨-, rfl⟩, rfl⟩ := Session.runs_request.mp hend
  obtain rfl : c₂ = c₃ := hm
  rw [Control.run_session_bind, Session.runs_bind] at h
  obtain ⟨tr₇, _, c₅, tr₈, rfl, hnote, hreturn⟩ := h
  obtain ⟨rfl, rfl⟩ := Session.runs_note.mp hnote
  refine ⟨started, ended, tr₃, ?_⟩
  cases v with
  | error fault =>
    obtain ⟨rfl, hr, rfl⟩ := Session.runs_done.mp hreturn
    cases hr
    exact ⟨rfl, hbody⟩
  | ok a =>
    obtain ⟨rfl, hr, rfl⟩ := Session.runs_done.mp hreturn
    cases hr
    exact ⟨rfl, hbody⟩

/-- Where no deadline passes, an operation does not fail that does its work in time. What becomes of a failure is
known to tell something before the time is noted. -/
theorem timed_yields {body : Int → Attempt α} {ending : Except Fault α → Control (Option α)}
    {post : α → Cluster → Prop} (hw : Works body c) (hok : ∀ a, ending (.ok a) = pure (some a))
    (hfailed : ∀ fault, ∃ note next, note.Quiet ∧ (ending (.error fault)).run.run b = .tell note next)
    (hy : ∀ limit, Attempt.Yields (.meeting (some limit)) c (body limit) post) :
    Control.Yields (.timely k.reconcileTimeout) c b
      (timed do ending (← (Control.attempt (k.withDeadline body)).outcome))
      fun result b' c' => (∃ a, result = some a ∧ post a c') ∧ b' = b := by
  rintro tr ⟨r, b'⟩ c' hrun hpace
  obtain ⟨started, ended, tr', rfl, htimed⟩ := timed_runs hrun
  obtain ⟨tr₁, v, c₁, tr₂, rfl, hwork, hended⟩ := Control.runs_attempt_outcome_bind.mp htimed
  obtain ⟨x, y, tr₃, start, limit, rfl, hx, hlimit, hlisting, helapsed, hyt, hwork⟩ :=
    withDeadline_runs hw (fun x hx => hpace.settable x (by simp [hx])) hwork
  -- whatever comes after the last reading of the work, it is not yet the note of the time
  have hnext : ∃ e rest, (∀ ms, e ≠ .told (.elapsed ms)) ∧
      tr₂ ++ [.asked ⟨c', .clock, ended, c'⟩, .told (.elapsed (ended - started))] = e :: rest := by
    cases v with
    | ok a =>
      rw [hok] at hended
      obtain ⟨rfl, -, -⟩ := Session.runs_done.mp hended
      exact ⟨_, _, by simp, rfl⟩
    | error fault =>
      obtain ⟨note, next, hnote, htell⟩ := hfailed fault
      rw [htell] at hended
      obtain ⟨tr₄, rfl, -⟩ := Session.runs_tell.mp hended
      refine ⟨.told note, _, fun ms h => ?_, rfl⟩
      cases h
      exact hnote
  obtain ⟨e, others, he, hothers⟩ := hnext
  have hopen : ∀ ms, .told (.elapsed ms) ∉ tr₃ ++ [e] := fun ms hms => by
    rcases List.mem_append.mp hms with hms | hms
    · exact helapsed ms hms
    · exact he ms (List.mem_singleton.mp hms).symm
  have hkept : (Pace.before limit).holds tr₃ := by
    refine hpace.kept [.asked ⟨c, .clock, started, c⟩] others ?_ hx hlisting hopen hlimit
    rw [← hothers]
    simp
  have hheld : (Pace.before limit).holds (.asked y :: tr₃) := by
    intro z hz time htime
    rcases List.mem_cons.mp hz with hz | hz
    · cases hz
      rw [hyt] at htime
      cases htime
    · exact hkept z hz time htime
  obtain ⟨a, rfl, hpost⟩ := hy limit _ _ _ hwork (Pace.meeting_some.mpr hheld)
  rw [hok] at hended
  obtain ⟨-, hr, rfl⟩ := Session.runs_done.mp hended
  cases hr
  exact ⟨some a, rfl, ⟨a, rfl, hpost⟩, rfl⟩

end Controller
end NamespaceOwnership
