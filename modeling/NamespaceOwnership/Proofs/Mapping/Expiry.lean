import NamespaceOwnership.Proofs.Ledger.Lateness
import NamespaceOwnership.Proofs.Mapping.Steps

/-!
# A call of the mapper whose deadline passes

A mapping or an unmapping lists the namespaces, plans its steps from that (`Call.plan`) and carries them out one after
another, each after a look at the clock (`Proceeds`). Wherever the deadline passes, no step is begun any more; the one
that is under way reads nothing any more and sends at most one more patch. The call then ends with the failure of that
step, if it fails, or else with a look at the clock that is too late for the next one (`Call.ends_punctually`).
-/
namespace NamespaceOwnership.Mapper

open Session (Course)
open Ledger

/-- An act at its time, with the steps that are not begun before it. -/
structure Juncture extends Timed where
  todo : List Step

/-- What is done for a step after it is begun, and how it ends. -/
inductive Step.Goes (m : Mapper) (owner : String) (limit : Int) : Step → List Act → Except Fault Unit → Prop where
  | dropped {space : String} {f : Feature} {acts : List Act} {there : Bool} (told : List Note)
      (h : Course (m.ledger.remove space f (some owner) (some limit)).run acts (.ok there)) :
      Goes m owner limit (.drop space f) (acts ++ told.map .told) (.ok ())
  | undropped {space : String} {f : Feature} {acts : List Act} {fault : Fault}
      (h : Course (m.ledger.remove space f (some owner) (some limit)).run acts (.error fault)) :
      Goes m owner limit (.drop space f) acts (.error fault)
  | claimed {space : String} {features : List Feature} {acts : List Act} {st st' : Memory}
      {v : List Feature × List Feature}
      (h : Course ((m.claimOne owner (some limit) space features).run st).run acts (.ok (v, st'))) :
      Goes m owner limit (.claim space features) acts (.ok ())
  | unclaimed {space : String} {features : List Feature} {acts : List Act} {st : Memory} {fault : Fault}
      (h : Course ((m.claimOne owner (some limit) space features).run st).run acts (.error fault)) :
      Goes m owner limit (.claim space features) acts (.error fault)

/-- Steps are carried out one after another, up to those that are left. -/
inductive Proceeds (m : Mapper) (owner operation : String) (limit : Int) :
    List Step → Int → List Juncture → Int → List Step → Except Fault Unit → Prop where
  | here (todo : List Step) (now : Int) : Proceeds m owner operation limit todo now [] now todo (.ok ())
  | late {step : Step} {rest : List Step} {now : Int} (h : limit ≤ now) :
      Proceeds m owner operation limit (step :: rest) now [⟨⟨now, .asked .clock now⟩, step :: rest⟩] now (step :: rest)
        (.error (.deadline operation))
  | failed {step : Step} {rest : List Step} {now later : Int} {own : List Act} {timed : List Timed} {fault : Fault}
      (h : now < limit) (goes : step.Goes m owner limit own (.error fault)) (elapses : Elapses now own timed later) :
      Proceeds m owner operation limit (step :: rest) now
        (⟨⟨now, .asked .clock now⟩, step :: rest⟩ :: timed.map (⟨·, rest⟩)) later rest (.error fault)
  | next {step : Step} {rest left : List Step} {now mid later : Int} {own : List Act} {timed : List Timed}
      {moments : List Juncture} {r : Except Fault Unit} (h : now < limit) (goes : step.Goes m owner limit own (.ok ()))
      (elapses : Elapses now own timed mid) (more : Proceeds m owner operation limit rest mid moments later left r) :
      Proceeds m owner operation limit (step :: rest) now
        (⟨⟨now, .asked .clock now⟩, step :: rest⟩ :: (timed.map (⟨·, rest⟩) ++ moments)) later left r

/-- At this time, these steps are not begun. -/
def Stands (moments : List Juncture) (later : Int) (left : List Step) (time : Int) (todo : List Step) : Prop :=
  (∃ x ∈ moments, x.time = time ∧ x.todo = todo) ∨ time = later ∧ todo = left

namespace Call

def owner : Call → String
  | .mapping d => d.name
  | .unmapping name => name.shown

/-- What is said to be late when a step is not begun in time. -/
def operation : Call → String
  | .mapping d => s!"mapping dynakube {d.name}"
  | .unmapping name => "unmapping dynakube " ++ name.shown

/-- The steps that a call has to do on the namespaces that it lists. -/
def plan (m : Mapper) (namespaces : List NamespaceRecord) : Call → Except Fault (List Step)
  | .mapping d => (m.candidates d namespaces).map fun wanted =>
    steps (staleClaims d.name wanted namespaces) (claimsByNamespace wanted)
  | .unmapping name => .ok (steps (claimsOf name namespaces) [])

/-- A call from its listing to its end, with its plan and what is left of that. -/
inductive Goes (m : Mapper) (call : Call) (limit now : Int) :
    List Step → List Juncture → Int → List Step → Except Fault MappingResult → Prop where
  | unlisted {failure : CallFailure} {later : Int} (passed : now ≤ later) :
      Goes m call limit now [] [⟨⟨now, .asked (.api (.listNamespaces none)) (.error failure)⟩, []⟩] later []
        (.error (.call failure))
  | unplanned {objects : List (Option NamespaceObject)} {fault : Fault} {later : Int} (passed : now ≤ later)
      (h : call.plan m (Namespaces.records objects) = .error fault) :
      Goes m call limit now [] [⟨⟨now, .asked (.api (.listNamespaces none)) (.ok objects)⟩, []⟩] later []
        (.error fault)
  | stopped {objects : List (Option NamespaceObject)} {plan left : List Step} {moments : List Juncture}
      {next later : Int} {fault : Fault} (passed : now ≤ next)
      (planned : call.plan m (Namespaces.records objects) = .ok plan)
      (proceeds : m.Proceeds call.owner call.operation limit plan next moments later left (.error fault)) :
      Goes m call limit now plan (⟨⟨now, .asked (.api (.listNamespaces none)) (.ok objects)⟩, plan⟩ :: moments) later
        left (.error fault)
  | returned {objects : List (Option NamespaceObject)} {plan : List Step} {moments : List Juncture} {next later : Int}
      (text : String) (result : MappingResult) (passed : now ≤ next)
      (planned : call.plan m (Namespaces.records objects) = .ok plan)
      (proceeds : m.Proceeds call.owner call.operation limit plan next moments later [] (.ok ())) :
      Goes m call limit now plan (⟨⟨now, .asked (.api (.listNamespaces none)) (.ok objects)⟩, plan⟩ ::
        (moments ++ [⟨⟨later, .told (.log .info text)⟩, []⟩])) later [] (.ok result)

end Call

variable {m : Mapper} {owner operation : String} {limit now mid later : Int} {acts : List Act} {timed : List Timed}
  {step : Step} {todo left more : List Step} {moments moments' : List Juncture} {r : Except Fault Unit}

section Steps

/-- A session that asks for nothing is of no account. -/
private theorem aside_of_still {α : Type} {s : Session α} {a : α} (hs : s.Within fun _ => False) (h : Course s acts a) :
    ∀ act ∈ acts, act.Aside := Act.Aside.of_isReading (hs.mono fun _ => False.elim) h

theorem remove_punctual {space : String} {f : Feature} {present : Option String} {r : Except Fault Bool}
    (h : Course (m.ledger.remove space f present (some limit)).run acts r) (hclock : Elapses now acts timed later) :
    Punctual limit now timed later := by
  obtain ⟨v, hmodify, -⟩ := Attempt.course_state_forget.mp h
  exact modify_punctual _ (fun labels annotations st =>
    (release_within space f present labels annotations st).mono fun _ => False.elim) hmodify hclock

theorem claimOne_punctual {space : String} {features : List Feature} {st : Memory}
    {r : Except Fault ((List Feature × List Feature) × Memory)}
    (h : Course ((m.claimOne owner (some limit) space features).run st).run acts r)
    (hclock : Elapses now acts timed later) : Punctual limit now timed later := by
  have hwrite {st : Memory} {acts : List Act} {timed : List Timed} {now later : Int} {r : Except Fault (Bool × Memory)}
      (h : Course ((m.ledger.write space features owner (some (m.judge owner space)) (some limit)).run st).run acts r)
      (hclock : Elapses now acts timed later) : Punctual limit now timed later :=
    modify_punctual _ (fun labels annotations st => guarded_within labels annotations st) h hclock
  rcases Attempt.course_state_bind.mp h with ⟨fault, rfl, hreset⟩ | ⟨_, _, _, rest, rfl, hreset, hclaim⟩
  · cases (Attempt.course_pure.mp hreset).2
  obtain ⟨rfl, -⟩ := Attempt.course_pure.mp hreset
  rw [List.nil_append] at hclock
  rcases Attempt.course_state_bind.mp hclaim with
    ⟨fault, rfl, hwritten⟩ | ⟨own, written, st', rest, rfl, hwritten, hend⟩
  · exact hwrite hwritten hclock
  obtain ⟨_, mid, _, rfl, hown, hrest⟩ := elapses_append.mp hclock
  rcases Attempt.course_state_bind.mp hend with ⟨fault, rfl, hget⟩ | ⟨_, memory, _, notes, rfl, hget, hsettle⟩
  · cases (Attempt.course_pure.mp hget).2
  obtain ⟨rfl, -⟩ := Attempt.course_pure.mp hget
  have hstill := Attempt.within_lift (settle_within owner space written memory.decisions)
  exact (hwrite hwritten hown).trans (.aside hrest (aside_of_still (Attempt.within_state_lift hstill) hsettle))

theorem Step.Goes.punctual (h : step.Goes m owner limit acts r) (hclock : Elapses now acts timed later) :
    Punctual limit now timed later := by
  cases h with
  | dropped told h =>
    obtain ⟨_, mid, _, rfl, hown, htold⟩ := elapses_append.mp hclock
    refine (remove_punctual h hown).trans (.aside htold fun act hact => ?_)
    obtain ⟨note, -, rfl⟩ := List.mem_map.mp hact
    exact .told note
  | undropped h => exact remove_punctual h hclock
  | claimed h | unclaimed h => exact claimOne_punctual h hclock

end Steps

namespace Proceeds

theorem le (h : Proceeds m owner operation limit todo now moments later left r) : now ≤ later := by
  induction h with
  | here | late => exact Int.le_refl _
  | failed _ _ elapses => exact elapses.le
  | next _ _ elapses _ ih => exact Int.le_trans elapses.le ih

theorem trans (h : Proceeds m owner operation limit todo now moments mid more (.ok ()))
    (h' : Proceeds m owner operation limit more mid moments' later left r) :
    Proceeds m owner operation limit todo now (moments ++ moments') later left r := by
  generalize hok : (.ok () : Except Fault Unit) = ok at h
  induction h with
  | here => exact h'
  | late | failed => cases hok
  | next ahead goes elapses _ ih =>
    rw [List.cons_append, List.append_assoc]
    exact .next ahead goes elapses (ih h' hok)

private theorem timed_map {todo : List Step} (timed : List Timed) :
    (timed.map (⟨·, todo⟩ : Timed → Juncture)).map Juncture.toTimed = timed := by
  simp [Function.comp_def]

theorem punctual (h : Proceeds m owner operation limit todo now moments later left r) :
    Punctual limit now (moments.map Juncture.toTimed) later := by
  have hlook (now : Int) : Punctual limit now [⟨now, .asked .clock now⟩] now :=
    .aside (.looked (.done now)) (List.forall_mem_singleton.mpr (.clock now))
  induction h with
  | here _ now => exact .aside (.done now) fun _ hact => nomatch hact
  | late _ => exact hlook _
  | failed _ goes elapses =>
    rw [List.map_cons, timed_map]
    exact (hlook _).trans (goes.punctual elapses)
  | next _ goes elapses _ ih =>
    rw [List.map_cons, List.map_append, timed_map]
    exact (hlook _).trans ((goes.punctual elapses).trans ih)

/-- No step is begun when the deadline has passed. -/
theorem stalled (h : Proceeds m owner operation limit todo now moments later left r) (hlate : limit ≤ now) :
    left = todo ∧ (r = .ok () ∨ r = .error (.deadline operation)) := by
  cases h with
  | here => exact ⟨rfl, .inl rfl⟩
  | late _ => exact ⟨rfl, .inr rfl⟩
  | failed ahead | next ahead => exact absurd ahead (Int.not_lt.mpr hlate)

/-- Where steps are not begun when the deadline has passed, they never are. Unless it is the step under way that fails,
the deadline is what the steps end with, if they do not end well. -/
theorem stops (h : Proceeds m owner operation limit todo now moments later left r) {time : Int} {rest : List Step}
    (hrest : Stands moments later left time rest) (hlate : limit ≤ time) (hne : rest ≠ []) :
    left = rest ∧ (r = .ok () ∨ r = .error (.deadline operation) ∨ ∃ begun step own fault,
      todo = begun ++ step :: rest ∧ own <:+ moments.map (·.act) ∧ step.Goes m owner limit own (.error fault) ∧
        r = .error fault) := by
  induction h with
  | here todo now =>
    obtain ⟨_, hx, -⟩ | ⟨-, rfl⟩ := hrest
    · cases hx
    · exact ⟨rfl, .inl rfl⟩
  | late _ =>
    refine ⟨?_, .inr (.inl rfl)⟩
    obtain ⟨x, hx, -, rfl⟩ | ⟨-, rfl⟩ := hrest
    · rw [List.mem_singleton.mp hx]
    · rfl
  | @failed step after now later own timed fault ahead goes elapses =>
    have hmoment : rest = after := by
      obtain ⟨x, hx, rfl, rfl⟩ | ⟨-, rfl⟩ := hrest
      · rcases List.mem_cons.mp hx with rfl | hx
        · exact absurd ahead (Int.not_lt.mpr hlate)
        · obtain ⟨y, -, rfl⟩ := List.mem_map.mp hx
          rfl
      · rfl
    subst hmoment
    refine ⟨rfl, .inr (.inr ⟨[], step, own, fault, rfl, ?_, goes, rfl⟩)⟩
    simp [← elapses.map_act, Function.comp_def]
  | @next step after left now mid later own timed moments r ahead goes elapses more ih =>
    have hcases : Stands moments later left time rest ∨ rest = after ∧ limit ≤ mid := by
      obtain ⟨x, hx, rfl, rfl⟩ | hend := hrest
      · rcases List.mem_cons.mp hx with rfl | hx
        · exact absurd ahead (Int.not_lt.mpr hlate)
        rcases List.mem_append.mp hx with hx | hx
        · obtain ⟨y, hy, rfl⟩ := List.mem_map.mp hx
          exact .inr ⟨rfl, Int.le_trans hlate (elapses.le_later hy)⟩
        · exact .inl (.inl ⟨x, hx, rfl, rfl⟩)
      · exact .inl (.inr hend)
    rcases hcases with hlater | ⟨rfl, hmid⟩
    · obtain ⟨hleft, hok | hdeadline | ⟨begun, step', own', fault, rfl, hsuffix, hgoes, hr⟩⟩ := ih hlater
      · exact ⟨hleft, .inl hok⟩
      · exact ⟨hleft, .inr (.inl hdeadline)⟩
      · refine ⟨hleft, .inr (.inr ⟨step :: begun, step', own', fault, rfl, ?_, hgoes, hr⟩)⟩
        rw [List.map_cons, List.map_append]
        exact hsuffix.trans ((List.suffix_append _ _).trans (List.suffix_cons _ _))
    · obtain ⟨hleft, hend⟩ := more.stalled hmid
      exact ⟨hleft, hend.imp_right .inl⟩

end Proceeds

/-- The steps are carried out, all but some if they end well. -/
def Reaches (m : Mapper) (owner operation : String) (limit now : Int) (todo : List Step) (timed : List Timed)
    (later : Int) (more : List Step) (r : Except Fault Unit) : Prop :=
  ∃ moments left, moments.map Juncture.toTimed = timed ∧
    Proceeds m owner operation limit todo now moments later left r ∧ (r = .ok () → left = more)

/-- A step comes after a look at the clock, and something else comes after it. -/
inductive Step.Leads (m : Mapper) (owner operation : String) (limit : Int) (step : Step)
    (follows : List Act → Except Fault Unit → Prop) : List Act → Except Fault Unit → Prop where
  | late {acts : List Act} {fault : Fault}
      (h : Course (checkDeadline (some limit) operation).run acts (.error fault)) :
      Leads m owner operation limit step follows acts (.error fault)
  | failed {looks own : List Act} {fault : Fault}
      (looked : Course (checkDeadline (some limit) operation).run looks (.ok ()))
      (goes : step.Goes m owner limit own (.error fault)) :
      Leads m owner operation limit step follows (looks ++ own) (.error fault)
  | done {looks own acts : List Act} {r : Except Fault Unit}
      (looked : Course (checkDeadline (some limit) operation).run looks (.ok ()))
      (goes : step.Goes m owner limit own (.ok ())) (rest : follows acts r) :
      Leads m owner operation limit step follows (looks ++ (own ++ acts)) r

private theorem elapses_look {looks rest : List Act}
    (h : Course (checkDeadline (some limit) operation).run looks (.ok ()))
    (hclock : Elapses now (looks ++ rest) timed later) :
    now < limit ∧ ∃ timed', timed = ⟨now, .asked .clock now⟩ :: timed' ∧ Elapses now rest timed' later := by
  rcases checkDeadline_course (σ := Unit) h with ⟨_, _, _, _, _, hr⟩ | ⟨-, _, hlooks⟩
  · cases hr
  cases hlooks with
  | ahead htime =>
    cases hclock with
    | looked hrest => exact ⟨htime, _, rfl, hrest⟩

theorem Step.Leads.reaches {follows : List Act → Except Fault Unit → Prop}
    (h : step.Leads m owner operation limit follows acts r) (hclock : Elapses now acts timed later)
    (hfollows : ∀ {now acts timed r}, follows acts r → Elapses now acts timed later →
      m.Reaches owner operation limit now todo timed later more r) :
    m.Reaches owner operation limit now (step :: todo) timed later more r := by
  cases h with
  | late h =>
    rcases checkDeadline_course (σ := Unit) h with ⟨_, _, hlimit, hlate, rfl, hr⟩ | ⟨hr, _⟩
    · cases hlimit
      cases hr
      cases hclock with
      | looked hrest =>
        cases hrest with
        | done => exact ⟨_, _, rfl, .late hlate, nofun⟩
    · cases hr
  | failed looked goes =>
    obtain ⟨hahead, own, rfl, hown⟩ := elapses_look looked hclock
    exact ⟨_, _, by simp [Function.comp_def], .failed hahead goes hown, nofun⟩
  | done looked goes rest =>
    obtain ⟨hahead, timed', rfl, hclock'⟩ := elapses_look looked hclock
    obtain ⟨own, mid, others, rfl, hown, hothers⟩ := elapses_append.mp hclock'
    obtain ⟨moments, left, rfl, hproceeds, hleft⟩ := hfollows rest hothers
    exact ⟨_, left, by simp [Function.comp_def], .next hahead goes hown hproceeds, hleft⟩

theorem Reaches.none : m.Reaches owner operation limit now todo [] now todo (.ok ()) :=
  ⟨[], todo, rfl, .here todo now, fun _ => rfl⟩

/-- What should have been left is of no account when the steps fail. -/
theorem Reaches.failed {goal : List Step} {fault : Fault}
    (h : m.Reaches owner operation limit now todo timed later more (.error fault)) :
    m.Reaches owner operation limit now todo timed later goal (.error fault) := by
  obtain ⟨moments, left, htimed, hproceeds, -⟩ := h
  exact ⟨moments, left, htimed, hproceeds, nofun⟩

theorem Reaches.trans {timed' : List Timed} {goal : List Step}
    (h : m.Reaches owner operation limit now todo timed mid more (.ok ()))
    (h' : m.Reaches owner operation limit mid more timed' later goal r) :
    m.Reaches owner operation limit now todo (timed ++ timed') later goal r := by
  obtain ⟨moments, left, rfl, hproceeds, hleft⟩ := h
  obtain ⟨moments', left', rfl, hproceeds', hleft'⟩ := h'
  obtain rfl := hleft rfl
  exact ⟨moments ++ moments', left', List.map_append, hproceeds.trans hproceeds', hleft'⟩

/-- A session that asks for nothing leaves notes. -/
private theorem told_of_still {α : Type} {s : Session α} {a : α} (hs : s.Within fun _ => False) (h : Course s acts a) :
    ∃ told : List Note, acts = told.map .told := by
  induction h with
  | done => exact ⟨[], rfl⟩
  | @tell note _ _ _ _ ih =>
    obtain ⟨told, rfl⟩ := ih hs.2
    exact ⟨note :: told, rfl⟩
  | ask => exact hs.1.elim

/-- One claim is dropped, which is noted, and then the others are. -/
theorem releaseAll_leads {noted : Claim → Session Unit} {claim : Claim} {rest : List Claim}
    {r : Except Fault (List Claim)} (hnoted : (noted claim).Within fun _ => False)
    (h : Course (m.releaseAll owner operation (some limit) noted (claim :: rest)).run acts r) :
    (Step.drop claim.1 claim.2).Leads m owner operation limit
      (fun acts r => ∃ v, Course (m.releaseAll owner operation (some limit) noted rest).run acts v ∧
        r = v.map fun _ => ()) acts (r.map fun _ => ()) := by
  rcases Attempt.course_bind.mp h with ⟨fault, rfl, hlook⟩ | ⟨looks, _, acts', rfl, hlook, hremove⟩
  · exact .late hlook
  rcases Attempt.course_bind.mp hremove with ⟨fault, rfl, hfail⟩ | ⟨own, there, later, rfl, hdone, hrest⟩
  · exact .failed hlook (.undropped hfail)
  cases there with
  | false =>
    have hgoes := Step.Goes.dropped [] hdone
    rw [List.map_nil, List.append_nil] at hgoes
    exact .done hlook hgoes ⟨r, hrest, rfl⟩
  | true =>
    obtain ⟨notes, _, acts'', rfl, hnote, hothers⟩ := Attempt.course_lift_bind.mp hrest
    obtain ⟨told, rfl⟩ := told_of_still hnoted hnote
    rw [← List.append_assoc own]
    refine .done hlook (.dropped told hdone) ?_
    rcases Attempt.course_bind.mp hothers with ⟨fault, rfl, hfail⟩ | ⟨first, v, _, rfl, hrun, hend⟩
    · exact ⟨.error fault, hfail, rfl⟩
    · obtain ⟨rfl, rfl⟩ := Attempt.course_pure.mp hend
      exact ⟨.ok v, by simpa using hrun, rfl⟩

theorem releaseAll_reaches {noted : Claim → Session Unit} {claims : List Claim} {r : Except Fault (List Claim)}
    (hnoted : ∀ claim, (noted claim).Within fun _ => False)
    (h : Course (m.releaseAll owner operation (some limit) noted claims).run acts r)
    (hclock : Elapses now acts timed later) :
    m.Reaches owner operation limit now (claims.map (fun c => .drop c.1 c.2) ++ more) timed later more
      (r.map fun _ => ()) := by
  induction claims generalizing now acts timed r with
  | nil =>
    obtain ⟨rfl, rfl⟩ := Attempt.course_pure.mp h
    cases hclock with
    | done => exact .none
  | cons claim rest ih =>
    refine (releaseAll_leads (hnoted claim) h).reaches hclock ?_
    rintro now acts timed r ⟨v, hrest, rfl⟩ hclock
    exact ih hrest hclock

/-- The features of one namespace are claimed, and then those of the others. -/
theorem claimAll_leads {entry : String × List Feature} {rest : List (String × List Feature)} {st : Memory}
    {r : Except Fault ((List Claim × List Claim) × Memory)}
    (h : Course ((m.claimAll owner (some limit) (entry :: rest)).run st).run acts r) :
    (Step.claim entry.1 entry.2).Leads m owner s!"mapping dynakube {owner}" limit
      (fun acts r => ∃ st v, Course ((m.claimAll owner (some limit) rest).run st).run acts v ∧ r = v.map fun _ => ())
      acts (r.map fun _ => ()) := by
  rcases Attempt.course_state_lift_bind.mp h with ⟨fault, rfl, hlook⟩ | ⟨looks, _, acts', rfl, hlook, hclaim⟩
  · exact .late hlook
  rcases Attempt.course_state_bind.mp hclaim with ⟨fault, rfl, hfail⟩ | ⟨own, v, st', later, rfl, hdone, hrest⟩
  · exact .failed hlook (.unclaimed hfail)
  refine .done hlook (.claimed hdone) ⟨st', ?_⟩
  rcases Attempt.course_state_bind.mp hrest with ⟨fault, rfl, hfail⟩ | ⟨first, w, st₁, _, rfl, hrun, hend⟩
  · exact ⟨.error fault, hfail, rfl⟩
  · obtain ⟨rfl, rfl⟩ := Attempt.course_state_pure.mp hend
    exact ⟨.ok (w, st₁), by simpa using hrun, rfl⟩

theorem claimAll_reaches {claims : List (String × List Feature)} {st : Memory}
    {r : Except Fault ((List Claim × List Claim) × Memory)}
    (h : Course ((m.claimAll owner (some limit) claims).run st).run acts r) (hclock : Elapses now acts timed later) :
    m.Reaches owner s!"mapping dynakube {owner}" limit now (claims.map fun c => .claim c.1 c.2) timed later []
      (r.map fun _ => ()) := by
  induction claims generalizing now acts timed st r with
  | nil =>
    obtain ⟨rfl, rfl⟩ := Attempt.course_state_pure.mp h
    cases hclock with
    | done => exact .none
  | cons entry rest ih =>
    refine (claimAll_leads h).reaches hclock ?_
    rintro now acts timed r ⟨st, v, hrest, rfl⟩ hclock
    exact ih hrest hclock

namespace Call

namespace Goes

variable {call : Call} {plan : List Step} {objects : List (Option NamespaceObject)} {next : Int}
  {r : Except Fault MappingResult}

theorem punctual (h : call.Goes m limit now plan moments later left r) :
    Punctual limit now (moments.map Juncture.toTimed) later := by
  have hlist {now next : Int} {reply} (passed : now ≤ next) :
      Punctual limit now [⟨now, .asked (.api (.listNamespaces none)) reply⟩] next :=
    .aside (.called reply passed (.done next)) (List.forall_mem_singleton.mpr ⟨rfl, rfl⟩)
  cases h with
  | unlisted passed | unplanned passed _ => exact hlist passed
  | stopped passed _ proceeds => exact (hlist passed).trans proceeds.punctual
  | returned text _ passed _ proceeds =>
    have hnote : Punctual limit later [⟨later, .told (.log .info text)⟩] later :=
      .aside (.told _ (.done later)) (List.forall_mem_singleton.mpr (.told _))
    rw [List.map_cons, List.map_append]
    exact (hlist passed).trans (proceeds.punctual.trans hnote)

theorem stops (h : call.Goes m limit now plan moments later left r) {time : Int} {rest : List Step}
    (hrest : Stands moments later left time rest) (hlate : limit ≤ time) (hne : rest ≠ []) :
    left = rest ∧ (r = .error (.deadline call.operation) ∨ ∃ begun step own fault,
      plan = begun ++ step :: rest ∧ own <:+ moments.map (·.act) ∧ step.Goes m call.owner limit own (.error fault) ∧
        r = .error fault) := by
  cases h with
  | unlisted _ | unplanned _ _ =>
    obtain ⟨x, hx, -, rfl⟩ | ⟨-, rfl⟩ := hrest
    · exact absurd (by rw [List.mem_singleton.mp hx]) hne
    · exact absurd rfl hne
  | @stopped _ _ _ moments next _ fault passed _ proceeds =>
    have hcases : Stands moments later left time rest ∨ rest = plan ∧ limit ≤ next := by
      obtain ⟨x, hx, rfl, rfl⟩ | hend := hrest
      · rcases List.mem_cons.mp hx with rfl | hx
        · exact .inr ⟨rfl, Int.le_trans hlate passed⟩
        · exact .inl (.inl ⟨x, hx, rfl, rfl⟩)
      · exact .inl (.inr hend)
    rcases hcases with hlater | ⟨rfl, hnext⟩
    · obtain ⟨hleft, hok | hdeadline | ⟨begun, step, own, fault', hplan, hsuffix, hgoes, hr⟩⟩ :=
        proceeds.stops hlater hlate hne
      · cases hok
      · cases hdeadline
        exact ⟨hleft, .inl rfl⟩
      · cases hr
        exact ⟨hleft, .inr ⟨begun, step, own, fault, hplan, hsuffix.trans (List.suffix_cons _ _), hgoes, rfl⟩⟩
    · obtain ⟨hleft, hok | hdeadline⟩ := proceeds.stalled hnext
      · cases hok
      · cases hdeadline
        exact ⟨hleft, .inl rfl⟩
  | @returned _ _ moments next _ text result passed _ proceeds =>
    exfalso
    obtain ⟨x, hx, rfl, rfl⟩ | ⟨-, rfl⟩ := hrest
    · rcases List.mem_cons.mp hx with rfl | hx
      · exact hne (proceeds.stalled (Int.le_trans hlate passed)).1.symm
      rcases List.mem_append.mp hx with hx | hx
      · exact hne (proceeds.stops (.inl ⟨x, hx, rfl, rfl⟩) hlate hne).1.symm
      · exact hne (by rw [List.mem_singleton.mp hx])
    · exact hne rfl

end Goes

/-- Steps that end in an error are the last of a call. -/
private theorem exists_stopped {call : Call} {objects : List (Option NamespaceObject)} {plan : List Step} {next : Int}
    {fault : Fault} (passed : now ≤ next) (planned : call.plan m (Namespaces.records objects) = .ok plan)
    (h : m.Reaches call.owner call.operation limit next plan timed later [] (.error fault)) :
    ∃ plan moments left,
      moments.map Juncture.toTimed = ⟨now, .asked (.api (.listNamespaces none)) (.ok objects)⟩ :: timed ∧
        call.Goes m limit now plan moments later left (.error fault) := by
  obtain ⟨moments, left, rfl, hproceeds, -⟩ := h
  exact ⟨plan, _, left, rfl, .stopped passed planned hproceeds⟩

/-- When all steps are carried out, the call says so and returns. -/
private theorem exists_returned {call : Call} {objects : List (Option NamespaceObject)} {plan : List Step}
    {next mid : Int} {notes : List Act} {timed' : List Timed} {text : String} {result : MappingResult}
    {r : Except Fault MappingResult} (passed : now ≤ next)
    (planned : call.plan m (Namespaces.records objects) = .ok plan)
    (h : m.Reaches call.owner call.operation limit next plan timed mid [] (.ok ()))
    (hend : Course (do Session.info text; return result : Attempt MappingResult).run notes r)
    (hclock : Elapses mid notes timed' later) :
    ∃ plan moments left,
      moments.map Juncture.toTimed = ⟨now, .asked (.api (.listNamespaces none)) (.ok objects)⟩ :: (timed ++ timed') ∧
        call.Goes m limit now plan moments later left r := by
  obtain ⟨_, _, _, rfl, hnote, hreturn⟩ := Attempt.course_lift_bind.mp hend
  obtain rfl := Session.course_note.mp hnote
  obtain ⟨rfl, rfl⟩ := Attempt.course_pure.mp hreturn
  obtain ⟨moments, left, rfl, hproceeds, hleft⟩ := h
  obtain rfl := hleft rfl
  cases hclock with
  | told _ hdone =>
    cases hdone with
    | done => exact ⟨plan, _, [], by simp, .returned text result passed planned hproceeds⟩

private theorem list_goes {call : Call} {rest : List NamespaceRecord → Attempt MappingResult}
    {r : Except Fault MappingResult} (h : Course (m.ledger.list >>= rest).run acts r)
    (hclock : Elapses now acts timed later)
    (hrest : ∀ {objects acts timed next}, now ≤ next → Course (rest (Namespaces.records objects)).run acts r →
      Elapses next acts timed later → ∃ plan moments left,
        moments.map Juncture.toTimed = ⟨now, .asked (.api (.listNamespaces none)) (.ok objects)⟩ :: timed ∧
          call.Goes m limit now plan moments later left r) :
    ∃ plan moments left, moments.map Juncture.toTimed = timed ∧ call.Goes m limit now plan moments later left r := by
  rcases Attempt.course_bind.mp h with ⟨fault, rfl, hlist⟩ | ⟨listing, records, acts', rfl, hlist, hrun⟩
  · obtain ⟨reply, rfl, hr⟩ := list_course hlist
    cases reply with
    | ok objects => cases hr
    | error failure =>
      cases hr
      cases hclock with
      | called _ passed hdone =>
        cases hdone with
        | done => exact ⟨[], _, [], rfl, .unlisted passed⟩
  · obtain ⟨reply, rfl, hr⟩ := list_course hlist
    cases reply with
    | error failure => cases hr
    | ok objects =>
      cases hr
      cases hclock with
      | called _ passed hclock => exact hrest passed hrun hclock

theorem goes {call : Call} {r : Except Fault MappingResult} (h : Course (call.attempt m (some limit)).run acts r)
    (hclock : Elapses now acts timed later) :
    ∃ plan moments left, moments.map Juncture.toTimed = timed ∧ call.Goes m limit now plan moments later left r := by
  cases call with
  | mapping d =>
    refine list_goes h hclock fun {objects acts timed next} passed hmap hclock => ?_
    rcases Attempt.course_bind.mp hmap with ⟨fault, rfl, hwanted⟩ | ⟨_, wanted, acts', rfl, hwanted, hsteps⟩
    · obtain ⟨rfl, hfault⟩ := Attempt.course_except.mp hwanted
      cases hclock with
      | done => exact ⟨[], _, [], rfl, .unplanned passed (by rw [plan, ← hfault]; rfl)⟩
    obtain ⟨rfl, hok⟩ := Attempt.course_except.mp hwanted
    rw [List.nil_append] at hclock
    have planned : (Call.mapping d).plan m (Namespaces.records objects) =
        .ok (steps (staleClaims d.name wanted (Namespaces.records objects)) (claimsByNamespace wanted)) := by
      rw [plan, ← hok]
      rfl
    rcases Attempt.course_bind.mp hsteps with ⟨fault, rfl, hdrops⟩ | ⟨drops, released, acts', rfl, hdrops, hclaims⟩
    · exact exists_stopped passed planned (releaseAll_reaches (noteStale_within d.name) hdrops hclock).failed
    obtain ⟨dropping, mid, _, rfl, hdropping, hclock'⟩ := elapses_append.mp hclock
    have hdropped : m.Reaches _ _ limit next (steps _ _) dropping mid
        ((claimsByNamespace wanted).map fun c => .claim c.1 c.2) (.ok ()) :=
      releaseAll_reaches (noteStale_within d.name) hdrops hdropping
    rcases Attempt.course_bind.mp hclaims with ⟨fault, rfl, hfail⟩ | ⟨claims, v, notes, rfl, hclaimed, hend⟩
    · obtain ⟨w, hrun, hw⟩ := Attempt.course_state_forget.mp hfail
      have hreaches := hdropped.trans (claimAll_reaches hrun hclock')
      cases w with
      | ok w => cases hw
      | error fault =>
        cases hw
        exact exists_stopped passed planned hreaches
    · obtain ⟨claiming, _, noting, rfl, hclaiming, hnoting⟩ := elapses_append.mp hclock'
      obtain ⟨w, hrun, hw⟩ := Attempt.course_state_forget.mp hclaimed
      have hreaches := hdropped.trans (claimAll_reaches hrun hclaiming)
      cases w with
      | error fault => cases hw
      | ok w =>
        rw [← List.append_assoc]
        exact exists_returned passed planned hreaches hend hnoting
  | unmapping name =>
    refine list_goes h hclock fun {objects acts timed next} passed hunmap hclock => ?_
    have hnoted (claim : Claim) : (Session.count (.releases claim.2 .unmapped)).Within fun _ => False :=
      ⟨trivial, trivial⟩
    rcases Attempt.course_bind.mp hunmap with ⟨fault, rfl, hdrops⟩ | ⟨drops, released, notes, rfl, hdrops, hend⟩
    · exact exists_stopped passed rfl (releaseAll_reaches hnoted hdrops hclock)
    · obtain ⟨dropping, mid, noting, rfl, hdropping, hnoting⟩ := elapses_append.mp hclock
      exact exists_returned passed rfl (releaseAll_reaches hnoted hdrops hdropping) hend hnoting

/-- Whatever is answered to a call with a deadline, no namespace is read when the deadline has passed, and at most one
patch is sent then. Steps that are still to be done at such a time are never begun; the call does not return, but fails
with the deadline, or with the fault of the step that was under way. -/
theorem ends_punctually {call : Call} {r : Except Fault MappingResult}
    (h : Course (call.attempt m (some limit)).run acts r) (hclock : Elapses now acts timed later) :
    (∀ x ∈ timed, x.act.isRead = true → x.time < limit) ∧ (late limit timed).length ≤ 1 ∧
      ∃ plan moments left, moments.map Juncture.toTimed = timed ∧ call.Goes m limit now plan moments later left r ∧
        ∀ time todo, Stands moments later left time todo → limit ≤ time → todo ≠ [] →
          left = todo ∧ (r = .error (.deadline call.operation) ∨ ∃ begun step own fault,
            plan = begun ++ step :: todo ∧ own <:+ acts ∧ step.Goes m call.owner limit own (.error fault) ∧
              r = .error fault) := by
  obtain ⟨plan, moments, left, htimed, hgoes⟩ := goes h hclock
  have hpunctual : Punctual limit now timed later := htimed ▸ hgoes.punctual
  refine ⟨hpunctual.reads, hpunctual.once, plan, moments, left, htimed, hgoes, fun time todo hstands hlate hne => ?_⟩
  have hacts : moments.map (·.act) = acts := by
    rw [← hclock.map_act, ← htimed, List.map_map]
    rfl
  rw [← hacts]
  exact hgoes.stops hstands hlate hne

end Call

section Halved

private def both : Labels := ⟨[(Feature.codeModules.labelKey, "a"), (Feature.dataIngest.labelKey, "a")]⟩

private def found : NamespaceObject := ⟨some "ns1", some both, none, some "1"⟩

private def once : Mapper := ⟨⟨1, Nat.one_pos⟩, "operator"⟩

private def listing : Act := .asked (.api (.listNamespaces none)) (.ok [some found])

/-- The namespace is read and patched, which is answered in some way. -/
private def dropping (reply : Except CallFailure (Option NamespaceObject)) : List Act :=
  [.asked .clock (0 : Int), .asked (.api (.readNamespace "ns1")) (.ok (some found)), .asked (.api (.patchNamespace "ns1"
    ⟨some "1", TextMap.erase both Feature.codeModules.labelKey, marked .empty⟩)) reply]

private def retried (text : String) : List Act :=
  [.told (.count .versionConflictRetries), .told (.log .info text), .told (.count .storeConflicts)]

private theorem records_found : Namespaces.records [some found] = [⟨"ns1", both, .empty, some "1"⟩] := by
  simp [Namespaces.records, NamespaceRecord.ofObject, found]

private theorem unmap_plan : (Call.unmapping (.text "a")).plan once (Namespaces.records [some found]) =
    .ok [.drop "ns1" .codeModules, .drop "ns1" .dataIngest] := by
  rw [records_found]
  rfl

/-- An unmapping of both features. -/
private theorem unmap_course {acts : List Act} {fault : Fault}
    (h : Course (once.releaseAll "a" ("unmapping dynakube " ++ "a") (some 1000)
      (fun c => Session.count (.releases c.2 .unmapped)) [("ns1", .codeModules), ("ns1", .dataIngest)]).run acts
      (.error fault)) :
    Course ((Call.unmapping (.text "a")).attempt once (some 1000)).run (listing :: acts) (.error fault) := by
  have hclaims : claimsOf (.text "a") (Namespaces.records [some found]) =
      [("ns1", .codeModules), ("ns1", .dataIngest)] := by
    rw [records_found]
    rfl
  rw [← hclaims] at h
  exact Attempt.course_bind.mpr (.inr ⟨[listing], _, acts, rfl, .ask (.done _),
    Attempt.course_bind.mpr (.inl ⟨fault, rfl, h⟩)⟩)

/-- The deadline passes with the answer to a reading. The patch that follows it is late, and the last. -/
theorem ends_punctually_unmapping : ∃ acts timed,
    Course ((Call.unmapping (.text "a")).attempt once (some 1000)).run acts
        (.error (.deadline "unmapping dynakube a")) ∧ Elapses 0 acts timed 2000 ∧ late 1000 timed ≠ [] ∧
      (∀ x ∈ timed, x.act.isRead = true → x.time < 1000) ∧ (late 1000 timed).length ≤ 1 := by
  have hcourse : Course ((Call.unmapping (.text "a")).attempt once (some 1000)).run
      (listing :: .asked .clock (0 : Int) :: (dropping (.ok none) ++
        [.told (.count (.releases .codeModules .unmapped)), .asked .clock (2000 : Int)]))
      (.error (.deadline "unmapping dynakube a")) :=
    unmap_course (.ask (.ask (.ask (.ask (.tell (.ask (.done _)))))))
  obtain ⟨timed, hclock, hlate⟩ : ∃ timed, Elapses 0 (listing :: .asked .clock (0 : Int) :: (dropping (.ok none) ++
      [.told (.count (.releases .codeModules .unmapped)), .asked .clock (2000 : Int)])) timed 2000 ∧
        late 1000 timed ≠ [] :=
    ⟨_, .called _ (Int.le_refl 0) (.looked (.looked (.called _ (by decide : (0 : Int) ≤ 2000)
      (.called _ (Int.le_refl 2000) (.told _ (.looked (.done 2000))))))), by simp [late, Act.isPatch, Request.isPatch]⟩
  obtain ⟨hreads, honce, -⟩ := Call.ends_punctually hcourse hclock
  exact ⟨_, timed, hcourse, hclock, hlate, hreads, honce⟩

/-- The last patch that a step may send is outdated when the deadline has passed. Then this is what the call fails with,
whatever is still to be done. -/
theorem conflict_when_late : ¬∀ (m : Mapper) (call : Call) (limit now later : Int) (acts : List Act)
    (timed : List Timed) (r : Except Fault MappingResult) (plan : List Step) (moments : List Juncture)
    (left : List Step), Course (call.attempt m (some limit)).run acts r → Elapses now acts timed later →
      moments.map Juncture.toTimed = timed → call.Goes m limit now plan moments later left r →
        ∀ time todo, Stands moments later left time todo → limit ≤ time → todo ≠ [] →
          ∃ operation, r = .error (.deadline operation) := by
  intro hall
  have hremove : ∃ text, Course (once.ledger.remove "ns1" .codeModules (some "a") (some 1000)).run
      (dropping (.error (.refused (some 409) none)) ++ retried text) (.error (.storeConflict "ns1" 1)) :=
    ⟨_, .ask (.ask (.ask (.tell (.tell (.tell (.done _))))))⟩
  obtain ⟨text, hremove⟩ := hremove
  obtain ⟨timed, hclock⟩ : ∃ timed, Elapses 0 (dropping (.error (.refused (some 409) none)) ++ retried text) timed
      2000 := ⟨_, .looked (.called _ (by decide : (0 : Int) ≤ 2000) (.called _ (Int.le_refl 2000)
        (.told _ (.told _ (.told _ (.done 2000))))))⟩
  have hproceeds : once.Proceeds "a" ("unmapping dynakube " ++ "a") 1000
      [.drop "ns1" .codeModules, .drop "ns1" .dataIngest] 0 _ 2000 [.drop "ns1" .dataIngest] _ :=
    .failed (by decide) (.undropped hremove) hclock
  have hgoes : (Call.unmapping (.text "a")).Goes once 1000 0 _ _ 2000 _ _ :=
    .stopped (Int.le_refl 0) unmap_plan hproceeds
  have hcourse : Course ((Call.unmapping (.text "a")).attempt once (some 1000)).run _ _ :=
    unmap_course (Attempt.course_bind.mpr (.inr ⟨[.asked .clock (0 : Int)], (), _, rfl, .ask (.done _),
      Attempt.course_bind.mpr (.inl ⟨_, rfl, hremove⟩)⟩))
  obtain ⟨operation, hr⟩ := hall once (.unmapping (.text "a")) 1000 0 2000 _ _ _ _ _ _ hcourse
    (.called _ (Int.le_refl 0) (.looked hclock)) (by simp [Function.comp_def]) hgoes 2000 _ (.inr ⟨rfl, rfl⟩)
    (by decide) (List.cons_ne_nil _ _)
  cases hr

end Halved

end NamespaceOwnership.Mapper
