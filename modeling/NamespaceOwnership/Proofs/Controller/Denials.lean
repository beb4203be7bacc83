import NamespaceOwnership.Proofs.Controller.Survival
import NamespaceOwnership.Proofs.Controller.Upkeep

/-!
# Access that is denied

Where the listing of DynaKubes or the opening of a stream is answered with status 401 or 403, the loop ends at once: it
calls the API no more and is not ready (`Controller.denial_ends_loop`). The listing of a periodic resync is the only
exception. Its failure is logged like any other, and the loop goes on.
-/
namespace NamespaceOwnership

open Control (Asks Composes Sustains)
open Number (Binary64)
open Session (Course)

variable {α β : Type} {k : Controller} {b b' : Books} {acts acts' pre post : List Act} {act : Act}
  {r : Except Fault Controller.Phase}

/-- The listing of DynaKubes or the opening of a stream is answered with status 401 or 403. -/
def Act.Denies : Act → Prop
  | .asked (.api .listDynaKubes) (.error failure) => failure.status? = some 401 ∨ failure.status? = some 403
  | .asked (.api (.openWatch _ _)) (.error failure) => failure.status? = some 401 ∨ failure.status? = some 403
  | _ => False

/-- Access to it cannot be denied in this way. -/
def Request.Harmless (request : Request) : Prop :=
  request ≠ .api .listDynaKubes ∧ ∀ version timeout, request ≠ .api (.openWatch version timeout)

theorem Request.OfMapping.harmless {request : Request} (h : request.OfMapping) : request.Harmless := by
  cases h <;> simp [Request.Harmless]

theorem Request.OfOperation.harmless {request : Request} (h : request.OfOperation) : request.Harmless := by
  cases h with
  | mapping h => exact h.harmless
  | wallTime => simp [Request.Harmless]
  | report => simp [Request.Harmless]

theorem Request.Harmless.not_denies {request : Request} (h : request.Harmless) (answer : request.Answer) :
    ¬(Act.asked request answer).Denies := by
  intro hdenies
  unfold Act.Denies at hdenies
  split at hdenies
  · rename_i heq
    cases heq
    exact h.1 rfl
  · rename_i heq
    cases heq
    exact h.2 _ _ rfl
  · exact hdenies

theorem Act.Denies.exists_call (h : act.Denies) : ∃ call answer, act = .asked (.api call) answer := by
  unfold Act.Denies at h
  split at h
  · exact ⟨_, _, rfl⟩
  · exact ⟨_, _, rfl⟩
  · exact h.elim

/-- The act is the listing of a periodic resync, whose failure is logged. -/
def Periodic (pre post : List Act) : Prop :=
  ∃ before after, pre = before ++ [.told (.log .info "Starting periodic resync of all dynakubes")] ∧
    post = .told (.log .error "Periodic resync failed") :: after

/-- Access was denied to nothing but periodic resyncs. -/
def Granted (acts : List Act) : Prop :=
  ∀ pre act post, acts = pre ++ act :: post → act.Denies → Periodic pre post

/-- Access was denied, and then the loop ended without any other call to the API, and is not ready. -/
structure Ended (pre : List Act) (act : Act) (post : List Act) (r : Except Fault Controller.Phase) (b : Books) :
    Prop where
  granted : Granted pre
  denies : act.Denies
  silent : ∀ call answer, .asked (.api call) answer ∉ post
  result : r = .ok .ended
  ready : b.ready = false

/-- Where access was denied to anything else, the loop has ended. -/
def Heeded (acts : List Act) (r : Except Fault Controller.Phase) (b : Books) : Prop :=
  Granted acts ∨ ∃ pre act post, acts = pre ++ act :: post ∧ Ended pre act post r b

/-- An act of two parts is one of the first or one of the second. -/
theorem exists_of_append (h : acts ++ acts' = pre ++ act :: post) :
    (∃ rest, acts = pre ++ act :: rest ∧ post = rest ++ acts') ∨
    ∃ rest, pre = acts ++ rest ∧ acts' = rest ++ act :: post := by
  rcases List.append_eq_append_iff.mp h with ⟨rest, rfl, hrest⟩ | ⟨rest, rfl, hrest⟩
  · exact .inr ⟨rest, rfl, hrest⟩
  · cases rest with
    | nil => exact .inr ⟨[], by simp, by simpa using hrest.symm⟩
    | cons first rest =>
      obtain ⟨rfl, rfl⟩ := List.cons.inj hrest
      exact .inl ⟨rest, rfl, rfl⟩

theorem Granted.append (h : Granted acts) (h' : Granted acts') : Granted (acts ++ acts') := by
  intro pre act post hacts hdenies
  rcases exists_of_append hacts with ⟨rest, hfirst, rfl⟩ | ⟨rest, rfl, hsecond⟩
  · obtain ⟨before, after, hpre, rfl⟩ := h pre act rest hfirst hdenies
    exact ⟨before, after ++ acts', hpre, rfl⟩
  · obtain ⟨before, after, rfl, hpost⟩ := h' rest act post hsecond hdenies
    exact ⟨acts ++ before, after, by simp, hpost⟩

theorem granted_of_undenied (h : ∀ act ∈ acts, ¬act.Denies) : Granted acts := by
  rintro pre act post rfl hdenies
  exact absurd hdenies (h act (by simp))

theorem granted_of_harmless (h : ∀ request answer, .asked request answer ∈ acts → request.Harmless) : Granted acts := by
  refine granted_of_undenied fun act hmem hdenies => ?_
  obtain ⟨call, answer, rfl⟩ := hdenies.exists_call
  exact (h _ answer hmem).not_denies answer hdenies

theorem granted_composes : Composes fun _ acts _ => Granted acts :=
  ⟨fun _ => granted_of_undenied (by simp), Granted.append⟩

/-- Access was denied just now, and the loop ends. -/
theorem Heeded.ended (hdenies : act.Denies) (hsilent : ∀ call answer, .asked (.api call) answer ∉ post)
    (hr : r = .ok .ended) (hready : b.ready = false) : Heeded (act :: post) r b :=
  .inr ⟨[], act, post, rfl, granted_composes.refl b, hdenies, hsilent, hr, hready⟩

theorem Heeded.prepend (h : Heeded acts' r b) (hacts : Granted acts) : Heeded (acts ++ acts') r b := by
  rcases h with hgranted | ⟨pre, act, post, rfl, hended⟩
  · exact .inl (hacts.append hgranted)
  · exact .inr ⟨acts ++ pre, act, post, by simp, { hended with granted := hacts.append hended.granted }⟩

/-- What asks nothing of the API makes no difference. -/
theorem Heeded.append (h : Heeded acts r b) (hsilent : ∀ call answer, .asked (.api call) answer ∉ acts') :
    Heeded (acts ++ acts') r b := by
  rcases h with hgranted | ⟨pre, act, post, rfl, hended⟩
  · refine .inl (hgranted.append (granted_of_undenied fun act hmem hdenies => ?_))
    obtain ⟨call, answer, rfl⟩ := hdenies.exists_call
    exact hsilent call answer hmem
  · refine .inr ⟨pre, act, post ++ acts', by simp, { hended with silent := fun call answer hmem => ?_ }⟩
    exact (List.mem_append.mp hmem).elim (hended.silent call answer) (hsilent call answer)

namespace Control

open Controller (Phase)

/-- Access may be denied to periodic resyncs. -/
def Passes (x : Control α) : Prop := Sustains (fun _ acts _ => Granted acts) x

/-- If access is denied to anything else, the loop ends. -/
def Heeds (x : Control Phase) : Prop := ∀ b acts r b', Course (x.run.run b) acts (r, b') → Heeded acts r b'

theorem Asks.passes {x : Control α} (h : Asks Request.Harmless x) : Passes x := fun b acts r b' hcourse =>
  granted_of_harmless (h b acts r b' hcourse)

namespace Heeds

variable {x : Control α} {f : α → Control Phase}

theorem of_passes {x : Control Phase} (h : Passes x) : Heeds x := fun b acts r b' hcourse =>
  .inl (h b acts r b' hcourse)

theorem bind (hx : Passes x) (hf : ∀ a, Heeds (f a)) : Heeds (x >>= f) := by
  intro b acts r b' h
  rcases course_bind.mp h with ⟨fault, -, hfirst⟩ | ⟨first, a, b₁, rest, rfl, h₁, h₂⟩
  · exact .inl (hx _ _ _ _ hfirst)
  · exact (hf a _ _ _ _ h₂).prepend (hx _ _ _ _ h₁)

theorem outcome_bind {f : Except Fault α → Control Phase} (hx : Passes x) (hf : ∀ r, Heeds (f r)) :
    Heeds (x.outcome >>= f) := by
  intro b acts r b' h
  obtain ⟨first, v, b₁, rest, rfl, h₁, h₂⟩ := course_outcome_bind.mp h
  exact (hf v _ _ _ _ h₂).prepend (hx _ _ _ _ h₁)

/-- A stream is closed without a call to the API. -/
theorem closing {x : Control Phase} (hx : Heeds x) : Heeds (Controller.closing x) := by
  intro b acts r b' h
  obtain ⟨first, v, b₁, rest, rfl, h₁, h₂⟩ := course_outcome_bind.mp h
  obtain ⟨_, _, last, rfl, hclose, hreturn⟩ := course_session_bind.mp h₂
  obtain rfl := Session.course_request.mp hclose
  have hlast : last = [] ∧ (r, b') = (v, b₁) := by
    cases v <;> exact Session.course_done.mp hreturn
  obtain ⟨rfl, hr⟩ := hlast
  cases hr
  exact (hx _ _ _ _ h₁).append (by simp)

end Heeds
end Control

namespace Controller

open Control (Passes Heeds course_bind course_session_bind course_outcome_bind course_attempt)

/-- A resync fails at its listing, or nothing else is asked to which access can be denied. -/
theorem list_course {r : Except Fault (List DynaKube × Value)} (h : Course DynaKubes.list.run acts r) :
    (∃ failure, acts = [.asked (.api .listDynaKubes) (.error failure)] ∧ r = .error (.call failure)) ∨
    ∃ response rest, acts = .asked (.api .listDynaKubes) (.ok response) :: rest ∧
      ∀ request answer, .asked request answer ∉ rest := by
  rcases Attempt.course_bind.mp h with ⟨fault, rfl, hcall⟩ | ⟨_, response, rest, rfl, hcall, hread⟩
  all_goals
    obtain ⟨_, reply, _, rfl, hasked, hend⟩ := Attempt.course_lift_bind.mp hcall
    obtain rfl := Session.course_request.mp hasked
    cases reply
  · obtain ⟨rfl, hr⟩ := Attempt.course_throw.mp hend
    cases hr
    exact .inl ⟨_, rfl, rfl⟩
  · cases (Attempt.course_pure.mp hend).2
  · cases (Attempt.course_throw.mp hend).2
  · obtain ⟨rfl, hr⟩ := Attempt.course_pure.mp hend
    cases hr
    have hnone : (do
        let entries ← DynaKubes.fieldsOf response
        let found ← DynaKubes.readAll (← DynaKubes.itemsOf (Value.entry entries "items"))
        let metadata ← DynaKubes.fieldsOf (Value.entry entries "metadata").orEmpty
        return (found.mergeSort (fun a b => decide (a.name ≤ b.name)), Value.entry metadata "resourceVersion") :
          Attempt (List DynaKube × Value)).run.Within fun _ => False := by
      refine Attempt.within_bind (DynaKubes.fieldsOf_within _) fun entries => ?_
      refine Attempt.within_bind (DynaKubes.itemsOf_within _) fun items => ?_
      refine Attempt.within_bind (DynaKubes.readAll_within _) fun found => ?_
      exact Attempt.within_bind (DynaKubes.fieldsOf_within _) fun metadata => trivial
    exact .inr ⟨response, rest, by simp, fun request answer hmem => hread.within hnone hmem⟩

theorem resync_course {r : Except Fault Value} (h : Course (k.resync.run.run b) acts (r, b')) :
    (∃ failure, acts = [.asked (.api .listDynaKubes) (.error failure)] ∧ r = .error (.call failure)) ∨
    Granted acts := by
  have hlisted {response : Value} {rest : List Act} (hrest : ∀ request answer, .asked request answer ∉ rest) :
      Granted (.asked (.api .listDynaKubes) (.ok response) :: rest) := by
    refine granted_of_undenied fun act hmem => ?_
    rcases List.mem_cons.mp hmem with rfl | hmem
    · simp [Act.Denies]
    · intro hdenies
      obtain ⟨call, answer, rfl⟩ := hdenies.exists_call
      exact hrest _ _ hmem
  rcases course_bind.mp h with ⟨fault, rfl, hlist⟩ | ⟨first, listed, b₁, rest, rfl, hlist, hrest⟩
  · rcases list_course (course_attempt.mp hlist).1 with ⟨failure, rfl, hr⟩ | ⟨response, rest, rfl, hrest⟩
    · cases hr
      exact .inl ⟨failure, rfl, rfl⟩
    · exact .inr (hlisted hrest)
  · rcases list_course (course_attempt.mp hlist).1 with ⟨failure, -, hr⟩ | ⟨response, notes, rfl, hnotes⟩
    · cases hr
    have hclosed := Asks.closed Request.Harmless
    have hwork : Asks Request.Harmless (do
        k.reconcileAll listed.1
        let namespaces ← Control.attempt k.mapper.ledger.list
        k.unmapOrphans (orphans (listed.1.map (·.name)) namespaces)
        k.planResync
        return listed.2) := by
      refine .bind (hclosed.reconcileAll fun d _ => (reconcile_asks d).mono fun _ h => h.harmless) fun _ => ?_
      refine .bind (.attempt ((Mapper.list_within k.mapper).mono fun _ h => h.harmless)) fun records => ?_
      refine .bind (hclosed.unmapOrphans fun orphan _ => (unmap_asks _).mono fun _ h => h.harmless) fun _ => ?_
      exact .bind ((planResync_asks k).mono fun _ h => h.harmless) fun _ => .pure
    exact .inr ((hlisted hnotes).append (granted_of_harmless (hwork _ _ _ _ hrest)))

/-- The failure of a periodic resync is logged, whatever it is that refuses the listing. -/
theorem granted_periodic {failure : CallFailure} {rest : List Act} (hrest : Granted rest) :
    Granted (.told (.log .info "Starting periodic resync of all dynakubes") ::
      .asked (.api .listDynaKubes) (.error failure) :: .told (.log .error "Periodic resync failed") :: rest) := by
  intro pre act post hacts hdenies
  match pre with
  | [] =>
    obtain ⟨rfl, -⟩ := List.cons.inj hacts
    exact hdenies.elim
  | [start] =>
    obtain ⟨rfl, hlisting⟩ := List.cons.inj hacts
    obtain ⟨-, rfl⟩ := List.cons.inj hlisting
    exact ⟨[], rest, rfl, rfl⟩
  | start :: listing :: pre =>
    have hlogged : Granted (.told (.log .error "Periodic resync failed") :: rest) :=
      (granted_of_undenied (by simp [Act.Denies]) : Granted [.told (.log .error "Periodic resync failed")]).append hrest
    obtain ⟨before, after, hpre, hpost⟩ := hlogged pre act post (List.cons.inj (List.cons.inj hacts).2).2 hdenies
    exact ⟨start :: listing :: before, after, by simp [hpre], hpost⟩

theorem periodicResync_passes (k : Controller) : Passes k.periodicResync := by
  intro b acts r b' h
  obtain ⟨_, _, rest, rfl, hstart, hrest⟩ := course_session_bind.mp h
  obtain ⟨first, v, b₁, last, rfl, hresync, hlast⟩ := course_outcome_bind.mp hrest
  obtain rfl := Session.course_note.mp hstart
  have hstarted : Granted [.told (.log .info "Starting periodic resync of all dynakubes")] :=
    granted_of_undenied (by simp [Act.Denies])
  rcases resync_course hresync with ⟨failure, rfl, rfl⟩ | hgranted
  · cases failure with
    | refused status reason =>
      obtain ⟨_, _, planned, rfl, hlogged, hplan⟩ := course_session_bind.mp hlast
      obtain rfl := Session.course_note.mp hlogged
      exact granted_periodic (granted_of_harmless ((planResync_asks k).mono (fun _ h => h.harmless) _ _ _ _ hplan))
    | _ =>
      obtain ⟨rfl, -⟩ := Session.course_done.mp hlast
      exact hstarted.append (granted_of_undenied (by simp [Act.Denies, CallFailure.status?]))
  · refine hstarted.append (hgranted.append (granted_of_harmless ?_))
    split at hlast
    · exact Asks.pure _ _ _ _ hlast
    · exact Asks.bind (.note _) (fun _ => (planResync_asks k).mono fun _ h => h.harmless) _ _ _ _ hlast
    · exact Asks.throw _ _ _ _ hlast

theorem drain_passes (now : Binary64) : Passes (k.drain now) := by
  refine .bind granted_composes (.get granted_composes) fun b => ?_
  refine .bind granted_composes ((retryAll_asks _).mono fun _ h => h.harmless).passes fun _ => ?_
  refine .bind granted_composes (.get granted_composes) fun b => ?_
  split
  · exact k.periodicResync_passes
  · exact .pure granted_composes

theorem exists_denied {failure : CallFailure} (h : failure.status? = some 401 ∨ failure.status? = some 403) :
    ∃ status, denied? (.call failure) = some status := by
  rcases h with h | h
  · exact ⟨401, denied?_eq_some.mpr ⟨h, .inl rfl⟩⟩
  · exact ⟨403, denied?_eq_some.mpr ⟨h, .inr rfl⟩⟩

/-- The loop ends without a call to the API, and is not ready. -/
def Concedes (x : Control Phase) : Prop := ∀ b acts r b', Course (x.run.run b) acts (r, b') →
  r = .ok .ended ∧ b'.ready = false ∧ ∀ call answer, .asked (.api call) answer ∉ acts

/-- The resync of the loop itself is heeded. -/
theorem resync_heeds {f : Except Fault Value → Control Phase} (hf : ∀ r, Asks Request.Harmless (f r))
    (hdenied : ∀ fault status, denied? fault = some status → Concedes (f (.error fault))) :
    Heeds (k.resync.outcome >>= f) := by
  intro b acts r b' h
  obtain ⟨first, v, b₁, rest, rfl, hresync, hrest⟩ := course_outcome_bind.mp h
  rcases resync_course hresync with ⟨failure, rfl, rfl⟩ | hgranted
  · by_cases hdenies : (Act.asked (.api .listDynaKubes) (.error failure)).Denies
    · obtain ⟨status, hstatus⟩ := exists_denied hdenies
      obtain ⟨hr, hready, hsilent⟩ := hdenied _ status hstatus _ _ _ _ hrest
      exact .ended hdenies hsilent hr hready
    · have hlisting : Granted [.asked (.api .listDynaKubes) (.error failure)] :=
        granted_of_undenied (by simpa using hdenies)
      exact .inl (hlisting.append (granted_of_harmless (hf _ _ _ _ _ hrest)))
  · exact .inl (hgranted.append (granted_of_harmless (hf v _ _ _ _ hrest)))

theorem Concedes.note {n : Note} {x : Control Phase} (hx : Concedes x) : Concedes (do
    liftM (Session.note n)
    x) := by
  intro b acts r b' h
  obtain ⟨_, _, rest, rfl, hnote, hrest⟩ := course_session_bind.mp h
  obtain rfl := Session.course_note.mp hnote
  obtain ⟨hr, hready, hsilent⟩ := hx _ _ _ _ hrest
  exact ⟨hr, hready, by simpa using hsilent⟩

theorem Concedes.unready : Concedes (do
    setReady false
    return .ended) := by
  intro b acts r b' h
  obtain ⟨rfl, hr⟩ := Session.course_done.mp h
  cases hr
  exact ⟨rfl, rfl, by simp⟩

theorem Concedes.closing {x : Control Phase} (hx : Concedes x) : Concedes (closing x) := by
  intro b acts r b' h
  obtain ⟨first, v, b₁, rest, rfl, h₁, h₂⟩ := course_outcome_bind.mp h
  obtain ⟨rfl, hready, hsilent⟩ := hx _ _ _ _ h₁
  obtain ⟨_, _, last, rfl, hclose, hreturn⟩ := course_session_bind.mp h₂
  obtain rfl := Session.course_request.mp hclose
  obtain ⟨rfl, hr⟩ := Session.course_done.mp hreturn
  cases hr
  exact ⟨rfl, hready, by simpa using hsilent⟩

/-- Only refusals have a status. -/
theorem isRefusal_of_denied {fault : Fault} {status : Int} (h : denied? fault = some status) :
    fault.isRefusal = true := by
  obtain ⟨hstatus, -⟩ := denied?_eq_some.mp h
  cases fault with
  | call failure =>
    cases failure with
    | refused => rfl
    | _ => cases hstatus
  | _ => cases hstatus

theorem pause_asks (delay : Nat) : Asks Request.Harmless (pause delay) :=
  .bind (.request (by simp [Request.Harmless])) fun _ => .request (by simp [Request.Harmless])

theorem stepStarting_heeds (delay : Nat) : Heeds (k.stepStarting delay) := by
  refine .bind (Asks.passes (.request (by simp [Request.Harmless]))) fun stop => ?_
  split
  · exact .of_passes (.pure granted_composes)
  refine resync_heeds (fun r => ?_) fun fault status hstatus => ?_
  · cases r with
    | ok version => exact .bind (.modify _) fun _ => .bind (.note _) fun _ => .pure
    | error fault =>
      dsimp only
      split
      · exact .bind (.note _) fun _ => .bind (.modify _) fun _ => .pure
      · exact .bind (.note _) fun _ => .bind (.note _) fun _ => .bind (pause_asks _) fun _ => .pure
  · dsimp only
    rw [hstatus]
    exact Concedes.unready.note

theorem recoverExpired_heeds (delay streams : Nat) : Heeds (k.recoverExpired delay streams) := by
  refine .bind (Asks.passes (.note _)) fun _ => resync_heeds (fun r => ?_) fun fault status hstatus => ?_
  · cases r with
    | ok version => exact .pure
    | error fault =>
      dsimp only
      split
      · have hthrow : Asks Request.Harmless (throw fault : Control Phase) := .throw
        exact hthrow
      split
      · exact .bind (.note _) fun _ => .bind (.modify _) fun _ => .pure
      · exact .bind (.note _) fun _ => .bind (.note _) fun _ => .pure
  · dsimp only
    rw [isRefusal_of_denied hstatus, hstatus]
    exact Concedes.unready.note

theorem recover_heeds (fault : Fault) (version : Value) (delay streams : Nat) :
    Heeds (k.recover fault version delay streams) := by
  unfold recover
  split
  · exact recoverExpired_heeds delay streams
  refine .of_passes (Asks.passes ?_)
  split
  · exact .bind (.note _) fun _ => .bind (.note _) fun _ => .bind (.modify _) fun _ => .pure
  · exact .bind (.note _) fun _ => .bind (.note _) fun _ => .bind (pause_asks _) fun _ => .pure

theorem recover_concedes {fault : Fault} {status : Int} (h : denied? fault = some status) (version : Value)
    (delay streams : Nat) : Concedes (k.recover fault version delay streams) := by
  have hstatus : fault.status? ≠ some 410 := by
    obtain ⟨hstatus, rfl | rfl⟩ := denied?_eq_some.mp h <;> simp [hstatus]
  unfold recover
  rw [if_neg hstatus, h]
  exact Concedes.unready.note.note

theorem openWatch_heeds (version next : Value) (timeout delay streams : Nat) : Heeds (do
    match ← Session.call (.openWatch version timeout) with
    | .ok _ => return .following next delay streams
    | .error failure => closing (k.recover (.call failure) next delay streams)) := by
  intro b acts r b' h
  obtain ⟨_, reply, rest, rfl, hasked, hrest⟩ := course_session_bind.mp h
  obtain rfl := Session.course_request.mp hasked
  by_cases hdenies : (Act.asked (.api (.openWatch version timeout)) reply).Denies
  · cases reply with
    | ok _ => exact hdenies.elim
    | error failure =>
      obtain ⟨status, hstatus⟩ := exists_denied hdenies
      obtain ⟨hr, hready, hsilent⟩ := (recover_concedes hstatus next delay streams).closing _ _ _ _ hrest
      exact .ended hdenies hsilent hr hready
  · have hopening : Granted [.asked (.api (.openWatch version timeout)) reply] :=
      granted_of_undenied (by simpa using hdenies)
    cases reply with
    | ok _ =>
      obtain ⟨rfl, -⟩ := Session.course_done.mp hrest
      exact .inl hopening
    | error failure =>
      exact ((recover_heeds _ next delay streams).closing _ _ _ _ hrest).prepend hopening

theorem openStream_heeds (version : Value) (delay streams : Nat) : Heeds (k.openStream version delay streams) := by
  refine .bind (Asks.passes .get) fun b => .bind (Asks.passes (.request (by simp [Request.Harmless]))) fun now => ?_
  cases b.watchTimeout (Clock.seconds now) with
  | error fault => exact (recover_heeds _ _ _ _).closing
  | ok timeout => exact openWatch_heeds version version timeout delay streams

theorem stepOpening_heeds (version : Value) (delay streams : Nat) : Heeds (k.stepOpening version delay streams) := by
  refine .bind (Asks.passes (.request (by simp [Request.Harmless]))) fun stop => ?_
  split
  · exact .of_passes (Asks.passes (.bind (.modify _) fun _ => .pure))
  refine .bind (Asks.passes (.request (by simp [Request.Harmless]))) fun now => .bind (drain_passes _) fun _ => ?_
  split
  · exact .bind (Asks.passes (.note _)) fun _ => openStream_heeds _ _ _
  · exact openStream_heeds _ _ _

theorem stepFollowing_heeds (version : Value) (delay streams : Nat) :
    Heeds (k.stepFollowing version delay streams) := by
  refine .bind (Asks.passes (.request (by simp [Request.Harmless]))) fun answer => ?_
  cases answer with
  | failed failure => exact (recover_heeds _ _ _ _).closing
  | ended => exact (Heeds.of_passes (.pure granted_composes)).closing
  | event event =>
  refine .bind (Asks.passes (.request (by simp [Request.Harmless]))) fun stop => ?_
  split
  · exact (Heeds.of_passes (.pure granted_composes)).closing
  split
  · exact (recover_heeds _ _ _ _).closing
  · rename_i next type object _
    have hwork : Passes (do
        let _ ← k.handleEvent type object
        k.drain (Clock.seconds (← Session.clock)) : Control Unit) := by
      refine .bind granted_composes ((handleEvent_asks type object).mono fun _ h => h.harmless).passes fun _ => ?_
      exact .bind granted_composes (Asks.passes (.request (by simp [Request.Harmless]))) fun now => drain_passes _
    refine .outcome_bind hwork fun result => ?_
    cases result with
    | ok _ => exact .of_passes (.pure granted_composes)
    | error fault => exact (recover_heeds _ _ _ _).closing

theorem step_heeds (phase : Phase) : Heeds (k.step phase) := by
  cases phase with
  | starting delay => exact stepStarting_heeds delay
  | opening version delay streams => exact stepOpening_heeds version delay streams
  | following version delay streams => exact stepFollowing_heeds version delay streams
  | ended => exact .of_passes (.pure granted_composes)

theorem steps_ended (k : Controller) (n : Nat) : k.steps n .ended = return .ended := by
  cases n <;> rfl

/-- Once the loop has ended, no step follows. -/
theorem steps_heeds (n : Nat) (phase : Phase) : Heeds (k.steps n phase) := by
  induction n generalizing phase with
  | zero => exact .of_passes (.pure granted_composes)
  | succ n ih =>
    have hstep : Heeds (k.step phase >>= k.steps n) := by
      intro b acts r b' h
      rcases course_bind.mp h with ⟨fault, rfl, hfirst⟩ | ⟨first, next, b₁, rest, rfl, h₁, h₂⟩
      · exact step_heeds phase _ _ _ _ hfirst
      rcases step_heeds phase _ _ _ _ h₁ with hgranted | ⟨pre, act, post, rfl, hended⟩
      · exact (ih next _ _ _ _ h₂).prepend hgranted
      · obtain rfl : next = .ended := Except.ok.inj hended.result
        rw [steps_ended] at h₂
        obtain ⟨rfl, hr⟩ := Session.course_done.mp h₂
        cases hr
        exact .inr ⟨pre, act, post, by simp, hended⟩
    cases phase with
    | ended => exact .of_passes (.pure granted_composes)
    | starting delay => exact hstep
    | opening version delay streams => exact hstep
    | following version delay streams => exact hstep

theorem runFor_heeds (k : Controller) (n : Nat) : Heeds (k.runFor n) :=
  .bind (Asks.passes (.request (by simp [Request.Harmless]))) fun _ => steps_heeds n _

/-- Whatever requests of the loop are answered: where the listing of DynaKubes or the opening of a stream is answered
with status 401 or 403, the loop returns, does not call the API any more and is not ready. The listing of a periodic
resync is the exception: its failure is logged, and the loop goes on. -/
theorem denial_ends_loop {n : Nat}
    (h : Course ((k.runFor n).run.run b) (pre ++ act :: post) (r, b')) (hdenies : act.Denies) :
    Periodic pre post ∨ r = .ok .ended ∧ b'.ready = false ∧ ∀ call answer, .asked (.api call) answer ∉ post := by
  rcases runFor_heeds k n _ _ _ _ h with hgranted | ⟨pre', act', post', hacts, hended⟩
  · exact .inl (hgranted pre act post rfl hdenies)
  rcases exists_of_append hacts.symm with ⟨rest, rfl, rfl⟩ | ⟨rest, rfl, hrest⟩
  · -- before the denial that ended the loop there were only those of periodic resyncs
    obtain ⟨before, after, hpre, rfl⟩ := hended.granted pre act rest rfl hdenies
    exact .inl ⟨before, after ++ act' :: post', hpre, rfl⟩
  · cases rest with
    | nil =>
      obtain ⟨rfl, rfl⟩ := List.cons.inj hrest
      exact .inr ⟨hended.result, hended.ready, hended.silent⟩
    | cons first rest =>
      -- after it nothing is called that could be denied
      obtain ⟨call, answer, rfl⟩ := hdenies.exists_call
      obtain ⟨-, rfl⟩ := List.cons.inj hrest
      exact absurd (List.mem_append_right rest List.mem_cons_self) (hended.silent call answer)

section Denied

private def dismissed : Controller := ⟨⟨⟨2, Nat.two_pos⟩, "operator"⟩, 30, 300⟩

private def forbidden : CallFailure := .refused (some 403) (some "Forbidden")

/-- After the first resync the loop is ready and about to open a stream. -/
private def opened : Books := { nextResync := some (.ofInt 301), ready := true }

/-- Nobody stops the loop, and to list DynaKubes is forbidden. -/
private def forbidding (now : Int) (streams : Except CallFailure Unit) : (request : Request) → request.Answer
  | .stopRequested => false
  | .clock => now
  | .api .listDynaKubes => .error forbidden
  | .api (.openWatch _ _) => streams
  | request => Session.refusing request

/-- The first resync finds nothing. -/
private theorem dismissed_starts : ∃ acts,
    Course ((dismissed.stepStarting firstDelay).run.run {}) acts (.ok (.opening .null firstDelay 0), opened) := by
  have hplan : Course (dismissed.planResync.run.run {}) [.asked .clock (1000 : Int)]
      (.ok ⟨⟩, { nextResync := some (.ofInt 301) }) := planResync_course (by decide +kernel) (by decide +kernel)
  exact ⟨_, course_session_bind.mpr ⟨[_], false, _, rfl, .ask (.done _),
    course_outcome_bind.mpr ⟨_, _, _, _, rfl, resync_course_empty hplan, .tell (.done _)⟩⟩⟩

/-- Then the opening of a stream completes two steps of the loop. -/
private theorem dismissed_course {phase : Phase}
    (h : Course ((dismissed.stepOpening .null firstDelay 0).run.run opened) acts (.ok phase, b')) :
    ∃ first, Course ((dismissed.runFor 2).run.run {}) (first ++ acts) (.ok phase, b') := by
  obtain ⟨first, hstart⟩ := dismissed_starts
  have hopening : Course ((dismissed.steps 1 (.opening .null firstDelay 0)).run.run opened) acts (.ok phase, b') :=
    course_bind.mpr (.inr ⟨acts, phase, b', [], by simp, h, .done _⟩)
  have hsteps : Course ((dismissed.steps 2 (.starting firstDelay)).run.run {}) (first ++ acts) (.ok phase, b') :=
    course_bind.mpr (.inr ⟨first, _, opened, acts, rfl, hstart, hopening⟩)
  exact ⟨.asked .withdrawStop () :: first, course_session_bind.mpr ⟨[_], (), _, rfl, .ask (.done ()), hsteps⟩⟩

/-- Where a stream cannot be opened after the first resync, the theorem says that the loop ends and is not ready. -/
theorem denial_ends_loop_stream : ∃ (k : Controller) (n : Nat) (pre post : List Act) (version : Value) (timeout : Nat)
    (failure : CallFailure) (r : Except Fault Phase) (b' : Books),
      Course ((k.runFor n).run.run {}) (pre ++ .asked (.api (.openWatch version timeout)) (.error failure) :: post)
        (r, b') ∧ failure.status? = some 403 ∧ r = .ok .ended ∧ b'.ready = false := by
  obtain ⟨first, hcourse⟩ := dismissed_course (Session.course_answeredBy (forbidding 1000 (.error forbidden))
    ((dismissed.stepOpening .null firstDelay 0).run.run opened))
  have hacts : ∃ post, (((dismissed.stepOpening .null firstDelay 0).run.run opened).answeredBy
      (forbidding 1000 (.error forbidden))).1 =
        [.asked .stopRequested false, .asked .clock (1000 : Int), .asked .clock (1000 : Int)] ++
          .asked (.api (.openWatch .null 30)) (.error forbidden) :: post := ⟨_, rfl⟩
  obtain ⟨post, hpost⟩ := hacts
  rw [hpost, ← List.append_assoc] at hcourse
  rcases denial_ends_loop hcourse (.inr rfl) with ⟨before, after, hpre, -⟩ | ⟨hr, hready, -⟩
  · -- no periodic resync was begun
    have hlast := congrArg List.getLast? hpre
    simp at hlast
  · exact ⟨dismissed, 2, _, post, .null, 30, forbidden, _, _, hcourse, rfl, hr, hready⟩

/-- When the next resync is due, the DynaKubes cannot be listed; a stream is opened then, and the loop is ready. -/
theorem denied_resync_goes_on : ∃ (k : Controller) (n : Nat) (pre post : List Act) (failure : CallFailure)
    (version : Value) (delay streams timeout : Nat) (b' : Books),
      Course ((k.runFor n).run.run {}) (pre ++ .asked (.api .listDynaKubes) (.error failure) :: post)
        (.ok (.following version delay streams), b') ∧ failure.status? = some 403 ∧ b'.ready = true ∧
      .asked (.api (.openWatch version timeout)) (.ok ()) ∈ post := by
  obtain ⟨first, hcourse⟩ := dismissed_course (Session.course_answeredBy (forbidding 301000 (.ok ()))
    ((dismissed.stepOpening .null firstDelay 0).run.run opened))
  have hacts : (((dismissed.stepOpening .null firstDelay 0).run.run opened).answeredBy
      (forbidding 301000 (.ok ()))).1 = [.asked .stopRequested false, .asked .clock (301000 : Int),
        .told (.log .info "Starting periodic resync of all dynakubes")] ++
          .asked (.api .listDynaKubes) (.error forbidden) ::
          [.told (.log .error "Periodic resync failed"), .asked .clock (301000 : Int), .asked .clock (301000 : Int),
            .asked (.api (.openWatch .null 30)) (.ok ())] := rfl
  rw [hacts, ← List.append_assoc] at hcourse
  exact ⟨dismissed, 2, _, _, forbidden, .null, firstDelay, 1, 30, _, hcourse, rfl, rfl, by simp⟩

end Denied

end Controller
end NamespaceOwnership
