import NamespaceOwnership.Proofs.Ledger.Attempts
import NamespaceOwnership.Proofs.Mapping.Warrants

/-!
# How an update ends

An update looks at the clock, reads its namespace, has the change work out what to write, and sends a patch. Here any
request may be answered with anything, and the change is an arbitrary one that may make calls of its own: the parts of
an update (`Ledger.Part`) keep what the update does itself apart from that (`Ledger.Recounted`). How it ends is read off
its own calls (`Ledger.Exits`) and off its looks at the clock (`Ledger.OnTime`), which is found for one attempt and then
for all of them (`Ledger.modify_exits`).
-/
namespace NamespaceOwnership.Ledger

open Session (Course)

variable {σ : Type} {space operation : String} {deadline : Option Int} {change : Change σ} {st st₁ st₂ : σ}
  {acts acts' : List Act} {r : Except Fault (Bool × σ)}

/-- A call that an update makes itself. With a reading comes what the change makes of it. -/
inductive Call (σ : Type) where
  | unread (failure : CallFailure)
  | read (record : NamespaceRecord) (made : Except Fault ((Labels × Annotations) × σ))
  | patched (patch : NamespacePatch) (reply : Except CallFailure (Option NamespaceObject))

namespace Call

def isPatch : Call σ → Bool
  | .patched _ _ => true
  | .unread _ | .read _ _ => false

/-- The change leaves the record as it is. -/
def isIdle : Call σ → Bool
  | .read record (.ok (new, _)) => unchanged record new
  | .read _ (.error _) | .unread _ | .patched _ _ => false

/-- The namespace does not exist. -/
def isGone : Call σ → Prop
  | .unread failure | .patched _ (.error failure) => failure.status? = some 404
  | .read _ _ | .patched _ (.ok _) => False

def reply? : Call σ → Option (Except CallFailure (Option NamespaceObject))
  | .patched _ reply => some reply
  | .unread _ | .read _ _ => none

/-- The change raised an exception. -/
def fault? : Call σ → Option Fault
  | .read _ (.error fault) => some fault
  | .read _ (.ok _) | .unread _ | .patched _ _ => none

/-- A failure that is neither a missing namespace nor a lost race. -/
def refusal? : Call σ → Option CallFailure
  | .unread failure => if failure.status? = some 404 then none else some failure
  | .patched _ (.error failure) =>
    if failure.status? = some 404 ∨ failure.status? = some 409 then none else some failure
  | .read _ _ | .patched _ (.ok _) => none

end Call

def lookups (calls : List (Call σ)) : List (Call σ) := calls.filter fun call => !call.isPatch

/-- The answers to the patches. -/
def replies (calls : List (Call σ)) : List (Except CallFailure (Option NamespaceObject)) :=
  calls.filterMap Call.reply?

/-- What the change raised. -/
def faults (calls : List (Call σ)) : List Fault := calls.filterMap Call.fault?

def refusals (calls : List (Call σ)) : List CallFailure := calls.filterMap Call.refusal?

section Calls

variable {calls : List (Call σ)} {failure : CallFailure} {record : NamespaceRecord} {fault : Fault}
  {made : (Labels × Annotations) × σ} {patch : NamespacePatch} {reply : Except CallFailure (Option NamespaceObject)}

@[simp] theorem lookups_nil : lookups ([] : List (Call σ)) = [] := rfl
@[simp] theorem lookups_unread : lookups (.unread failure :: calls) = .unread failure :: lookups calls := rfl
@[simp] theorem lookups_read {made : Except Fault ((Labels × Annotations) × σ)} :
    lookups (.read record made :: calls) = .read record made :: lookups calls := rfl
@[simp] theorem lookups_patched : lookups (.patched patch reply :: calls) = lookups calls := rfl

@[simp] theorem replies_nil : replies ([] : List (Call σ)) = [] := rfl
@[simp] theorem replies_unread : replies (.unread failure :: calls) = replies calls := rfl
@[simp] theorem replies_read {made : Except Fault ((Labels × Annotations) × σ)} :
    replies (.read record made :: calls) = replies calls := rfl
@[simp] theorem replies_patched : replies (.patched patch reply :: calls) = reply :: replies calls := rfl

@[simp] theorem faults_append (calls calls' : List (Call σ)) :
    faults (calls ++ calls') = faults calls ++ faults calls' := List.filterMap_append

@[simp] theorem faults_nil : faults ([] : List (Call σ)) = [] := rfl
@[simp] theorem faults_unread : faults (.unread failure :: calls) = faults calls := rfl
@[simp] theorem faults_read : faults (.read record (.ok made) :: calls) = faults calls := rfl
@[simp] theorem faults_objected : faults (.read record (.error fault) :: calls) = fault :: faults calls := rfl
@[simp] theorem faults_patched : faults (.patched patch reply :: calls) = faults calls := rfl

@[simp] theorem refusals_nil : refusals ([] : List (Call σ)) = [] := rfl
@[simp] theorem refusals_read {made : Except Fault ((Labels × Annotations) × σ)} :
    refusals (.read record made :: calls) = refusals calls := rfl
@[simp] theorem refusals_written {object : Option NamespaceObject} :
    refusals (.patched patch (.ok object) :: calls) = refusals calls := rfl

@[simp] theorem refusals_unread : refusals (.unread failure :: calls) =
    if failure.status? = some 404 then refusals calls else failure :: refusals calls := by
  by_cases h : failure.status? = some 404 <;> simp [refusals, Call.refusal?, h]

@[simp] theorem refusals_patched : refusals (.patched patch (.error failure) :: calls) =
    if failure.status? = some 404 ∨ failure.status? = some 409 then refusals calls else failure :: refusals calls := by
  by_cases h : failure.status? = some 404 ∨ failure.status? = some 409 <;> simp [refusals, Call.refusal?, h]

end Calls

inductive Part (σ : Type) where
  | looked (time : Int)
  | called (call : Call σ)
  | told (note : Note)

def Part.call? : Part σ → Option (Call σ)
  | .called call => some call
  | .looked _ | .told _ => none

def Part.note? : Part σ → Option Note
  | .told note => some note
  | .looked _ | .called _ => none

def calls (parts : List (Part σ)) : List (Call σ) := parts.filterMap Part.call?

def notes (parts : List (Part σ)) : List Note := parts.filterMap Part.note?

@[simp] theorem calls_append (parts parts' : List (Part σ)) : calls (parts ++ parts') = calls parts ++ calls parts' :=
  List.filterMap_append

@[simp] theorem calls_nil : calls ([] : List (Part σ)) = [] := rfl

@[simp] theorem calls_looked (time : Int) (parts : List (Part σ)) : calls (.looked time :: parts) = calls parts := rfl

@[simp] theorem calls_called (call : Call σ) (parts : List (Part σ)) :
    calls (.called call :: parts) = call :: calls parts := rfl

@[simp] theorem calls_told (note : Note) (parts : List (Part σ)) : calls (.told note :: parts) = calls parts := rfl

@[simp] theorem calls_map_told (told : List Note) : calls (told.map .told : List (Part σ)) = [] := by
  simp [calls, Part.call?, Function.comp_def]

@[simp] theorem notes_append (parts parts' : List (Part σ)) : notes (parts ++ parts') = notes parts ++ notes parts' :=
  List.filterMap_append

@[simp] theorem notes_nil : notes ([] : List (Part σ)) = [] := rfl

@[simp] theorem notes_looked (time : Int) (parts : List (Part σ)) : notes (.looked time :: parts) = notes parts := rfl

@[simp] theorem notes_called (call : Call σ) (parts : List (Part σ)) :
    notes (.called call :: parts) = notes parts := rfl

@[simp] theorem notes_told (note : Note) (parts : List (Part σ)) : notes (.told note :: parts) = note :: notes parts :=
  rfl

@[simp] theorem notes_map_told (told : List Note) : notes (told.map .told : List (Part σ)) = told := by
  simp [notes, Part.note?, Function.comp_def]

/-- What was done in an update, part by part, with the state of the change before and after. -/
inductive Recounted (space : String) (change : Change σ) : σ → List Act → List (Part σ) → σ → Prop where
  | done (st : σ) : Recounted space change st [] [] st
  | looked {st st' : σ} {acts : List Act} {parts : List (Part σ)} (time : Int)
      (rest : Recounted space change st acts parts st') :
      Recounted space change st (.asked .clock time :: acts) (.looked time :: parts) st'
  | unread {st st' : σ} {acts : List Act} {parts : List (Part σ)} (failure : CallFailure)
      (rest : Recounted space change st acts parts st') :
      Recounted space change st (.asked (.api (.readNamespace space)) (.error failure) :: acts)
        (.called (.unread failure) :: parts) st'
  | read {st st₁ st' : σ} {own acts : List Act} {parts : List (Part σ)} {object : Option NamespaceObject}
      {record : NamespaceRecord} {new : Labels × Annotations} (shown : NamespaceRecord.ofObject object = record)
      (changed : Course ((change record.labels record.annotations).run st).run own (.ok (new, st₁)))
      (rest : Recounted space change st₁ acts parts st') :
      Recounted space change st (.asked (.api (.readNamespace space)) (.ok object) :: (own ++ acts))
        (.called (.read record (.ok (new, st₁))) :: parts) st'
  | objected {st st' : σ} {own acts : List Act} {parts : List (Part σ)} {object : Option NamespaceObject}
      {record : NamespaceRecord} {fault : Fault} (shown : NamespaceRecord.ofObject object = record)
      (changed : Course ((change record.labels record.annotations).run st).run own (.error fault))
      (rest : Recounted space change st acts parts st') :
      Recounted space change st (.asked (.api (.readNamespace space)) (.ok object) :: (own ++ acts))
        (.called (.read record (.error fault)) :: parts) st'
  | patched {st st' : σ} {acts : List Act} {parts : List (Part σ)} (patch : NamespacePatch)
      (reply : Except CallFailure (Option NamespaceObject)) (rest : Recounted space change st acts parts st') :
      Recounted space change st (.asked (.api (.patchNamespace space patch)) reply :: acts)
        (.called (.patched patch reply) :: parts) st'
  | told {st st' : σ} {acts : List Act} {parts : List (Part σ)} (note : Note)
      (rest : Recounted space change st acts parts st') :
      Recounted space change st (.told note :: acts) (.told note :: parts) st'

theorem Recounted.trans {parts parts' : List (Part σ)} (h : Recounted space change st acts parts st₁)
    (h' : Recounted space change st₁ acts' parts' st₂) :
    Recounted space change st (acts ++ acts') (parts ++ parts') st₂ := by
  induction h with
  | done => exact h'
  | looked time _ ih => exact .looked time (ih h')
  | unread failure _ ih => exact .unread failure (ih h')
  | read shown changed _ ih =>
    rw [List.cons_append, List.append_assoc]
    exact .read shown changed (ih h')
  | objected shown changed _ ih =>
    rw [List.cons_append, List.append_assoc]
    exact .objected shown changed (ih h')
  | patched patch reply _ ih => exact .patched patch reply (ih h')
  | told note _ ih => exact .told note (ih h')

section Attempts

/-- A look at the clock before the deadline, if there is one. -/
inductive Looks : Option Int → List Act → List (Part σ) → Prop where
  | never : Looks none [] []
  | ahead {limit time : Int} (h : time < limit) : Looks (some limit) [.asked .clock time] [.looked time]

/-- What is noted about the answer to a patch, and what comes of it. -/
inductive Answered (st : σ) : Except CallFailure (Option NamespaceObject) → List Note → Ending σ → Prop where
  | written (object : Option NamespaceObject) : Answered st (.ok object) [] (.over (.ok (true, st)))
  | lost {failure : CallFailure} (text : String) (status : failure.status? = some 409) :
      Answered st (.error failure) [.count .versionConflictRetries, .log .info text] (.outdated st)
  | vanished {failure : CallFailure} (text : String) (status : failure.status? = some 404) :
      Answered st (.error failure) [.log .info text] (.over (.ok (false, st)))
  | refused {failure : CallFailure} (missing : failure.status? ≠ some 404) (outdated : failure.status? ≠ some 409) :
      Answered st (.error failure) [] (.over (.error (.call failure)))

/-- One attempt of an update, with its parts. -/
inductive Tried (space operation : String) (deadline : Option Int) (change : Change σ) (st : σ) :
    List Act → List (Part σ) → Ending σ → Prop where
  | expired {limit time : Int} (due : deadline = some limit) (late : limit ≤ time) :
      Tried space operation deadline change st [.asked .clock time] [.looked time]
        (.over (.error (.deadline operation)))
  | gone {first : List Act} {looks : List (Part σ)} {failure : CallFailure} (text : String)
      (looked : Looks deadline first looks) (status : failure.status? = some 404) :
      Tried space operation deadline change st
        (first ++ [.asked (.api (.readNamespace space)) (.error failure), .told (.log .info text)])
        (looks ++ [.called (.unread failure), .told (.log .info text)]) (.over (.ok (false, st)))
  | unread {first : List Act} {looks : List (Part σ)} {failure : CallFailure}
      (looked : Looks deadline first looks) (status : failure.status? ≠ some 404) :
      Tried space operation deadline change st (first ++ [.asked (.api (.readNamespace space)) (.error failure)])
        (looks ++ [.called (.unread failure)]) (.over (.error (.call failure)))
  | objected {first own : List Act} {looks : List (Part σ)} {object : Option NamespaceObject}
      {record : NamespaceRecord} {fault : Fault} (looked : Looks deadline first looks)
      (shown : NamespaceRecord.ofObject object = record)
      (changed : Course ((change record.labels record.annotations).run st).run own (.error fault)) :
      Tried space operation deadline change st (first ++ .asked (.api (.readNamespace space)) (.ok object) :: own)
        (looks ++ [.called (.read record (.error fault))]) (.over (.error fault))
  | idle {first own : List Act} {looks : List (Part σ)} {object : Option NamespaceObject} {record : NamespaceRecord}
      {new : Labels × Annotations} {st₁ : σ} (looked : Looks deadline first looks)
      (shown : NamespaceRecord.ofObject object = record)
      (changed : Course ((change record.labels record.annotations).run st).run own (.ok (new, st₁)))
      (same : unchanged record new = true) :
      Tried space operation deadline change st (first ++ .asked (.api (.readNamespace space)) (.ok object) :: own)
        (looks ++ [.called (.read record (.ok (new, st₁)))]) (.over (.ok (false, st₁)))
  | sent {first own : List Act} {looks : List (Part σ)} {object : Option NamespaceObject} {record : NamespaceRecord}
      {new : Labels × Annotations} {st₁ : σ} {reply : Except CallFailure (Option NamespaceObject)} {told : List Note}
      {ending : Ending σ} (looked : Looks deadline first looks) (shown : NamespaceRecord.ofObject object = record)
      (changed : Course ((change record.labels record.annotations).run st).run own (.ok (new, st₁)))
      (differs : unchanged record new = false) (answered : Answered st₁ reply told ending) :
      Tried space operation deadline change st
        (first ++ .asked (.api (.readNamespace space)) (.ok object) ::
          (own ++ .asked (.api (.patchNamespace space ⟨record.version, new.1, new.2⟩)) reply :: told.map .told))
        (looks ++ .called (.read record (.ok (new, st₁))) ::
          .called (.patched ⟨record.version, new.1, new.2⟩ reply) :: told.map .told) ending

theorem checkDeadline_course {r : Except Fault Unit} (h : Course (checkDeadline deadline operation).run acts r) :
    (∃ limit time, deadline = some limit ∧ limit ≤ time ∧ acts = [.asked .clock time] ∧
      r = .error (.deadline operation)) ∨ r = .ok () ∧ ∃ looks : List (Part σ), Looks deadline acts looks := by
  cases deadline with
  | none =>
    obtain ⟨rfl, rfl⟩ := Attempt.course_pure.mp h
    exact .inr ⟨rfl, [], .never⟩
  | some limit =>
    obtain ⟨_, time, _, rfl, hclock, hend⟩ := Attempt.course_lift_bind.mp h
    obtain rfl := Session.course_request.mp hclock
    by_cases hlate : limit ≤ time
    · rw [if_pos hlate] at hend
      obtain ⟨rfl, rfl⟩ := Attempt.course_throw.mp hend
      exact .inl ⟨limit, time, rfl, hlate, rfl, rfl⟩
    · rw [if_neg hlate] at hend
      obtain ⟨rfl, rfl⟩ := Attempt.course_pure.mp hend
      exact .inr ⟨rfl, _, .ahead (Int.not_le.mp hlate)⟩

theorem update_course {patch : NamespacePatch} {r : Except Fault NamespaceRecord}
    (h : Course (Namespaces.update space patch).run acts r) :
    ∃ reply, acts = [.asked (.api (.patchNamespace space patch)) reply] ∧
      r = match reply with
        | .ok object => .ok (.ofObject object)
        | .error failure => .error (Namespaces.outdated space patch.pinned failure) := by
  obtain ⟨_, reply, rest, rfl, hrequest, hend⟩ := Attempt.course_lift_bind.mp h
  obtain rfl := Session.course_request.mp hrequest
  cases reply with
  | ok object =>
    obtain ⟨rfl, rfl⟩ := Attempt.course_pure.mp hend
    exact ⟨.ok object, rfl, rfl⟩
  | error failure =>
    obtain ⟨rfl, rfl⟩ := Attempt.course_throw.mp hend
    exact ⟨.error failure, rfl, rfl⟩

theorem modify_course_zero {l : Ledger} (h : Course ((l.modify space operation deadline change 0).run st).run acts r) :
    acts = [.told (.count .storeConflicts)] ∧ r = .error (.storeConflict space l.attempts) := by
  obtain ⟨_, _, rest, rfl, hcount, hthrow⟩ := Attempt.course_state_session_bind.mp h
  obtain rfl := Session.course_note.mp hcount
  obtain ⟨rfl, rfl⟩ := Attempt.course_state_throw.mp hthrow
  exact ⟨rfl, rfl⟩

private theorem append_lost (first own rest : List Act) (a b c d : Act) :
    first ++ ([a] ++ (own ++ ([b] ++ ([c] ++ ([d] ++ rest))))) = first ++ a :: (own ++ b :: [c, d]) ++ rest := by simp

/-- An update is one attempt, and then the attempts that are left if its patch was outdated. -/
theorem modify_course_succ {l : Ledger} {left : Nat}
    (h : Course ((l.modify space operation deadline change (left + 1)).run st).run acts r) :
    (∃ parts, Tried space operation deadline change st acts parts (.over r)) ∨
      ∃ first parts st₁ rest, acts = first ++ rest ∧
        Tried space operation deadline change st first parts (.outdated st₁) ∧
        Course ((l.modify space operation deadline change left).run st₁).run rest r := by
  rw [modify] at h
  rcases Attempt.course_state_lift_bind.mp h with ⟨fault, rfl, hlook⟩ | ⟨first, _, rest, rfl, hlook, hget⟩
  · rcases checkDeadline_course (σ := σ) hlook with ⟨limit, time, rfl, hlate, rfl, hr⟩ | ⟨hr, -⟩ <;> cases hr
    exact .inl ⟨_, .expired rfl hlate⟩
  rcases checkDeadline_course (σ := σ) hlook with ⟨_, _, _, _, _, hr⟩ | ⟨-, looks, hlooks⟩
  · cases hr
  obtain ⟨_, got, rest, rfl, hread, hgot⟩ := Attempt.course_state_outcome_bind.mp hget
  obtain ⟨reply, rfl, rfl⟩ := Namespaces.get_course hread
  cases reply with
  | error failure =>
    by_cases h404 : failure.status? = some 404
    · simp only [Namespaces.missing, h404, if_true] at hgot
      obtain ⟨_, _, rest, rfl, hnote, hend⟩ := Attempt.course_state_session_bind.mp hgot
      obtain rfl := Session.course_note.mp hnote
      obtain ⟨rfl, rfl⟩ := Attempt.course_state_pure.mp hend
      exact .inl ⟨_, .gone _ hlooks h404⟩
    · simp only [Namespaces.missing, h404, if_false] at hgot
      obtain ⟨rfl, rfl⟩ := Attempt.course_state_throw.mp hgot
      exact .inl ⟨_, .unread hlooks h404⟩
  | ok object =>
    rcases Attempt.course_state_bind.mp hgot with ⟨fault, rfl, hchange⟩ | ⟨own, new, st₁, rest, rfl, hchange, hsend⟩
    · exact .inl ⟨_, .objected hlooks rfl hchange⟩
    by_cases hsame : unchanged (.ofObject object) new = true
    · rw [if_pos hsame] at hsend
      obtain ⟨rfl, rfl⟩ := Attempt.course_state_pure.mp hsend
      exact .inl ⟨_, by simpa using Tried.idle hlooks rfl hchange hsame⟩
    rw [if_neg hsame] at hsend
    have hdiffers : unchanged (.ofObject object) new = false := by simpa using hsame
    have hsent {reply told ending} (h : Answered st₁ reply told ending) :
        Tried space operation deadline change st _ _ ending := .sent hlooks rfl hchange hdiffers h
    obtain ⟨_, sent, rest, rfl, hupdate, hend⟩ := Attempt.course_state_outcome_bind.mp hsend
    obtain ⟨reply, rfl, rfl⟩ := update_course hupdate
    cases reply with
    | ok object =>
      obtain ⟨rfl, rfl⟩ := Attempt.course_state_pure.mp hend
      exact .inl ⟨_, by simpa using hsent (.written object)⟩
    | error failure =>
      by_cases h409 : failure.status? = some 409
      · simp only [Namespaces.outdated, h409, if_true] at hend
        obtain ⟨_, _, rest, rfl, hcount, hlog⟩ := Attempt.course_state_session_bind.mp hend
        obtain rfl := Session.course_note.mp hcount
        obtain ⟨_, _, again, rfl, hnote, hagain⟩ := Attempt.course_state_session_bind.mp hlog
        obtain rfl := Session.course_note.mp hnote
        exact .inr ⟨_, _, st₁, again, append_lost _ _ _ _ _ _ _, hsent (.lost _ h409), hagain⟩
      · simp only [Namespaces.outdated, h409, if_false, Namespaces.missing] at hend
        by_cases h404 : failure.status? = some 404
        · simp only [h404, if_true] at hend
          obtain ⟨_, _, rest, rfl, hnote, hfalse⟩ := Attempt.course_state_session_bind.mp hend
          obtain rfl := Session.course_note.mp hnote
          obtain ⟨rfl, rfl⟩ := Attempt.course_state_pure.mp hfalse
          exact .inl ⟨_, by simpa using hsent (.vanished _ h404)⟩
        · simp only [h404, if_false] at hend
          obtain ⟨rfl, rfl⟩ := Attempt.course_state_throw.mp hend
          exact .inl ⟨_, by simpa using hsent (.refused h404 h409)⟩

theorem Looks.calls {looks : List (Part σ)} (h : Looks deadline acts looks) :
    Ledger.calls looks = [] ∧ notes looks = [] := by
  cases h <;> exact ⟨rfl, rfl⟩

theorem Looks.recounted {looks : List (Part σ)} (h : Looks deadline acts looks) (change : Change σ) :
    Recounted space change st acts looks st := by
  cases h with
  | never => exact .done _
  | ahead _ => exact .looked _ (.done _)

theorem recounted_told (change : Change σ) (told : List Note) :
    Recounted space change st (told.map .told) (told.map .told) st := by
  induction told with
  | nil => exact .done _
  | cons note _ ih => exact .told note ih

/-- The state after an attempt. -/
def Ending.Leaves (st : σ) : Ending σ → Prop
  | .over (.ok (_, st₁)) | .outdated st₁ => st₁ = st
  | .over (.error _) => True

theorem Tried.recounted {parts : List (Part σ)} {ending : Ending σ}
    (h : Tried space operation deadline change st acts parts ending) :
    ∃ st₁, Recounted space change st acts parts st₁ ∧ ending.Leaves st₁ := by
  cases h with
  | expired _ _ => exact ⟨st, .looked _ (.done _), trivial⟩
  | gone text looked _ => exact ⟨st, (looked.recounted change).trans (.unread _ (.told _ (.done _))), rfl⟩
  | unread looked _ => exact ⟨st, (looked.recounted change).trans (.unread _ (.done _)), trivial⟩
  | objected looked shown changed =>
    exact ⟨st, (looked.recounted change).trans (by simpa using Recounted.objected shown changed (.done _)), trivial⟩
  | @idle _ _ _ _ _ _ st₁ looked shown changed _ =>
    exact ⟨st₁, (looked.recounted change).trans (by simpa using Recounted.read shown changed (.done _)), rfl⟩
  | @sent _ _ _ _ _ _ st₁ _ _ _ looked shown changed _ answered =>
    refine ⟨st₁, (looked.recounted change).trans (.read shown changed (.patched _ _ (recounted_told change _))), ?_⟩
    cases answered <;> trivial

end Attempts

/-- How an update that has so many attempts left ends, and what its own calls have to do with that. -/
structure Exits (space operation : String) (attempts left : Nat) (calls : List (Call σ)) (r : Except Fault (Bool × σ)) :
    Prop where
  /-- The first call is a reading, and after a reading only a patch can follow. -/
  alternating : (true :: calls.map Call.isPatch).IsChain (· ≠ ·)
  lookups_le : (lookups calls).length ≤ left
  replies_le : (replies calls).length ≤ left
  accepted : (∃ st, r = .ok (true, st)) ↔ ∃ object, (replies calls).getLast? = some (.ok object)
  declined : (∃ st, r = .ok (false, st)) ↔ (∃ call, calls.getLast? = some call ∧ call.isGone) ∨
    ∃ call, (lookups calls).getLast? = some call ∧ call.isIdle = true
  exhausted : (r = .error (.storeConflict space attempts) ∧ faults calls = []) ↔ (replies calls).length = left ∧
    ∀ reply ∈ replies calls, ∃ failure, reply = .error failure ∧ failure.status? = some 409
  raised : ∀ fault ∈ faults calls, r = .error fault
  refused : ∀ failure ∈ refusals calls, r = .error (.call failure)
  /-- There is no other cause for an error. -/
  caused : ∀ fault, r = .error fault → fault ∈ faults calls ∨ (∃ failure ∈ refusals calls, fault = .call failure) ∨
    fault = .storeConflict space attempts ∨ fault = .deadline operation

private theorem getLast?_cons_eq_some {α : Type} {x y : α} {xs : List α} :
    (x :: xs).getLast? = some y ↔ xs.getLast? = some y ∨ xs = [] ∧ x = y := by
  cases xs with
  | nil => simp
  | cons z zs => simp [List.getLast?_cons_cons]

namespace Exits

variable {attempts left : Nat} {failure : CallFailure} {record : NamespaceRecord} {new : Labels × Annotations}
  {patch : NamespacePatch} {cs : List (Call σ)}

theorem none : Exits (σ := σ) space operation attempts 0 [] (.error (.storeConflict space attempts)) := by
  constructor <;> simp

theorem expired : Exits (σ := σ) space operation attempts (left + 1) [] (.error (.deadline operation)) := by
  constructor <;> simp

theorem unread (h : failure.status? ≠ some 404) :
    Exits (σ := σ) space operation attempts (left + 1) [.unread failure] (.error (.call failure)) := by
  constructor <;> simp [Call.isPatch, Call.isIdle, Call.isGone, h]

theorem gone (h : failure.status? = some 404) :
    Exits space operation attempts (left + 1) [.unread failure] (.ok (false, st)) := by
  constructor <;> simp [Call.isPatch, Call.isIdle, Call.isGone, h]

theorem objected {fault : Fault} :
    Exits (σ := σ) space operation attempts (left + 1) [.read record (.error fault)] (.error fault) := by
  constructor <;> simp [Call.isPatch, Call.isIdle, Call.isGone]

theorem idle (h : unchanged record new = true) :
    Exits space operation attempts (left + 1) [.read record (.ok (new, st))] (.ok (false, st)) := by
  constructor <;> simp [Call.isPatch, Call.isIdle, Call.isGone, h]

theorem answered {reply : Except CallFailure (Option NamespaceObject)} {told : List Note}
    (hdiffers : unchanged record new = false) (h : Answered st reply told (.over r)) :
    Exits space operation attempts (left + 1) [.read record (.ok (new, st)), .patched patch reply] r := by
  cases h with
  | written object => constructor <;> simp [Call.isPatch, Call.isIdle, Call.isGone, hdiffers]
  | vanished _ h404 => constructor <;> simp [Call.isPatch, Call.isIdle, Call.isGone, hdiffers, h404]
  | refused h404 h409 => constructor <;> simp [Call.isPatch, Call.isIdle, Call.isGone, hdiffers, h404, h409]

theorem again (hdiffers : unchanged record new = false) (h409 : failure.status? = some 409)
    (h : Exits space operation attempts left cs r) :
    Exits space operation attempts (left + 1) (.read record (.ok (new, st)) :: .patched patch (.error failure) :: cs)
      r where
  alternating := by simpa [Call.isPatch] using h.alternating
  lookups_le := by simpa using h.lookups_le
  replies_le := by simpa using h.replies_le
  accepted := by simp [h.accepted, getLast?_cons_eq_some]
  declined := by
    have hgone : ¬(Call.patched patch (.error failure) : Call σ).isGone := by simp [Call.isGone, h409]
    have hidle : (Call.read record (.ok (new, st))).isIdle = false := hdiffers
    simp only [h.declined, lookups_read, lookups_patched, getLast?_cons_eq_some, or_and_right, exists_or, and_assoc]
    simp [hgone, hidle]
  exhausted := by simpa [h409] using h.exhausted
  raised := by simpa using h.raised
  refused := by simpa [h409] using h.refused
  caused := by simpa [h409] using h.caused

theorem ending {parts : List (Part σ)} (h : Tried space operation deadline change st acts parts (.over r)) :
    Exits space operation attempts (left + 1) (calls parts) r := by
  cases h with
  | expired _ _ => exact expired
  | gone text looked h404 =>
    rw [calls_append, looked.calls.1]
    exact gone h404
  | unread looked h404 =>
    rw [calls_append, looked.calls.1]
    exact unread h404
  | objected looked _ _ =>
    rw [calls_append, looked.calls.1]
    exact objected
  | idle looked _ _ same =>
    rw [calls_append, looked.calls.1]
    exact idle same
  | sent looked _ _ differs h =>
    rw [calls_append, looked.calls.1]
    simpa using answered differs h

end Exits

/-- Each reading comes right after a look at the clock before the deadline. A look when it has passed is the last. -/
inductive InTime (limit : Int) : List (Part σ) → Prop where
  | done : InTime limit []
  | passed {time : Int} (h : limit ≤ time) : InTime limit [.looked time]
  | read {time : Int} {call : Call σ} {parts : List (Part σ)} (h : time < limit) (reads : call.isPatch = false)
      (rest : InTime limit parts) : InTime limit (.looked time :: .called call :: parts)
  | patched {patch : NamespacePatch} {reply : Except CallFailure (Option NamespaceObject)} {parts : List (Part σ)}
      (rest : InTime limit parts) : InTime limit (.called (.patched patch reply) :: parts)
  | told {note : Note} {parts : List (Part σ)} (rest : InTime limit parts) : InTime limit (.told note :: parts)

/-- What the deadline of an update has to do with how it ends. -/
structure OnTime (operation : String) (deadline : Option Int) (parts : List (Part σ)) (r : Except Fault (Bool × σ)) :
    Prop where
  unlimited : deadline = none → ∀ time, .looked time ∉ parts
  limited : ∀ limit, deadline = some limit → InTime limit parts
  expired : (r = .error (.deadline operation) ∧ faults (calls parts) = []) ↔
    ∃ limit time, deadline = some limit ∧ .looked time ∈ parts ∧ limit ≤ time

namespace OnTime

variable {parts : List (Part σ)}

theorem done (h : r ≠ .error (.deadline operation)) : OnTime operation deadline [] r where
  unlimited := by simp
  limited _ _ := .done
  expired := iff_of_false (fun hr => h hr.1) (by simp)

theorem passed {limit time : Int} (h : limit ≤ time) :
    OnTime (σ := σ) operation (some limit) [.looked time] (.error (.deadline operation)) where
  unlimited := by simp
  limited _ hlimit := by
    cases hlimit
    exact .passed h
  expired := iff_of_true ⟨rfl, rfl⟩ ⟨limit, time, rfl, List.mem_singleton_self _, h⟩

theorem told (h : OnTime operation deadline parts r) (told : List Note) :
    OnTime operation deadline (told.map .told ++ parts) r where
  unlimited hnone time := by simpa using h.unlimited hnone time
  limited limit hlimit := by
    induction told with
    | nil => exact h.limited limit hlimit
    | cons _ _ ih => exact .told ih
  expired := by simpa using h.expired

theorem patched (h : OnTime operation deadline parts r) (patch : NamespacePatch)
    (reply : Except CallFailure (Option NamespaceObject)) :
    OnTime operation deadline (.called (.patched patch reply) :: parts) r where
  unlimited hnone time := by simpa using h.unlimited hnone time
  limited limit hlimit := .patched (h.limited limit hlimit)
  expired := by simpa using h.expired

/-- A reading comes after a look at the clock, and where the change does not object to it, it has nothing to do with the
end of the update. -/
theorem read {looks : List (Part σ)} {call : Call σ} (looked : Looks deadline acts looks) (hread : call.isPatch = false)
    (hfault : call.fault? = none) (h : OnTime operation deadline parts r) :
    OnTime operation deadline (looks ++ .called call :: parts) r := by
  have hcalls : faults (call :: calls parts) = faults (calls parts) := by simp [faults, hfault]
  cases looked with
  | never =>
    refine ⟨fun _ time => by simpa using h.unlimited rfl time, fun _ hlimit => (nomatch hlimit), ?_⟩
    simpa [hcalls] using h.expired
  | ahead htime =>
    refine ⟨nofun, fun limit hlimit => ?_, ?_⟩
    · cases hlimit
      exact .read htime hread (h.limited _ rfl)
    · simp only [List.cons_append, List.nil_append, calls_looked, calls_called, hcalls, h.expired]
      constructor
      · rintro ⟨limit, time, hlimit, hmem, hlate⟩
        exact ⟨limit, time, hlimit, by simp [hmem], hlate⟩
      · rintro ⟨limit, time, hlimit, hmem, hlate⟩
        cases hlimit
        rcases List.mem_cons.mp hmem with hmem | hmem
        · cases hmem
          exact absurd htime (Int.not_lt.mpr hlate)
        · exact ⟨_, time, rfl, by simpa using hmem, hlate⟩

theorem objected {looks : List (Part σ)} {record : NamespaceRecord} {fault : Fault}
    (looked : Looks deadline acts looks) :
    OnTime operation deadline (looks ++ [.called (.read record (.error fault))]) (.error fault) := by
  cases looked with
  | never => exact ⟨by simp, fun _ hlimit => (nomatch hlimit), iff_of_false (by simp) (by simp)⟩
  | ahead htime =>
    refine ⟨nofun, fun limit hlimit => ?_, iff_of_false (by simp) ?_⟩
    · cases hlimit
      exact .read htime rfl .done
    · rintro ⟨_, time, hlimit, hmem, hlate⟩
      cases hlimit
      obtain rfl : time = _ := by simpa using hmem
      exact absurd htime (Int.not_lt.mpr hlate)

theorem ending (h : Tried space operation deadline change st acts parts (.over r)) :
    OnTime operation deadline parts r := by
  cases h with
  | expired due late =>
    subst due
    exact passed late
  | gone text looked _ => exact read looked rfl rfl (told (done (by simp)) [.log .info text])
  | unread looked _ => exact read looked rfl rfl (done (by simp))
  | objected looked _ _ => exact objected looked
  | idle looked _ _ _ => exact read looked rfl rfl (done (by simp))
  | @sent _ _ _ _ _ _ _ _ notes _ looked _ _ _ answered =>
    have hr : r ≠ .error (.deadline operation) := by cases answered <;> simp
    have hend : OnTime operation deadline (notes.map .told) r := by simpa using told (done hr) notes
    exact read looked rfl rfl (hend.patched _ _)

end OnTime

/-- An exhausted update is counted, once. -/
structure Counted (space : String) (attempts : Nat) (parts : List (Part σ)) (r : Except Fault (Bool × σ)) : Prop where
  once : r = .error (.storeConflict space attempts) ∧ faults (calls parts) = [] →
    (notes parts).count (.count .storeConflicts) = 1
  never : ¬(r = .error (.storeConflict space attempts) ∧ faults (calls parts) = []) →
    (notes parts).count (.count .storeConflicts) = 0

namespace Counted

variable {attempts : Nat} {parts parts' : List (Part σ)}

theorem ending (h : Tried space operation deadline change st acts parts (.over r)) : Counted space attempts parts r := by
  have hnone : (notes parts).count (.count .storeConflicts) = 0 := by
    cases h with
    | expired _ _ => rfl
    | gone _ looked _ | unread looked _ | objected looked _ _ | idle looked _ _ _ =>
      rw [notes_append, looked.calls.2]
      rfl
    | sent looked _ _ _ answered =>
      simp only [notes_append, looked.calls.2, notes_called, notes_map_told, List.nil_append]
      cases answered <;> rfl
  have hleft : ¬(r = .error (.storeConflict space attempts) ∧ faults (calls parts) = []) := by
    rintro ⟨rfl, hfaults⟩
    cases h with
    | objected looked _ _ =>
      rw [calls_append, looked.calls.1] at hfaults
      cases hfaults
    | sent _ _ _ _ answered => cases answered
  exact ⟨fun hr => absurd hr hleft, fun _ => hnone⟩

theorem none : Counted (σ := σ) space attempts [.told (.count .storeConflicts)]
    (.error (.storeConflict space attempts)) where
  once _ := by simp
  never h := absurd ⟨rfl, rfl⟩ h

theorem prepend (hfaults : faults (calls parts) = []) (hnotes : .count .storeConflicts ∉ notes parts)
    (h : Counted space attempts parts' r) : Counted space attempts (parts ++ parts') r where
  once hr := by
    rw [notes_append, List.count_append, List.count_eq_zero.mpr hnotes, Nat.zero_add]
    rw [calls_append, faults_append, hfaults, List.nil_append] at hr
    exact h.once hr
  never hr := by
    rw [notes_append, List.count_append, List.count_eq_zero.mpr hnotes, Nat.zero_add]
    rw [calls_append, faults_append, hfaults, List.nil_append] at hr
    exact h.never hr

end Counted

/-- The exits of an update with so many attempts left. -/
theorem modify_exits_left {l : Ledger} (left : Nat)
    (h : Course ((l.modify space operation deadline change left).run st).run acts r) :
    ∃ parts st', Recounted space change st acts parts st' ∧ (∀ accepted st₁, r = .ok (accepted, st₁) → st₁ = st') ∧
      Exits space operation l.attempts left (calls parts) r ∧ OnTime operation deadline parts r ∧
      Counted space l.attempts parts r := by
  induction left generalizing st acts with
  | zero =>
    obtain ⟨rfl, rfl⟩ := modify_course_zero h
    exact ⟨[.told (.count .storeConflicts)], st, .told _ (.done _), by simp, .none,
      .told (.done (by simp)) [.count .storeConflicts], .none⟩
  | succ left ih =>
    rcases modify_course_succ h with ⟨parts, htried⟩ | ⟨first, parts, st₁, rest, rfl, htried, hrest⟩
    · obtain ⟨st', hrecounted, hleaves⟩ := htried.recounted
      refine ⟨parts, st', hrecounted, fun accepted st₁ hr => ?_, .ending htried, .ending htried, .ending htried⟩
      subst hr
      exact hleaves
    · obtain ⟨st₂, hrecounted, hleaves⟩ := htried.recounted
      obtain rfl : st₁ = st₂ := hleaves
      obtain ⟨parts', st', hrecounted', hstate, hexits, hontime, hcounted⟩ := ih hrest
      refine ⟨parts ++ parts', st', hrecounted.trans hrecounted', hstate, ?_⟩
      cases htried with
      | sent looked _ _ differs answered =>
        cases answered with
        | lost text h409 =>
          refine ⟨?_, ?_, .prepend (by simp [looked.calls]) (by simp [looked.calls]) hcounted⟩
          · simpa [looked.calls] using Exits.again differs h409 hexits
          · rw [List.append_assoc]
            exact .read looked rfl rfl ((hontime.told [.count .versionConflictRetries, .log .info text]).patched _ _)

/-- An update with any limit, any deadline, any change and any answers. It reads and patches in turn, and neither more
often than its limit allows. Its last patch was accepted if and only if it says so; it says that nothing was written if
and only if the namespace turned out not to exist or the last reading was not to be changed; it gives up, which is
counted, if and only if as many patches as it may send were all outdated. It is out of time if and only if the deadline
has passed at the beginning of an attempt, which then does not read. Whatever else it raises is what the change raised
or the failure of one of its calls. -/
theorem modify_exits {l : Ledger}
    (h : Course ((l.modify space operation deadline change l.attempts).run st).run acts r) :
    ∃ parts st', Recounted space change st acts parts st' ∧ (∀ accepted st₁, r = .ok (accepted, st₁) → st₁ = st') ∧
      Exits space operation l.attempts l.attempts (calls parts) r ∧ OnTime operation deadline parts r ∧
      Counted space l.attempts parts r := modify_exits_left l.attempts h

/-- A change that never fails raises nothing. -/
theorem Recounted.faults_eq_nil {parts : List (Part σ)}
    (hchange : ∀ labels annotations st own fault, ¬Course ((change labels annotations).run st).run own (.error fault))
    (h : Recounted space change st acts parts st₁) : faults (calls parts) = [] := by
  induction h with
  | done => rfl
  | objected _ changed _ _ => exact absurd changed (hchange _ _ _ _ _)
  | looked _ _ ih | unread _ _ ih | read _ _ _ ih | patched _ _ _ ih | told _ _ ih => simpa using ih

section Contested

/-- The namespace can be read, but another writer is always faster. -/
private def outrun : (request : Request) → request.Answer
  | .api (.readNamespace _) => .ok none
  | .api (.patchNamespace _ _) => .error (.refused (some 409) none)
  | request => Session.refusing request

private def marking : Change Unit := fun labels annotations => pure (labels, marked annotations)

private def outrunTwice : List Act × Except Fault (Bool × Unit) :=
  (((⟨2, Nat.two_pos⟩ : Ledger).modify "ns1" "claim" (some 1) marking 2).run ()).run.answeredBy outrun

theorem modify_exits_contested : ∃ (l : Ledger) (change : Change Unit) (acts : List Act) (parts : List (Part Unit)),
    Course ((l.modify "ns1" "claim" (some 1) change l.attempts).run ()).run acts (.error (.storeConflict "ns1" 2)) ∧
      Recounted "ns1" change () acts parts () ∧ (replies (calls parts)).length = 2 ∧ InTime 1 parts ∧
      (notes parts).count (.count .storeConflicts) = 1 := by
  have hcourse : Course (((⟨2, Nat.two_pos⟩ : Ledger).modify "ns1" "claim" (some 1) marking 2).run ()).run outrunTwice.1
      (.error (.storeConflict "ns1" 2)) := Session.course_answeredBy outrun _
  obtain ⟨parts, _, hrecounted, -, hexits, hontime, hcounted⟩ := modify_exits hcourse
  have hfaults : faults (calls parts) = [] := by
    refine hrecounted.faults_eq_nil fun labels annotations st own fault h => ?_
    cases (Attempt.course_state_pure.mp h).2
  obtain ⟨hlength, -⟩ := hexits.exhausted.mp ⟨rfl, hfaults⟩
  exact ⟨_, marking, _, parts, hcourse, hrecounted, hlength, hontime.limited 1 rfl, hcounted.once ⟨rfl, hfaults⟩⟩

end Contested

end NamespaceOwnership.Ledger
