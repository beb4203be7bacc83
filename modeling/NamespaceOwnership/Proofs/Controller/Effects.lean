import NamespaceOwnership.Proofs.Course

/-!
# What is done to the books

An operation on a name counts one result. A failure puts the name among those that are pending and counts one more
attempt; any other result crosses the name out. `Control.Concluding` says so of an operation, and it is found from its
parts: those that do what a result entails (`Control.Amounts`) and those that leave both tables alone
(`Control.Neutral`). The tables are looked at through the names that are texts, which is what DynaKubes have.
-/
namespace NamespaceOwnership

open Session (Course)

variable {α β : Type} {name : Value} {b b' b₁ : Books} {acts acts' : List Act}

def ReconcileResult.failed : ReconcileResult → Bool
  | .conflict | .error => true
  | .mapped | .invalid | .unmapped => false

def Act.hear (m : Metrics) : Act → Metrics
  | .told note => m.hear note
  | .asked _ _ => m

def Act.result? : Act → Option ReconcileResult
  | .told (.count (.reconciles result)) => some result
  | _ => none

/-- The results of operations that were counted, in their order. -/
def results (acts : List Act) : List ReconcileResult := acts.filterMap Act.result?

@[simp] theorem results_append : results (acts ++ acts') = results acts ++ results acts' := List.filterMap_append

@[simp] theorem results_counted (result : ReconcileResult) (acts : List Act) :
    results (.told (.count (.reconciles result)) :: acts) = result :: results acts := rfl

@[simp] theorem results_logged (level : LogLevel) (text : String) (acts : List Act) :
    results (.told (.log level text) :: acts) = results acts := rfl

/-- Any note but those of a result and of the number of pending names. -/
def Note.Aside : Note → Prop
  | .count (.reconciles _) | .pending _ => False
  | _ => True

theorem Note.Quiet.aside {note : Note} (h : note.Quiet) : note.Aside := by
  unfold Aside
  split
  · exact h
  · exact h
  · trivial

/-- Nothing of account is told. -/
def Aside (acts : List Act) : Prop := ∀ note, .told note ∈ acts → note.Aside

theorem Aside.nil : Aside [] := fun _ hmem => nomatch hmem

theorem Aside.append (h : Aside acts) (h' : Aside acts') : Aside (acts ++ acts') := fun note hmem =>
  (List.mem_append.mp hmem).elim (h note) (h' note)

theorem Aside.results (h : Aside acts) : results acts = [] := by
  refine List.filterMap_eq_nil_iff.mpr fun act hact => ?_
  unfold Act.result?
  split
  · exact (h _ hact).elim
  · rfl

theorem Aside.hear (h : Aside acts) (m : Metrics) : (acts.foldl Act.hear m).pendingRetries = m.pendingRetries := by
  induction acts generalizing m with
  | nil => rfl
  | cons act rest ih =>
    have hrest : Aside rest := fun note hmem => h note (List.mem_cons_of_mem _ hmem)
    rw [List.foldl_cons, ih hrest]
    cases act with
    | asked request answer => rfl
    | told note =>
      have hnote : note.Aside := h note List.mem_cons_self
      cases note with
      | pending retries => exact hnote.elim
      | _ => rfl

namespace Books

/-- The names that are pending stay distinct, and the gauge stays at their number. -/
structure Kept (b : Books) (acts : List Act) (b' : Books) : Prop where
  distinct : b.pending.Distinct → b'.pending.Distinct
  gauge : ∀ m : Metrics, m.pendingRetries = b.pending.size →
    (acts.foldl Act.hear m).pendingRetries = b'.pending.size

theorem Kept.trans (h : b.Kept acts b₁) (h' : b₁.Kept acts' b') : b.Kept (acts ++ acts') b' where
  distinct hd := h'.distinct (h.distinct hd)
  gauge m hm := by
    rw [List.foldl_append]
    exact h'.gauge _ (h.gauge m hm)

/-- What is to be repeated stays as it is, and nothing of account is told. -/
structure Unmoved (b : Books) (acts : List Act) (b' : Books) : Prop where
  pending : b'.pending = b.pending
  attempts : b'.attempts = b.attempts
  aside : Aside acts

theorem Unmoved.trans (h : b.Unmoved acts b₁) (h' : b₁.Unmoved acts' b') : b.Unmoved (acts ++ acts') b' where
  pending := h'.pending.trans h.pending
  attempts := h'.attempts.trans h.attempts
  aside := h.aside.append h'.aside

theorem Unmoved.kept (h : b.Unmoved acts b') : b.Kept acts b' where
  distinct hd := h.pending ▸ hd
  gauge m hm := by rw [h.aside.hear, hm, h.pending]

/-- A name is crossed out. -/
structure Cleared (name : Value) (b b' : Books) : Prop where
  pending (text : String) : b'.pending.get? (.text text) =
    if name.sameName (.text text) = true then none else b.pending.get? (.text text)
  attempts (text : String) : b'.attempts.get? (.text text) =
    if name.sameName (.text text) = true then none else b.attempts.get? (.text text)

/-- A name is pending, and failed once more. -/
structure Failed (name : Value) (b b' : Books) : Prop where
  pending (text : String) : b'.pending.contains (.text text) =
    if name.sameName (.text text) = true then true else b.pending.contains (.text text)
  attempts (text : String) : b'.attempts.get? (.text text) =
    if name.sameName (.text text) = true then some ((b.attempts.get? (.text text)).getD 0 + 1)
    else b.attempts.get? (.text text)

/-- What is entailed for a name by something that failed or did not. -/
def Change (name : Value) (failed : Bool) (b b' : Books) : Prop :=
  if failed = true then Failed name b b' else Cleared name b b'

/-- Only the two tables count. -/
theorem Change.congr {failed : Bool} {b₂ : Books} (h : Change name failed b₁ b₂)
    (hb : b₁.pending = b.pending ∧ b₁.attempts = b.attempts)
    (hb' : b'.pending = b₂.pending ∧ b'.attempts = b₂.attempts) : Change name failed b b' := by
  unfold Change at h ⊢
  split
  · rw [if_pos ‹_›] at h
    exact ⟨fun text => by rw [hb'.1, h.pending, hb.1], fun text => by rw [hb'.2, h.attempts, hb.2]⟩
  · rw [if_neg ‹_›] at h
    exact ⟨fun text => by rw [hb'.1, h.pending, hb.1], fun text => by rw [hb'.2, h.attempts, hb.2]⟩

/-- What failed is pending. -/
def Synced (b : Books) : Prop :=
  ∀ text, b.attempts.contains (.text text) = true → b.pending.contains (.text text) = true

theorem Synced.congr (h : b.Synced) (hb : b'.pending = b.pending ∧ b'.attempts = b.attempts) : b'.Synced := by
  unfold Synced
  rw [hb.1, hb.2]
  exact h

theorem Change.synced {failed : Bool} (h : Change name failed b b') (hsynced : b.Synced) : b'.Synced := by
  intro text hcontains
  rw [Change] at h
  split at h
  · rw [h.pending]
    split
    · rfl
    · rename_i hother
      rw [NameTable.contains, h.attempts, if_neg hother] at hcontains
      exact hsynced text hcontains
  · rw [NameTable.contains, h.attempts] at hcontains
    split at hcontains
    · cases hcontains
    · rename_i hother
      rw [NameTable.contains, h.pending, if_neg hother]
      exact hsynced text hcontains

/-- What is entailed for one name does not matter for another. -/
theorem Change.contains_other {failed : Bool} {text : String} (h : Change name failed b b')
    (hother : ¬name.sameName (.text text) = true) :
    b'.pending.contains (.text text) = b.pending.contains (.text text) := by
  rw [Change] at h
  split at h
  · rw [h.pending, if_neg hother]
  · rw [NameTable.contains, h.pending, if_neg hother, NameTable.contains]

/-- A name that failed is pending. -/
theorem Change.contains_self {text : String} (h : Change name true b b') (hname : name.sameName (.text text) = true) :
    b'.pending.contains (.text text) = true := by
  rw [Change, if_pos rfl] at h
  rw [h.pending, if_pos hname]

end Books

open Books (Kept Unmoved Cleared Failed)

namespace Control

variable {x : Control α} {f : α → Control β}

theorem unmoved_composes : Composes Unmoved := ⟨fun _ => ⟨rfl, rfl, .nil⟩, Unmoved.trans⟩

/-- Whatever happens, what is to be repeated stays as it is. -/
def Neutral (x : Control α) : Prop := ∀ b acts r b', Course (x.run.run b) acts (r, b') → b.Unmoved acts b'

/-- Nor does a failure of a call to the cluster get out of it. -/
def Tame (x : Control α) : Prop :=
  ∀ b acts r b', Course (x.run.run b) acts (r, b') → b.Unmoved acts b' ∧ ∀ failure, r ≠ .error (.call failure)

namespace Tame

theorem pure {a : α} : Tame (pure a : Control α) := by
  intro b acts r b' h
  obtain ⟨rfl, hr⟩ := Session.course_done.mp h
  cases hr
  exact ⟨⟨rfl, rfl, Aside.nil⟩, by simp⟩

theorem throw {fault : Fault} (hfault : ∀ failure, fault ≠ .call failure) : Tame (throw fault : Control α) := by
  intro b acts r b' h
  obtain ⟨rfl, hr⟩ := Session.course_done.mp h
  cases hr
  exact ⟨⟨rfl, rfl, Aside.nil⟩, by simpa using hfault⟩

theorem modify {g : Books → Books} (hg : ∀ b, (g b).pending = b.pending ∧ (g b).attempts = b.attempts) :
    Tame (modify g : Control PUnit) := by
  intro b acts r b' h
  obtain ⟨rfl, hr⟩ := Session.course_done.mp h
  cases hr
  exact ⟨⟨(hg b).1, (hg b).2, Aside.nil⟩, by simp⟩

theorem get : Tame (get : Control Books) := by
  intro b acts r b' h
  obtain ⟨rfl, hr⟩ := Session.course_done.mp h
  cases hr
  exact ⟨⟨rfl, rfl, Aside.nil⟩, by simp⟩

theorem bind (hx : Tame x) (hf : ∀ a, Tame (f a)) : Tame (x >>= f) := by
  intro b acts r b' h
  rcases course_bind.mp h with ⟨fault, rfl, hfirst⟩ | ⟨first, a, b₁, rest, rfl, h₁, h₂⟩
  · obtain ⟨hunmoved, hraised⟩ := hx _ _ _ _ hfirst
    exact ⟨hunmoved, by simpa using hraised⟩
  · obtain ⟨hunmoved, hraised⟩ := hf a _ _ _ _ h₂
    exact ⟨(hx _ _ _ _ h₁).1.trans hunmoved, hraised⟩

theorem neutral (hx : Tame x) : Neutral x := fun b acts r b' h => (hx b acts r b' h).1

end Tame

namespace Neutral

theorem throw {fault : Fault} : Neutral (throw fault : Control α) := Sustains.throw unmoved_composes

theorem modify {g : Books → Books} (hg : ∀ b, (g b).pending = b.pending ∧ (g b).attempts = b.attempts) :
    Neutral (modify g : Control PUnit) := (Tame.modify hg).neutral

theorem get : Neutral (get : Control Books) := Tame.get.neutral

theorem bind (hx : Neutral x) (hf : ∀ a, Neutral (f a)) : Neutral (x >>= f) := Sustains.bind unmoved_composes hx hf

theorem attempt {allowed : Request → Prop} {a : Attempt α} (ha : a.run.Within allowed) :
    Neutral (Control.attempt a) :=
  Sustains.attempt fun _ _ _ hrun => ⟨rfl, rfl, fun _ hmem => (hrun.quiet ha hmem).aside⟩

theorem note {n : Note} (h : n.Aside) : Neutral (liftM (Session.note n) : Control Unit) :=
  Sustains.note fun _ => ⟨rfl, rfl, by simpa [Aside] using h⟩

theorem request {q : Request} : Neutral (liftM (Session.request q) : Control q.Answer) :=
  Sustains.request fun _ _ => ⟨rfl, rfl, by simp [Aside]⟩

end Neutral

theorem lookUp_bind (read : Books → NameTable α) (name : Value) (f : Option α → Control β) (b : Books) :
    (lookUp read name >>= f).run.run b = if name.isScalar = true then (f ((read b).get? name)).run.run b
      else .done (.error (.object (.noName name.kindName)), b) := by
  unfold lookUp
  cases name.isScalar <;> rfl

theorem requireErasable_bind (t : NameTable α) (name : Value) (f : Unit → Control β) (b : Books) :
    (requireErasable t name >>= f).run.run b = if (name.isScalar || t.isEmpty) = true then (f ()).run.run b
      else .done (.error (.object (.noName name.kindName)), b) := by
  unfold requireErasable
  cases name.isScalar <;> cases t.isEmpty <;> rfl

theorem requireErasable_tame (t : NameTable α) (name : Value) : Tame (requireErasable t name) := by
  unfold requireErasable
  split
  · exact .throw (by simp)
  · exact .pure

end Control

/-- Every reading of the wall clock has a date. -/
def Dated (acts : List Act) : Prop := ∀ error, .asked .wallTime (.error error) ∉ acts

theorem Dated.tail {act : Act} (h : Dated (act :: acts)) : Dated acts := fun error hmem =>
  h error (List.mem_cons_of_mem _ hmem)

theorem Dated.of_append (h : Dated (acts ++ acts')) : Dated acts ∧ Dated acts' :=
  ⟨fun error hmem => h error (List.mem_append_left _ hmem), fun error hmem => h error (List.mem_append_right _ hmem)⟩

/-- An operation on a name counts one result and does to the books what this result entails, unless the clock is in
the way. It need not return, but no failure of a call to the cluster gets out of it. -/
structure Concludes (name : Value) (b : Books) (acts : List Act) (r : Except Fault α) (b' : Books) : Prop where
  kept : b.Kept acts b'
  raised : ∀ failure, r ≠ .error (.call failure)
  counted : ∃ result, results acts = [result] ∧ (Dated acts → b.Synced → Books.Change name result.failed b b')

theorem Concludes.change {r : Except Fault α} {result : ReconcileResult} (h : Concludes name b acts r b')
    (hresult : results acts = [result]) (hdated : Dated acts) (hsynced : b.Synced) :
    Books.Change name result.failed b b' := by
  obtain ⟨other, hother, hchange⟩ := h.counted
  obtain rfl : other = result := by simpa using hother.symm.trans hresult
  exact hchange hdated hsynced

/-- What is told before or after an operation, and what becomes of its outcome, does not matter. -/
theorem Concludes.around {r : Except Fault α} {r' : Except Fault β} {before after : List Act}
    (h : Concludes name b acts r b') (hbefore : Aside before) (hafter : b'.Unmoved after b₁)
    (hraised : ∀ failure, r' ≠ .error (.call failure)) : Concludes name b (before ++ acts ++ after) r' b₁ where
  kept := by
    have hstart : b.Unmoved before b := ⟨rfl, rfl, hbefore⟩
    exact (hstart.kept.trans h.kept).trans hafter.kept
  raised := hraised
  counted := by
    obtain ⟨result, hresult, heffect⟩ := h.counted
    refine ⟨result, by simp [hbefore.results, hafter.aside.results, hresult], fun hdated hsynced => ?_⟩
    have hchange := heffect hdated.of_append.1.of_append.2 hsynced
    exact hchange.congr ⟨rfl, rfl⟩ ⟨hafter.pending, hafter.attempts⟩

namespace Control

variable {x : Control α} {f : α → Control β} {failed : Bool}

/-- It raises nothing but that the wall clock has no date. -/
def Timekeeping (x : Control α) : Prop :=
  ∀ b acts fault b', Course (x.run.run b) acts (.error fault, b') →
    ∃ error, fault = .calendar error ∧ .asked .wallTime (.error error) ∈ acts

/-- The part of an operation that does what is entailed by a failure or by another result. -/
def Amounts (name : Value) (failed : Bool) (x : Control α) : Prop :=
  ∀ b acts r b', Course (x.run.run b) acts (r, b') → b.Kept acts b' ∧ results acts = [] ∧
    (∀ failure, r ≠ .error (.call failure)) ∧ (Dated acts → b.Synced → Books.Change name failed b b')

theorem Amounts.bind (hx : Amounts name failed x) (hf : ∀ a, Tame (f a)) : Amounts name failed (x >>= f) := by
  intro b acts r b' h
  rcases course_bind.mp h with ⟨fault, rfl, hfirst⟩ | ⟨first, a, b₁, rest, rfl, h₁, h₂⟩
  · obtain ⟨hkept, hresults, hraised, hchange⟩ := hx _ _ _ _ hfirst
    exact ⟨hkept, hresults, by simpa using hraised, hchange⟩
  · obtain ⟨hkept, hresults, -, hchange⟩ := hx _ _ _ _ h₁
    obtain ⟨hunmoved, hraised⟩ := hf a _ _ _ _ h₂
    refine ⟨hkept.trans hunmoved.kept, ?_, hraised, fun hdated hsynced => ?_⟩
    · rw [results_append, hresults, hunmoved.aside.results]
      rfl
    · exact (hchange hdated.of_append.1 hsynced).congr ⟨rfl, rfl⟩ ⟨hunmoved.pending, hunmoved.attempts⟩

theorem Amounts.after {first : Control β} (hneutral : Neutral first) (hdue : Timekeeping first)
    (hx : Amounts name failed x) : Amounts name failed (do let _ ← first; x) := by
  intro b acts r b' h
  rcases course_bind.mp h with ⟨fault, rfl, hfirst⟩ | ⟨before, _, b₁, rest, rfl, hfirst, hrest⟩
  · obtain ⟨error, rfl, hundated⟩ := hdue _ _ _ _ hfirst
    have hunmoved := hneutral _ _ _ _ hfirst
    exact ⟨hunmoved.kept, hunmoved.aside.results, by simp, fun hdated => absurd hundated (hdated error)⟩
  · have hunmoved := hneutral _ _ _ _ hfirst
    obtain ⟨hkept, hresults, hraised, hchange⟩ := hx _ _ _ _ hrest
    refine ⟨hunmoved.kept.trans hkept, ?_, hraised, fun hdated hsynced => ?_⟩
    · rw [results_append, hunmoved.aside.results, hresults]
      rfl
    · have htables : b₁.pending = b.pending ∧ b₁.attempts = b.attempts := ⟨hunmoved.pending, hunmoved.attempts⟩
      exact (hchange hdated.of_append.2 (hsynced.congr htables)).congr htables ⟨rfl, rfl⟩

/-- Whatever happens, it is an operation on a name. -/
def Concluding (name : Value) (x : Control α) : Prop :=
  ∀ b acts r b', Course (x.run.run b) acts (r, b') → Concludes name b acts r b'

theorem Amounts.counted {result : ReconcileResult} (hx : Amounts name result.failed x) :
    Concluding name (do Session.count (.reconciles result); x) := by
  intro b acts r b' h
  obtain ⟨_, _, rest, rfl, hcount, hrest⟩ := course_session_bind.mp h
  obtain rfl := Session.course_note.mp hcount
  obtain ⟨hkept, hresults, hraised, hchange⟩ := hx _ _ _ _ hrest
  have hstart : b.Kept [.told (.count (.reconciles result))] b := ⟨id, fun m hm => hm⟩
  have hone : results [.told (.count (.reconciles result))] = [result] := rfl
  refine ⟨hstart.trans hkept, hraised, result, ?_, fun hdated => hchange hdated.of_append.2⟩
  rw [results_append, hone, hresults]
  rfl

namespace Concluding

theorem note {n : Note} (hn : n.Aside) (hx : Concluding name x) :
    Concluding name ((liftM (Session.note n) : Control Unit) >>= fun _ => x) := by
  intro b acts r b' h
  obtain ⟨_, _, rest, rfl, hnote, hrest⟩ := course_session_bind.mp h
  obtain rfl := Session.course_note.mp hnote
  have hconcludes := hx _ _ _ _ hrest
  have hbefore : Aside [.told n] := fun note hmem => by
    cases List.mem_singleton.mp hmem
    exact hn
  have hend : b'.Unmoved [] b' := ⟨rfl, rfl, Aside.nil⟩
  simpa using hconcludes.around hbefore hend hconcludes.raised

theorem bind (hx : Concluding name x) (hf : ∀ a, Tame (f a)) : Concluding name (x >>= f) := by
  intro b acts r b' h
  rcases course_bind.mp h with ⟨fault, rfl, hfirst⟩ | ⟨first, a, b₁, rest, rfl, h₁, h₂⟩
  · obtain ⟨hkept, hraised, hcounted⟩ := hx _ _ _ _ hfirst
    exact ⟨hkept, by simpa using hraised, hcounted⟩
  · obtain ⟨hunmoved, hraised⟩ := hf a _ _ _ _ h₂
    simpa using (hx _ _ _ _ h₁).around Aside.nil hunmoved hraised

end Concluding
end Control

end NamespaceOwnership
