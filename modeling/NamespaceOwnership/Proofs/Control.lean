import NamespaceOwnership.Controller.Books
import NamespaceOwnership.Proofs.Run

/-!
# Runs of the controller

What the controller does works on its books as well as on the cluster. A run of two of its operations in a row is
found from theirs by `Control.runs_bind`, and where the outcome of the first one is all that counts, by
`Control.run_outcome_bind`.
-/
namespace NamespaceOwnership.Control

open Session (Runs)

variable {α β : Type} {i : Interference} {c c' : Cluster} {b b' : Books} {tr : List Event}
  {x : Control α} {f : α → Control β}

theorem run_bind (x : Control α) (f : α → Control β) (b : Books) :
    (x >>= f).run.run b = x.run.run b >>= fun p => match p.1 with
      | .ok a => (f a).run.run p.2
      | .error fault => .done (.error fault, p.2) := by
  rw [ExceptT.run_bind, StateT.run_bind]
  congr 1
  funext p
  obtain ⟨r, b'⟩ := p
  cases r <;> rfl

theorem run_session (s : Session α) (b : Books) :
    (liftM s : Control α).run.run b = s >>= fun a => .done (.ok a, b) := by
  change (s >>= fun a => Session.done (a, b)) >>= (fun p => Session.done (Except.ok p.1, p.2)) = _
  rw [bind_assoc]
  rfl

theorem run_attempt (a : Attempt α) (b : Books) :
    (Control.attempt a).run.run b = a.run >>= fun r => .done (r, b) := rfl

theorem run_outcome (x : Control α) (b : Books) :
    x.outcome.run.run b = x.run.run b >>= fun p => .done (.ok p.1, p.2) := rfl

theorem run_session_bind (s : Session α) (f : α → Control β) (b : Books) :
    (liftM s >>= f : Control β).run.run b = s >>= fun a => (f a).run.run b := by
  rw [run_bind, run_session, bind_assoc]
  rfl

/-- What follows the outcome of something follows it whether it fails or not. -/
theorem run_outcome_bind (x : Control α) (f : Except Fault α → Control β) (b : Books) :
    (x.outcome >>= f).run.run b = x.run.run b >>= fun p => (f p.1).run.run p.2 := by
  rw [run_bind, run_outcome, bind_assoc]
  rfl

/-- A failure of the first part leaves the books as that part left them. -/
theorem runs_bind {r : Except Fault β} :
    Runs i ((x >>= f).run.run b) c tr (r, b') c' ↔
      (∃ fault, r = .error fault ∧ Runs i (x.run.run b) c tr (.error fault, b') c') ∨
        ∃ tr₁ a b₁ c₁ tr₂, tr = tr₁ ++ tr₂ ∧ Runs i (x.run.run b) c tr₁ (.ok a, b₁) c₁ ∧
          Runs i ((f a).run.run b₁) c₁ tr₂ (r, b') c' := by
  rw [run_bind, Session.runs_bind]
  constructor
  · rintro ⟨tr₁, ⟨r₁, b₁⟩, c₁, tr₂, rfl, hfirst, hrest⟩
    cases r₁ with
    | error fault =>
      obtain ⟨rfl, hr, rfl⟩ := Session.runs_done.mp hrest
      cases hr
      exact .inl ⟨fault, rfl, by simpa using hfirst⟩
    | ok a => exact .inr ⟨tr₁, a, b₁, c₁, tr₂, rfl, hfirst, hrest⟩
  · rintro (⟨fault, rfl, hfirst⟩ | ⟨tr₁, a, b₁, c₁, tr₂, rfl, hfirst, hrest⟩)
    · exact ⟨tr, _, c', [], by simp, hfirst, Session.runs_done.mpr ⟨rfl, rfl, rfl⟩⟩
    · exact ⟨tr₁, _, c₁, tr₂, rfl, hfirst, hrest⟩

theorem runs_attempt {a : Attempt α} {r : Except Fault α} :
    Runs i ((Control.attempt a).run.run b) c tr (r, b') c' ↔ Runs i a.run c tr r c' ∧ b' = b := by
  rw [run_attempt, Session.runs_bind]
  constructor
  · rintro ⟨tr₁, r₁, c₁, tr₂, rfl, hrun, hend⟩
    obtain ⟨rfl, hr, rfl⟩ := Session.runs_done.mp hend
    cases hr
    exact ⟨by simpa using hrun, rfl⟩
  · rintro ⟨hrun, rfl⟩
    exact ⟨tr, r, c', [], by simp, hrun, Session.runs_done.mpr ⟨rfl, rfl, rfl⟩⟩

theorem runs_session_bind {s : Session α} {f : α → Control β} {p : Except Fault β × Books} :
    Runs i ((liftM s >>= f : Control β).run.run b) c tr p c' ↔
      ∃ tr₁ a c₁ tr₂, tr = tr₁ ++ tr₂ ∧ Runs i s c tr₁ a c₁ ∧ Runs i ((f a).run.run b) c₁ tr₂ p c' := by
  rw [run_session_bind, Session.runs_bind]

theorem runs_outcome_bind {f : Except Fault α → Control β} {p : Except Fault β × Books} :
    Runs i ((x.outcome >>= f).run.run b) c tr p c' ↔
      ∃ tr₁ r b₁ c₁ tr₂, tr = tr₁ ++ tr₂ ∧ Runs i (x.run.run b) c tr₁ (r, b₁) c₁ ∧
        Runs i ((f r).run.run b₁) c₁ tr₂ p c' := by
  rw [run_outcome_bind, Session.runs_bind]
  constructor
  · rintro ⟨tr₁, ⟨r, b₁⟩, c₁, tr₂, h⟩
    exact ⟨tr₁, r, b₁, c₁, tr₂, h⟩
  · rintro ⟨tr₁, r, b₁, c₁, tr₂, h⟩
    exact ⟨tr₁, (r, b₁), c₁, tr₂, h⟩

/-- What follows the outcome of an attempt finds the books as they were before. -/
theorem runs_attempt_outcome_bind {a : Attempt α} {f : Except Fault α → Control β}
    {p : Except Fault β × Books} :
    Runs i (((Control.attempt a).outcome >>= f).run.run b) c tr p c' ↔
      ∃ tr₁ r c₁ tr₂, tr = tr₁ ++ tr₂ ∧ Runs i a.run c tr₁ r c₁ ∧ Runs i ((f r).run.run b) c₁ tr₂ p c' := by
  rw [run_outcome_bind, run_attempt, bind_assoc, Session.runs_bind]
  rfl

/-- Whatever the books are and whatever it is answered, it makes no requests but those. -/
def Within (allowed : Request → Prop) (x : Control α) : Prop := ∀ b, (x.run.run b).Within allowed

namespace Within

variable {allowed : Request → Prop}

theorem pure {a : α} : Within allowed (pure a : Control α) := fun _ => trivial

theorem throw {fault : Fault} : Within allowed (throw fault : Control α) := fun _ => trivial

theorem get : Within allowed (get : Control Books) := fun _ => trivial

theorem modify (g : Books → Books) : Within allowed (modify g : Control PUnit) := fun _ => trivial

theorem bind (hx : Within allowed x) (hf : ∀ a, Within allowed (f a)) : Within allowed (x >>= f) := by
  intro b
  rw [run_bind]
  refine (hx b).bind fun p => ?_
  obtain ⟨r, b₁⟩ := p
  cases r with
  | error fault => trivial
  | ok a => exact hf a b₁

theorem session {s : Session α} (hs : s.Within allowed) : Within allowed (liftM s : Control α) := by
  intro b
  rw [run_session]
  exact hs.bind fun _ => trivial

theorem request {r : Request} (h : allowed r) : Within allowed (liftM (Session.request r) : Control r.Answer) :=
  session ⟨h, fun _ => trivial⟩

theorem attempt {a : Attempt α} (ha : a.run.Within allowed) : Within allowed (Control.attempt a) :=
  fun _ => ha.bind fun _ => trivial

end Within

/-- Where it is run after `past`: what holds of all that has happened then, of its result and of the books. -/
def Ends (i : Interference) (past : List Event) (x : Control α) (post : List Event → Except Fault α → Books → Prop) :
    Prop :=
  ∀ b c tr r b' c', Runs i (x.run.run b) c tr (r, b') c' → post (past ++ tr) r b'

namespace Ends

variable {past : List Event} {post : List Event → Except Fault β → Books → Prop}

theorem pure {a : β} (h : ∀ b, post past (.ok a) b) : Ends i past (pure a : Control β) post := by
  intro b c tr r b' c' hrun
  obtain ⟨rfl, hr, -⟩ := Session.runs_done.mp hrun
  cases hr
  rw [List.append_nil]
  exact h b

theorem throw_bind {fault : Fault} {f : α → Control β} (h : ∀ b, post past (.error fault) b) :
    Ends i past ((throw fault : Control α) >>= f) post := by
  intro b c tr r b' c' hrun
  obtain ⟨rfl, hr, -⟩ := Session.runs_done.mp hrun
  cases hr
  rw [List.append_nil]
  exact h b

theorem modify_pure {g : Books → Books} {a : β} (h : ∀ b, post past (.ok a) (g b)) :
    Ends i past (do modify g; return a) post := by
  intro b c tr r b' c' hrun
  obtain ⟨rfl, hr, -⟩ := Session.runs_done.mp hrun
  cases hr
  rw [List.append_nil]
  exact h b

theorem modify_bind {g : Books → Books} {f : PUnit → Control β} (h : Ends i past (f ⟨⟩) post) :
    Ends i past ((modify g : Control PUnit) >>= f) post :=
  fun b => h (g b)

theorem get_bind {f : Books → Control β} (h : ∀ b, Ends i past (f b) post) :
    Ends i past ((get : Control Books) >>= f) post :=
  fun b => h b b

theorem note_bind {n : Note} {f : Unit → Control β} (h : Ends i (past ++ [.told n]) (f ()) post) :
    Ends i past ((liftM (Session.note n) : Control Unit) >>= f) post := by
  intro b c tr r b' c' hrun
  obtain ⟨rest, rfl, hrest⟩ := Session.runs_tell.mp hrun
  simpa using h _ _ _ _ _ _ hrest

theorem request_bind {q : Request} {f : q.Answer → Control β}
    (h : ∀ c answer c', Ends i (past ++ [.asked ⟨c, q, answer, c'⟩]) (f answer) post) :
    Ends i past ((liftM (Session.request q) : Control q.Answer) >>= f) post := by
  intro b c tr r b' c' hrun
  obtain ⟨c₁, answer, c₂, rest, -, -, rfl, hrest⟩ := Session.runs_ask.mp hrun
  simpa using h c₁ answer c₂ _ _ _ _ _ _ hrest

theorem bind (hfail : ∀ b c tr fault b' c', Runs i (x.run.run b) c tr (.error fault, b') c' →
      post (past ++ tr) (.error fault) b')
    (h : ∀ b c tr a b' c', Runs i (x.run.run b) c tr (.ok a, b') c' → Ends i (past ++ tr) (f a) post) :
    Ends i past (x >>= f) post := by
  intro b c tr r b' c' hrun
  rcases runs_bind.mp hrun with ⟨fault, rfl, hx⟩ | ⟨tr₁, a, b₁, c₁, tr₂, rfl, hx, hrest⟩
  · exact hfail _ _ _ _ _ _ hx
  · rw [← List.append_assoc]
    exact h _ _ _ _ _ _ hx _ _ _ _ _ _ hrest

theorem outcome_bind {f : Except Fault α → Control β}
    (h : ∀ b c tr r b' c', Runs i (x.run.run b) c tr (r, b') c' → Ends i (past ++ tr) (f r) post) :
    Ends i past (x.outcome >>= f) post := by
  intro b c tr r b' c' hrun
  obtain ⟨tr₁, first, b₁, c₁, tr₂, rfl, hx, hrest⟩ := runs_outcome_bind.mp hrun
  rw [← List.append_assoc]
  exact h _ _ _ _ _ _ hx _ _ _ _ _ _ hrest

end Ends

end NamespaceOwnership.Control
