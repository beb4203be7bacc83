import NamespaceOwnership.Ledger
import NamespaceOwnership.Proofs.Run

/-!
# How one attempt of an update may go

`Ledger.Attempted` has a constructor for each way in which an attempt ends. Its statement on an accepted patch
already has what the version is pinned for: the namespace still was as it had been read. A run of
`Ledger.modify` is one outdated attempt after another and then one that ends it, unless there is none left
(`Ledger.modify_runs`).
-/
namespace NamespaceOwnership

open Session (Runs)

namespace Ledger

variable {σ : Type} {i : Interference} {c c' : Cluster} {tr : List Event}

/-- The deadline is looked at on the clock, which leaves the cluster to the others. -/
theorem checkDeadline_runs {deadline : Option Int} {operation : String} {r : Except Fault Unit}
    (h : Runs i (checkDeadline deadline operation).run c tr r c') :
    (deadline = none ∧ tr = [] ∧ r = .ok () ∧ c' = c) ∨
      ∃ limit time, deadline = some limit ∧ i.moves c c' ∧ i.permits .clock time ∧
        tr = [.asked ⟨c', .clock, time, c'⟩] ∧
        r = if limit ≤ time then .error (.deadline operation) else .ok () := by
  cases deadline with
  | none =>
    obtain ⟨rfl, rfl, rfl⟩ := Attempt.runs_pure.mp h
    exact .inl ⟨rfl, rfl, rfl, rfl⟩
  | some limit =>
    obtain ⟨tr₁, time, c₁, tr₂, rfl, h₁, h₂⟩ := Attempt.runs_lift_bind.mp h
    obtain ⟨c₀, hm, ⟨hpermits, rfl⟩, rfl⟩ := Session.runs_request.mp h₁
    refine .inr ⟨limit, time, rfl, ?_⟩
    by_cases ht : limit ≤ time
    · rw [if_pos ht] at h₂ ⊢
      obtain ⟨rfl, rfl, rfl⟩ := Attempt.runs_throw.mp h₂
      exact ⟨hm, hpermits, rfl, rfl⟩
    · rw [if_neg ht] at h₂ ⊢
      obtain ⟨rfl, rfl, rfl⟩ := Attempt.runs_pure.mp h₂
      exact ⟨hm, hpermits, rfl, rfl⟩

end Ledger

namespace Namespaces

variable {i : Interference} {c c' : Cluster} {tr : List Event}

theorem get_runs {name : String} {r : Except Fault NamespaceRecord}
    (h : Runs i (get name).run c tr r c') :
    ∃ c₁ reply, i.moves c c₁ ∧ c₁.Replies i.fails (.readNamespace name) reply c' ∧
      tr = [.asked (.call c₁ (.readNamespace name) reply c')] ∧
      r = match reply with
        | .ok object => .ok (.ofObject object)
        | .error failure => .error (missing name failure) := by
  obtain ⟨tr₁, reply, c₁, tr₂, rfl, h₁, h₂⟩ := Attempt.runs_lift_bind.mp h
  obtain ⟨c₀, hm, hr, rfl⟩ := Session.runs_call.mp h₁
  cases reply with
  | ok object =>
    obtain ⟨rfl, rfl, rfl⟩ := Attempt.runs_pure.mp h₂
    exact ⟨c₀, _, hm, hr, rfl, rfl⟩
  | error failure =>
    obtain ⟨rfl, rfl, rfl⟩ := Attempt.runs_throw.mp h₂
    exact ⟨c₀, _, hm, hr, rfl, rfl⟩

theorem update_runs {name : String} {patch : NamespacePatch} {r : Except Fault NamespaceRecord}
    (h : Runs i (update name patch).run c tr r c') :
    ∃ c₁ reply, i.moves c c₁ ∧ c₁.Replies i.fails (.patchNamespace name patch) reply c' ∧
      tr = [.asked (.call c₁ (.patchNamespace name patch) reply c')] ∧
      r = match reply with
        | .ok object => .ok (.ofObject object)
        | .error failure => .error (outdated name patch.pinned failure) := by
  obtain ⟨tr₁, reply, c₁, tr₂, rfl, h₁, h₂⟩ := Attempt.runs_lift_bind.mp h
  obtain ⟨c₀, hm, hr, rfl⟩ := Session.runs_call.mp h₁
  cases reply with
  | ok object =>
    obtain ⟨rfl, rfl, rfl⟩ := Attempt.runs_pure.mp h₂
    exact ⟨c₀, _, hm, hr, rfl, rfl⟩
  | error failure =>
    obtain ⟨rfl, rfl, rfl⟩ := Attempt.runs_throw.mp h₂
    exact ⟨c₀, _, hm, hr, rfl, rfl⟩

end Namespaces

namespace Ledger

variable {σ : Type} {i : Interference} {c c' : Cluster} {tr : List Event}

/-- The deadline has not passed, and the namespace is read as it is. -/
inductive Reads (i : Interference) (space operation : String) (deadline : Option Int) (c : Cluster) :
    List Event → Space → Cluster → Prop where
  | intro {tr : List Event} {c₀ c₁ : Cluster} {s : Space} {object : Option NamespaceObject}
      (checked : Runs i (checkDeadline deadline operation).run c tr (.ok ()) c₀)
      (moved : i.moves c₀ c₁) (held : c₁.spaces space = some s)
      (shown : NamespaceRecord.ofObject object = s.record space) :
      Reads i space operation deadline c
        (tr ++ [.asked (.call c₁ (.readNamespace space) (.ok object) c₁)]) s c₁

/-- The namespace was read and the change worked out what to write instead. -/
inductive Plans (i : Interference) (space operation : String) (deadline : Option Int)
    (change : Change σ) (st : σ) (c : Cluster) :
    List Event → Space → Labels × Annotations → σ → Cluster → Prop where
  | intro {tr₁ tr₂ : List Event} {s : Space} {new : Labels × Annotations} {st₁ : σ}
      {c₁ c₂ : Cluster} (read : Reads i space operation deadline c tr₁ s c₁)
      (changed : Runs i ((change s.labels s.annotations).run st).run c₁ tr₂ (.ok (new, st₁)) c₂) :
      Plans i space operation deadline change st c (tr₁ ++ tr₂) s new st₁ c₂

/-- The update of a namespace to new labels and annotations at the version that was read. -/
def updateCall (space : String) (s : Space) (new : Labels × Annotations) : ApiCall :=
  .patchNamespace space ⟨some s.version, new.1, new.2⟩

/-- After an attempt the update is over, or the patch was outdated. -/
inductive Ending (σ : Type) where
  | over (result : Except Fault (Bool × σ))
  | outdated (st : σ)

inductive Attempted (i : Interference) (space operation : String) (deadline : Option Int)
    (change : Change σ) (st : σ) (c : Cluster) : List Event → Ending σ → Cluster → Prop where
  | expired {tr : List Event} {c₁ : Cluster} {fault : Fault}
      (checked : Runs i (checkDeadline deadline operation).run c tr (.error fault) c₁) :
      Attempted i space operation deadline change st c tr (.over (.error fault)) c₁
  | gone {tr : List Event} {c₀ c₁ : Cluster} {failure : CallFailure} {text : String}
      (checked : Runs i (checkDeadline deadline operation).run c tr (.ok ()) c₀)
      (moved : i.moves c₀ c₁) (refused : i.fails c₁ (.readNamespace space) failure)
      (status : failure.status? = some 404) :
      Attempted i space operation deadline change st c
        (tr ++ [.asked (.call c₁ (.readNamespace space) (.error failure) c₁),
          .told (.log .info text)])
        (.over (.ok (false, st))) c₁
  | unread {tr : List Event} {c₀ c₁ : Cluster} {failure : CallFailure}
      (checked : Runs i (checkDeadline deadline operation).run c tr (.ok ()) c₀)
      (moved : i.moves c₀ c₁) (refused : i.fails c₁ (.readNamespace space) failure)
      (status : failure.status? ≠ some 404) :
      Attempted i space operation deadline change st c
        (tr ++ [.asked (.call c₁ (.readNamespace space) (.error failure) c₁)])
        (.over (.error (.call failure))) c₁
  | objected {tr₁ tr₂ : List Event} {s : Space} {c₁ c₂ : Cluster} {fault : Fault}
      (read : Reads i space operation deadline c tr₁ s c₁)
      (changed : Runs i ((change s.labels s.annotations).run st).run c₁ tr₂ (.error fault) c₂) :
      Attempted i space operation deadline change st c (tr₁ ++ tr₂) (.over (.error fault)) c₂
  | idle {tr : List Event} {s : Space} {new : Labels × Annotations} {st₁ : σ} {c₁ : Cluster}
      (planned : Plans i space operation deadline change st c tr s new st₁ c₁)
      (same : unchanged (s.record space) new = true) :
      Attempted i space operation deadline change st c tr (.over (.ok (false, st₁))) c₁
  | written {tr : List Event} {s : Space} {new : Labels × Annotations} {st₁ : σ} {c₁ c₂ : Cluster}
      {object : Option NamespaceObject} {version : String}
      (planned : Plans i space operation deadline change st c tr s new st₁ c₁)
      (differs : unchanged (s.record space) new = false) (moved : i.moves c₁ c₂)
      (held : c₂.spaces space = some s) (fresh : version ∉ c₂.issued) :
      Attempted i space operation deadline change st c
        (tr ++ [.asked (.call c₂ (updateCall space s new) (.ok object)
          (c₂.put space ⟨new.1, new.2, version⟩))])
        (.over (.ok (true, st₁))) (c₂.put space ⟨new.1, new.2, version⟩)
  | lost {tr : List Event} {s : Space} {new : Labels × Annotations} {st₁ : σ} {c₁ c₂ : Cluster}
      {failure : CallFailure} {text : String}
      (planned : Plans i space operation deadline change st c tr s new st₁ c₁)
      (differs : unchanged (s.record space) new = false) (moved : i.moves c₁ c₂)
      (refused : i.fails c₂ (updateCall space s new) failure)
      (status : failure.status? = some 409) :
      Attempted i space operation deadline change st c
        (tr ++ [.asked (.call c₂ (updateCall space s new) (.error failure) c₂),
          .told (.count .versionConflictRetries), .told (.log .info text)])
        (.outdated st₁) c₂
  | vanished {tr : List Event} {s : Space} {new : Labels × Annotations} {st₁ : σ} {c₁ c₂ : Cluster}
      {failure : CallFailure} {text : String}
      (planned : Plans i space operation deadline change st c tr s new st₁ c₁)
      (differs : unchanged (s.record space) new = false) (moved : i.moves c₁ c₂)
      (refused : i.fails c₂ (updateCall space s new) failure)
      (status : failure.status? = some 404) :
      Attempted i space operation deadline change st c
        (tr ++ [.asked (.call c₂ (updateCall space s new) (.error failure) c₂),
          .told (.log .info text)])
        (.over (.ok (false, st₁))) c₂
  | refused {tr : List Event} {s : Space} {new : Labels × Annotations} {st₁ : σ} {c₁ c₂ : Cluster}
      {failure : CallFailure}
      (planned : Plans i space operation deadline change st c tr s new st₁ c₁)
      (differs : unchanged (s.record space) new = false) (moved : i.moves c₁ c₂)
      (refused : i.fails c₂ (updateCall space s new) failure)
      (missing : failure.status? ≠ some 404) (outdated : failure.status? ≠ some 409) :
      Attempted i space operation deadline change st c
        (tr ++ [.asked (.call c₂ (updateCall space s new) (.error failure) c₂)])
        (.over (.error (.call failure))) c₂

theorem Reads.held {space operation : String} {deadline : Option Int} {s : Space}
    (h : Reads i space operation deadline c tr s c') : c'.spaces space = some s := by
  obtain ⟨_, _, held, _⟩ := h
  exact held

/-- A patch that goes through at the version of a reading finds the namespace as it was read. -/
theorem Plans.held {space operation : String} {deadline : Option Int} {change : Change σ} {st st₁ : σ}
    {s t : Space} {new : Labels × Annotations} {c₁ c₂ : Cluster}
    (h : Plans i space operation deadline change st c tr s new st₁ c₁) (hm : i.moves c₁ c₂)
    (ht : c₂.spaces space = some t) (hv : s.version = t.version) : c₂.spaces space = some s := by
  obtain ⟨read, changed⟩ := h
  have he := changed.evolves.trans (i.evolves hm)
  obtain ⟨-, rfl⟩ := Cluster.Evolves.same_of_version he .refl read.held ht hv.symm
  exact ht

private theorem append_three (xs ys : List Event) (a b d : Event) :
    xs ++ ([a] ++ ([b] ++ ([d] ++ ys))) = xs ++ [a, b, d] ++ ys := by simp

private theorem modify_runs_zero {l : Ledger} {space operation : String} {deadline : Option Int}
    {change : Change σ} {st : σ} {r : Except Fault (Bool × σ)}
    (h : Runs i ((l.modify space operation deadline change 0).run st).run c tr r c') :
    tr = [.told (.count .storeConflicts)] ∧ r = .error (.storeConflict space l.attempts) ∧
      c' = c := by
  obtain ⟨tr₁, _, c₁, tr₂, rfl, hcount, hthrow⟩ := Attempt.runs_state_session_bind.mp h
  obtain ⟨rfl, rfl⟩ := Session.runs_note.mp hcount
  obtain ⟨rfl, rfl, rfl⟩ := Attempt.runs_state_throw.mp hthrow
  exact ⟨rfl, rfl, rfl⟩

/-- An update is one attempt, and then the attempts that are left if its patch was outdated. -/
theorem modify_runs_succ {l : Ledger} {space operation : String} {deadline : Option Int}
    {change : Change σ} {left : Nat} {st : σ} {r : Except Fault (Bool × σ)}
    (h : Runs i ((l.modify space operation deadline change (left + 1)).run st).run c tr r c') :
    Attempted i space operation deadline change st c tr (.over r) c' ∨
      ∃ tr₁ st₁ c₁ tr₂, tr = tr₁ ++ tr₂ ∧
        Attempted i space operation deadline change st c tr₁ (.outdated st₁) c₁ ∧
        Runs i ((l.modify space operation deadline change left).run st₁).run c₁ tr₂ r c' := by
  rw [modify] at h
  rcases Attempt.runs_state_lift_bind.mp h with ⟨fault, rfl, h₀⟩ | ⟨tr₀, _, c₀, rest, rfl, h₀, hget⟩
  · exact .inl (.expired h₀)
  clear h
  obtain ⟨trg, got, c₂, rest, rfl, hg, h⟩ := Attempt.runs_state_outcome_bind.mp hget
  clear hget
  obtain ⟨c₁, reply, hm, hreply, rfl, rfl⟩ := Namespaces.get_runs hg
  clear hg
  cases reply with
  | error failure =>
    obtain ⟨hfail, rfl⟩ := hreply
    left
    by_cases h404 : failure.status? = some 404
    · simp only [Namespaces.missing, h404, if_true] at h
      obtain ⟨tr₂, _, c₃, tr₃, rfl, hnote, hend⟩ := Attempt.runs_state_session_bind.mp h
      obtain ⟨rfl, rfl⟩ := Session.runs_note.mp hnote
      obtain ⟨rfl, rfl, rfl⟩ := Attempt.runs_state_pure.mp hend
      exact .gone h₀ hm hfail h404
    · simp only [Namespaces.missing, h404, if_false] at h
      obtain ⟨rfl, rfl, rfl⟩ := Attempt.runs_state_throw.mp h
      exact .unread h₀ hm hfail h404
  | ok object =>
    obtain ⟨rfl, s, held, shown⟩ := hreply
    have hread : Reads i space operation deadline c _ s c₂ := .intro h₀ hm held shown
    simp only [shown, Space.record_labels, Space.record_annotations, Space.record_version] at h
    rw [← List.append_assoc]
    rcases Attempt.runs_state_bind.mp h with ⟨fault, rfl, hchange⟩ |
      ⟨tr₂, new, st₁, c₃, tr₃, rfl, hchange, hsend⟩
    · exact .inl (.objected hread hchange)
    have hplan : Plans i space operation deadline change st c _ s new st₁ c₃ := .intro hread hchange
    rw [← List.append_assoc]
    by_cases hsame : unchanged (s.record space) new = true
    · rw [if_pos hsame] at hsend
      obtain ⟨rfl, rfl, rfl⟩ := Attempt.runs_state_pure.mp hsend
      exact .inl (by simpa using Attempted.idle hplan hsame)
    rw [if_neg hsame] at hsend
    have hdiffers : unchanged (s.record space) new = false := by simpa using hsame
    obtain ⟨tr₄, sent, c₅, tr₅, rfl, hu, hend⟩ := Attempt.runs_state_outcome_bind.mp hsend
    obtain ⟨c₄, reply, hmove, hreply, rfl, rfl⟩ := Namespaces.update_runs hu
    cases reply with
    | ok object =>
      obtain ⟨t, version, ht, hpin, fresh, rfl⟩ := hreply
      obtain ⟨rfl, rfl, rfl⟩ := Attempt.runs_state_pure.mp hend
      exact .inl (.written hplan hdiffers hmove (hplan.held hmove ht (hpin _ rfl)) fresh)
    | error failure =>
      obtain ⟨hfail, rfl⟩ := hreply
      by_cases h409 : failure.status? = some 409
      · simp only [Namespaces.outdated, h409, if_true] at hend
        obtain ⟨tr₆, _, c₆, tr₇, rfl, hcount, hlog⟩ := Attempt.runs_state_session_bind.mp hend
        obtain ⟨rfl, rfl⟩ := Session.runs_note.mp hcount
        obtain ⟨tr₈, _, c₈, tr₉, rfl, hnote, hagain⟩ := Attempt.runs_state_session_bind.mp hlog
        obtain ⟨rfl, rfl⟩ := Session.runs_note.mp hnote
        exact .inr ⟨_, st₁, _, tr₉, append_three _ _ _ _ _, .lost hplan hdiffers hmove hfail h409,
          hagain⟩
      · simp only [Namespaces.outdated, h409, if_false, Namespaces.missing] at hend
        by_cases h404 : failure.status? = some 404
        · simp only [h404, if_true] at hend
          obtain ⟨tr₆, _, c₆, tr₇, rfl, hnote, hfalse⟩ := Attempt.runs_state_session_bind.mp hend
          obtain ⟨rfl, rfl⟩ := Session.runs_note.mp hnote
          obtain ⟨rfl, rfl, rfl⟩ := Attempt.runs_state_pure.mp hfalse
          exact .inl (.vanished hplan hdiffers hmove hfail h404)
        · simp only [h404, if_false] at hend
          obtain ⟨rfl, rfl, rfl⟩ := Attempt.runs_state_throw.mp hend
          exact .inl (.refused hplan hdiffers hmove hfail h404 h409)

/-- Attempts whose patches were outdated, one after another. -/
inductive Retried (i : Interference) (space operation : String) (deadline : Option Int)
    (change : Change σ) : σ → Cluster → List Event → σ → Cluster → Prop where
  | none (st : σ) (c : Cluster) : Retried i space operation deadline change st c [] st c
  | again {st st₁ st₂ : σ} {c c₁ c₂ : Cluster} {tr₁ tr₂ : List Event}
      (first : Attempted i space operation deadline change st c tr₁ (.outdated st₁) c₁)
      (rest : Retried i space operation deadline change st₁ c₁ tr₂ st₂ c₂) :
      Retried i space operation deadline change st c (tr₁ ++ tr₂) st₂ c₂

/-- An update is a number of outdated attempts and then either one that ends it or none. -/
theorem modify_runs {l : Ledger} {space operation : String} {deadline : Option Int} {change : Change σ}
    {left : Nat} {st : σ} {r : Except Fault (Bool × σ)}
    (h : Runs i ((l.modify space operation deadline change left).run st).run c tr r c') :
    ∃ tr₁ st₁ c₁ tr₂, tr = tr₁ ++ tr₂ ∧
      Retried i space operation deadline change st c tr₁ st₁ c₁ ∧
      (Attempted i space operation deadline change st₁ c₁ tr₂ (.over r) c' ∨
        tr₂ = [.told (.count .storeConflicts)] ∧ r = .error (.storeConflict space l.attempts) ∧
          c' = c₁) := by
  induction left generalizing st c tr with
  | zero => exact ⟨[], st, c, tr, rfl, .none st c, .inr (modify_runs_zero h)⟩
  | succ left ih =>
    rcases modify_runs_succ h with hover | ⟨tr₁, st₁, c₁, tr₂, rfl, hlost, hrest⟩
    · exact ⟨[], st, c, tr, rfl, .none st c, .inl hover⟩
    · obtain ⟨tr₃, st₂, c₂, tr₄, rfl, hretried, hend⟩ := ih hrest
      exact ⟨tr₁ ++ tr₃, st₂, c₂, tr₄, (List.append_assoc _ _ _).symm, .again hlost hretried, hend⟩

/-- A run of a change on its own, on whatever labels and annotations. -/
def Works (i : Interference) (change : Change σ) (tr : List Event) : Prop :=
  ∃ labels annotations st c r c', Runs i ((change labels annotations).run st).run c tr r c'

/-- A request that an update of a namespace sends itself. -/
inductive Asks (space : String) : Request → Prop where
  | clock : Asks space .clock
  | read : Asks space (.api (.readNamespace space))
  | patch (p : NamespacePatch) : Asks space (.api (.patchNamespace space p))

theorem checkDeadline_within (deadline : Option Int) (operation : String) :
    (checkDeadline deadline operation).run.Within (· = .clock) := by
  cases deadline with
  | none => trivial
  | some limit =>
    refine Attempt.within_bind ⟨rfl, fun _ => trivial⟩ fun time => ?_
    by_cases h : limit ≤ time
    · rw [if_pos h]
      trivial
    · rw [if_neg h]
      trivial

theorem Reads.asks {space operation : String} {deadline : Option Int} {s : Space}
    (h : Reads i space operation deadline c tr s c') {x : Exchange} (hx : .asked x ∈ tr) :
    Asks space x.request := by
  obtain ⟨checked, -, -, -⟩ := h
  rcases List.mem_append.mp hx with hx | hx
  · rw [checked.within (checkDeadline_within deadline operation) hx]
    exact .clock
  · obtain rfl : x = _ := by simpa using hx
    exact .read

/-- Apart from what the change asks, an update reads and patches its namespace and looks at the clock. -/
theorem modify_within {allowed : Request → Prop} {l : Ledger} {space operation : String}
    {deadline : Option Int} {change : Change σ} {left : Nat} {st : σ}
    (hasks : ∀ request, Asks space request → allowed request)
    (hchange : ∀ labels annotations st, ((change labels annotations).run st).run.Within allowed) :
    ((l.modify space operation deadline change left).run st).run.Within allowed := by
  induction left generalizing st with
  | zero => trivial
  | succ left ih =>
    rw [modify]
    refine Attempt.within_state_bind (Attempt.within_state_lift
      ((checkDeadline_within deadline operation).mono fun request h => hasks request (h ▸ .clock))) fun _ st => ?_
    refine Attempt.within_state_bind ?_ fun got st => ?_
    · exact ⟨hasks _ .read, fun reply => by cases reply <;> trivial⟩
    cases got with
    | error fault => cases fault <;> trivial
    | ok record =>
      refine Attempt.within_state_bind (hchange _ _ st) fun new st => ?_
      by_cases hsame : unchanged record new
      · rw [if_pos hsame]
        trivial
      rw [if_neg hsame]
      refine Attempt.within_state_bind ?_ fun sent st => ?_
      · exact ⟨hasks _ (.patch _), fun reply => by cases reply <;> trivial⟩
      cases sent with
      | ok record => trivial
      | error fault =>
        cases fault with
        | versionConflict name expected => exact ⟨trivial, trivial, ih⟩
        | _ => trivial

end Ledger
end NamespaceOwnership
