import NamespaceOwnership.Proofs.Course
import NamespaceOwnership.Proofs.Ledger.Attempts

/-!
# What an update was last shown

An update reads its namespace again for each attempt, and its change keeps in a state what it made of the reading. When
the update returns, the change has left that state for the labels and annotations that were last read
(`Ledger.modify_recent`), whether a patch went through, none was needed, or the namespace was missing. If it was missing,
nothing was written (`Ledger.modify_missing`).
-/
namespace NamespaceOwnership

open Session (Runs)

/-- The namespace as an answer shows it. -/
def Act.shows? (space : String) : Act → Option NamespaceRecord
  | .asked (.api (.readNamespace other)) (.ok object) => if other = space then some (.ofObject object) else none
  | _ => none

/-- The namespace as it was last shown. -/
def lastShown (space : String) (acts : List Act) : Option NamespaceRecord :=
  (acts.filterMap (Act.shows? space)).getLast?

theorem lastShown_append (space : String) (acts acts' : List Act) :
    lastShown space (acts ++ acts') = (lastShown space acts').or (lastShown space acts) := by
  rw [lastShown, List.filterMap_append, List.getLast?_append, lastShown, lastShown]

/-- A read or a patch of the namespace was answered that there is none. -/
def Act.misses (space : String) : Act → Bool
  | .asked (.api (.readNamespace other)) (.error failure)
  | .asked (.api (.patchNamespace other _)) (.error failure) => other = space ∧ failure.status? = some 404
  | _ => false

/-- A request that is not about one namespace. -/
def Request.Aside : Request → Prop
  | .api (.readNamespace _) | .api (.patchNamespace _ _) => False
  | _ => True

/-- No namespace was shown, and none was missing. -/
structure Unseen (space : String) (acts : List Act) : Prop where
  shown : lastShown space acts = none
  found : acts.any (Act.misses space) = false

theorem Unseen.of_forall {space : String} {acts : List Act}
    (h : ∀ act ∈ acts, act.shows? space = none ∧ act.misses space = false) : Unseen space acts where
  shown := by rw [lastShown, List.filterMap_eq_nil_iff.mpr fun act hact => (h act hact).1, List.getLast?_nil]
  found := List.any_eq_false.mpr fun act hact => by simp [(h act hact).2]

theorem Session.Runs.unseen {α : Type} {i : Interference} {c c' : Cluster} {tr : List Event} {s : Session α} {a : α}
    (h : Runs i s c tr a c') (hs : s.Within Request.Aside) (space : String) : Unseen space (tr.map Event.act) := by
  refine .of_forall fun act hact => ?_
  cases act with
  | told note => exact ⟨rfl, rfl⟩
  | asked request answer =>
    have haside : request.Aside := h.course.within hs hact
    cases request with
    | api call =>
      cases call with
      | readNamespace | patchNamespace => exact haside.elim
      | _ => exact ⟨rfl, rfl⟩
    | _ => exact ⟨rfl, rfl⟩

namespace Ledger

variable {σ : Type} {i : Interference} {c c' : Cluster} {tr : List Event} {space operation : String}
  {deadline : Option Int} {change : Change σ} {st st' : σ}

theorem checkDeadline_unseen {r : Except Fault Unit} (h : Runs i (checkDeadline deadline operation).run c tr r c') :
    Unseen space (tr.map Event.act) :=
  h.unseen ((checkDeadline_within deadline operation).mono fun _ hclock => hclock ▸ trivial) space

/-- The change left its state for the labels and annotations that were last read, or none were read. -/
inductive Recent (i : Interference) (space : String) (change : Change σ) (st : σ) (acts : List Act) : σ → Prop where
  | unread (unseen : lastShown space acts = none) : Recent i space change st acts st
  | read {record : NamespaceRecord} {st₁ st₂ : σ} {new : Labels × Annotations} {c₁ c₂ : Cluster} {tr : List Event}
      (shown : lastShown space acts = some record)
      (changed : Runs i ((change record.labels record.annotations).run st₁).run c₁ tr (.ok (new, st₂)) c₂) :
      Recent i space change st acts st₂

theorem Recent.trans {st₁ st₂ : σ} {acts acts' : List Act} (h : Recent i space change st acts st₁)
    (h' : Recent i space change st₁ acts' st₂) : Recent i space change st (acts ++ acts') st₂ := by
  cases h' with
  | read shown changed => exact .read (by rw [lastShown_append, shown, Option.some_or]) changed
  | unread unseen =>
    cases h with
    | unread earlier => exact .unread (by rw [lastShown_append, unseen, earlier, Option.none_or])
    | read shown changed => exact .read (by rw [lastShown_append, unseen, shown, Option.none_or]) changed

/-- The state with which an attempt ends, unless it fails. -/
def Ending.state? : Ending σ → Option σ
  | .over (.ok (_, st)) | .outdated st => some st
  | .over (.error _) => none

theorem Reads.lastShown {s : Space} (h : Reads i space operation deadline c tr s c') :
    lastShown space (tr.map Event.act) = some (s.record space) := by
  obtain ⟨checked, -, -, shown⟩ := h
  rw [List.map_append, lastShown_append]
  simp [NamespaceOwnership.lastShown, Event.act, Exchange.call, Act.shows?, shown]

theorem Reads.found {s : Space} (h : Reads i space operation deadline c tr s c') :
    (tr.map Event.act).any (Act.misses space) = false := by
  obtain ⟨checked, -, -, -⟩ := h
  rw [List.map_append, List.any_append, (checkDeadline_unseen checked).found]
  rfl

section Change

variable (hchange : ∀ labels annotations st, ((change labels annotations).run st).run.Within Request.Aside)

include hchange

theorem Plans.lastShown {s : Space} {new : Labels × Annotations}
    (h : Plans i space operation deadline change st c tr s new st' c') :
    lastShown space (tr.map Event.act) = some (s.record space) := by
  obtain ⟨read, changed⟩ := h
  rw [List.map_append, lastShown_append, (changed.unseen (hchange _ _ _) space).shown, read.lastShown, Option.none_or]

theorem Plans.recent {s : Space} {new : Labels × Annotations}
    (h : Plans i space operation deadline change st c tr s new st' c') :
    Recent i space change st (tr.map Event.act) st' := by
  have hshown := h.lastShown hchange
  obtain ⟨read, changed⟩ := h
  exact .read hshown changed

theorem Plans.found {s : Space} {new : Labels × Annotations}
    (h : Plans i space operation deadline change st c tr s new st' c') :
    (tr.map Event.act).any (Act.misses space) = false := by
  obtain ⟨read, changed⟩ := h
  rw [List.map_append, List.any_append, read.found, (changed.unseen (hchange _ _ _) space).found, Bool.or_false]

theorem Attempted.recent {e : Ending σ} (h : Attempted i space operation deadline change st c tr e c')
    (he : e.state? = some st') : Recent i space change st (tr.map Event.act) st' := by
  -- what follows the change shows the namespace no more
  have hlater {tr tr' : List Event} {s : Space} {new : Labels × Annotations} {st₁ : σ} {c₁ : Cluster}
      (h : Plans i space operation deadline change st c tr s new st₁ c₁)
      (htail : lastShown space (tr'.map Event.act) = none) :
      Recent i space change st ((tr ++ tr').map Event.act) st₁ := by
    rw [List.map_append]
    exact (h.recent hchange).trans (.unread htail)
  cases h with
  | expired | unread | objected | refused => cases he
  | gone checked =>
    cases he
    refine .unread ?_
    rw [List.map_append, lastShown_append, (checkDeadline_unseen checked).shown]
    rfl
  | idle planned =>
    cases he
    exact planned.recent hchange
  | written planned | lost planned | vanished planned =>
    cases he
    exact hlater planned rfl

/-- An attempt that misses its namespace writes nothing and is over. -/
theorem Attempted.missing {e : Ending σ} (h : Attempted i space operation deadline change st c tr e c')
    (hmiss : (tr.map Event.act).any (Act.misses space) = true) : ∃ st₁, e = .over (.ok (false, st₁)) := by
  cases h with
  | gone | vanished => exact ⟨_, rfl⟩
  | expired checked => simp [(checkDeadline_unseen checked).found] at hmiss
  | unread checked _ _ status =>
    simp [(checkDeadline_unseen checked).found, Event.act, Exchange.call, Act.misses, status] at hmiss
  | objected read changed =>
    simp [read.found, (changed.unseen (hchange _ _ _) space).found] at hmiss
  | idle planned => exact ⟨_, rfl⟩
  | written planned => simp [planned.found hchange, Event.act, Exchange.call, Act.misses, updateCall] at hmiss
  | lost planned _ _ _ status =>
    simp [planned.found hchange, Event.act, Exchange.call, Act.misses, updateCall, status] at hmiss
  | refused planned _ _ _ missing =>
    simp [planned.found hchange, Event.act, Exchange.call, Act.misses, updateCall, missing] at hmiss

theorem Retried.recent (h : Retried i space operation deadline change st c tr st' c') :
    Recent i space change st (tr.map Event.act) st' := by
  induction h with
  | none => exact .unread rfl
  | again first _ ih =>
    rw [List.map_append]
    exact (first.recent hchange rfl).trans ih

theorem Retried.found (h : Retried i space operation deadline change st c tr st' c') :
    (tr.map Event.act).any (Act.misses space) = false := by
  induction h with
  | none => rfl
  | again first _ ih =>
    rw [List.map_append, List.any_append, ih, Bool.or_false]
    refine Bool.eq_false_iff.mpr fun hmiss => ?_
    obtain ⟨_, hover⟩ := first.missing hchange hmiss
    cases hover

variable {l : Ledger} {left : Nat}

/-- When an update returns, its state is from the last reading. -/
theorem modify_recent {written : Bool}
    (h : Runs i ((l.modify space operation deadline change left).run st).run c tr (.ok (written, st')) c') :
    Recent i space change st (tr.map Event.act) st' := by
  obtain ⟨tr₁, st₁, c₁, tr₂, rfl, hretried, hover | ⟨-, hr, -⟩⟩ := modify_runs h
  · rw [List.map_append]
    exact (hretried.recent hchange).trans (hover.recent hchange rfl)
  · cases hr

/-- An update that misses its namespace returns, and has written nothing. -/
theorem modify_missing {r : Except Fault (Bool × σ)}
    (h : Runs i ((l.modify space operation deadline change left).run st).run c tr r c')
    (hmiss : (tr.map Event.act).any (Act.misses space) = true) : ∃ st₁, r = .ok (false, st₁) := by
  obtain ⟨tr₁, st₁, c₁, tr₂, rfl, hretried, hend⟩ := modify_runs h
  rw [List.map_append, List.any_append, hretried.found hchange, Bool.false_or] at hmiss
  rcases hend with hover | ⟨rfl, -, -⟩
  · obtain ⟨st₂, he⟩ := hover.missing hchange hmiss
    cases he
    exact ⟨st₂, rfl⟩
  · cases hmiss

end Change

end Ledger
end NamespaceOwnership
