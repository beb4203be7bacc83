import NamespaceOwnership.Proofs.Run

/-!
# Accepted patches

`accepted` are the patches of namespaces in a trace that the server took. `Grounded` says of each of them that
something holds of it and of what happened before.
-/
namespace NamespaceOwnership

/-- The namespace and the patch of an exchange in which the server took a patch. -/
def Exchange.patch? : Exchange → Option (String × NamespacePatch)
  | ⟨_, .api (.patchNamespace name patch), .ok _, _⟩ => some (name, patch)
  | _ => none

def Event.accepted? : Event → Option Exchange
  | .asked x => if x.patch?.isSome then some x else none
  | .told _ => none

def accepted (tr : List Event) : List Exchange := tr.filterMap Event.accepted?

@[simp] theorem accepted_nil : accepted [] = [] := rfl

@[simp] theorem accepted_append (tr₁ tr₂ : List Event) :
    accepted (tr₁ ++ tr₂) = accepted tr₁ ++ accepted tr₂ := List.filterMap_append

@[simp] theorem accepted_told (note : Note) (tr : List Event) :
    accepted (.told note :: tr) = accepted tr := rfl

@[simp] theorem accepted_failed (c c' : Cluster) (call : ApiCall) (failure : CallFailure)
    (tr : List Event) :
    accepted (.asked (.call c call (.error failure) c') :: tr) = accepted tr := by
  cases call <;> rfl

@[simp] theorem accepted_patched (c c' : Cluster) (name : String) (patch : NamespacePatch)
    (object : Option NamespaceObject) (tr : List Event) :
    accepted (.asked (.call c (.patchNamespace name patch) (.ok object) c') :: tr) =
      .call c (.patchNamespace name patch) (.ok object) c' :: accepted tr := rfl

theorem mem_accepted {tr : List Event} {x : Exchange} :
    x ∈ accepted tr ↔ .asked x ∈ tr ∧ x.patch?.isSome := by
  simp only [accepted, List.mem_filterMap]
  constructor
  · rintro ⟨note | y, hy, hx⟩
    · cases hx
    · simp only [Event.accepted?] at hx
      split at hx
      · cases hx
        exact ⟨hy, ‹_›⟩
      · cases hx
  · rintro ⟨hx, hp⟩
    exact ⟨.asked x, hx, by simp [Event.accepted?, hp]⟩

def Request.isPatch : Request → Bool
  | .api (.patchNamespace _ _) => true
  | _ => false

theorem Exchange.isPatch_of_patch? {x : Exchange} (h : x.patch?.isSome) : x.request.isPatch = true := by
  unfold patch? at h
  split at h
  · rfl
  · cases h

/-- Any request but a patch of a namespace. -/
def Request.Sparing (request : Request) : Prop := request.isPatch = false

theorem accepted_eq_nil {tr : List Event} (h : ∀ x, .asked x ∈ tr → x.request.isPatch = false) :
    accepted tr = [] := by
  refine List.eq_nil_iff_forall_not_mem.mpr fun x hx => ?_
  obtain ⟨hmem, hpatch⟩ := mem_accepted.mp hx
  have hnot := h x hmem
  rw [Exchange.isPatch_of_patch? hpatch] at hnot
  cases hnot

/-- Only an accepted patch changes anything. -/
theorem Interference.Answers.eq_of_not_patched {i : Interference} {c c' : Cluster} {request : Request}
    {answer : request.Answer} (h : i.Answers c request answer c')
    (hx : (⟨c, request, answer, c'⟩ : Exchange).patch? = none) : c' = c := by
  cases request with
  | api call =>
    cases answer with
    | error failure => exact h.2
    | ok reply =>
      cases call with
      | patchNamespace name patch => cases hx
      | readNamespace name => exact h.1
      | listNamespaces selector => exact h.1
      | getDynaKube name => exact h.1
      | listDynaKubes => exact h.1
      | _ => exact h
  | _ => exact h.2

/-- Nothing was asked. -/
def OnlyNotes (tr : List Event) : Prop := ∀ e ∈ tr, ∃ note, e = .told note

namespace OnlyNotes

variable {tr tr' : List Event}

theorem nil : OnlyNotes [] := by simp [OnlyNotes]

theorem single (note : Note) : OnlyNotes [.told note] := by simp [OnlyNotes]

theorem append (h : OnlyNotes tr) (h' : OnlyNotes tr') : OnlyNotes (tr ++ tr') := fun e he =>
  (List.mem_append.mp he).elim (h e) (h' e)

theorem not_asked (h : OnlyNotes tr) {x : Exchange} : .asked x ∉ tr := fun hx => by
  obtain ⟨note, hnote⟩ := h _ hx
  cases hnote

theorem accepted_eq (h : OnlyNotes tr) : accepted tr = [] :=
  List.eq_nil_iff_forall_not_mem.mpr fun _ hx => h.not_asked (mem_accepted.mp hx).1

end OnlyNotes

/-- A session without requests leaves nothing but notes, and the cluster as it is. -/
theorem Session.Runs.onlyNotes {α : Type} {i : Interference} {s : Session α} {c c' : Cluster}
    {tr : List Event} {a : α} (h : Session.Runs i s c tr a c') (hs : s.Within fun _ => False) :
    OnlyNotes tr ∧ c' = c := by
  induction h with
  | done => exact ⟨.nil, rfl⟩
  | tell _ ih => exact ⟨(OnlyNotes.single _).append (ih hs.2).1, (ih hs.2).2⟩
  | ask => exact hs.1.elim

/-- Every accepted patch has its ground in what went before it. -/
def Grounded (ground : List Event → Exchange → Prop) : (past tr : List Event) → Prop
  | _, [] => True
  | past, e :: tr => (∀ x, e.accepted? = some x → ground past x) ∧ Grounded ground (past ++ [e]) tr

namespace Grounded

variable {ground : List Event → Exchange → Prop} {past tr₁ tr₂ tr : List Event}

theorem append : Grounded ground past (tr₁ ++ tr₂) ↔
    Grounded ground past tr₁ ∧ Grounded ground (past ++ tr₁) tr₂ := by
  induction tr₁ generalizing past with
  | nil => simp [Grounded]
  | cons e tr₁ ih => simp [Grounded, ih, and_assoc]

theorem of_accepted_nil (h : accepted tr = []) : Grounded ground past tr := by
  induction tr generalizing past with
  | nil => trivial
  | cons e tr ih =>
    cases he : e.accepted? with
    | none =>
      rw [accepted, List.filterMap_cons_none he] at h
      exact ⟨by simp [he], ih h⟩
    | some x =>
      rw [accepted, List.filterMap_cons_some he] at h
      cases h

/-- Where the past does not matter, only the patches do. -/
theorem of_forall (h : ∀ past x, x ∈ accepted tr → ground past x) : Grounded ground past tr := by
  induction tr generalizing past with
  | nil => trivial
  | cons e tr ih =>
    refine ⟨fun x hx => h past x (List.mem_filterMap.mpr ⟨e, List.mem_cons_self, hx⟩), ih ?_⟩
    intro past x hx
    obtain ⟨e', he', hx⟩ := List.mem_filterMap.mp hx
    exact h past x (List.mem_filterMap.mpr ⟨e', List.mem_cons_of_mem _ he', hx⟩)

/-- Every accepted patch of a trace stands between what it is grounded in and the rest. -/
theorem split {pre post : List Event} {x : Exchange} (h : Grounded ground [] tr)
    (htr : tr = pre ++ .asked x :: post) (hx : x.patch?.isSome) : ground pre x := by
  rw [htr, append] at h
  exact h.2.1 x (by simp [Event.accepted?, hx])

end Grounded

end NamespaceOwnership
