import NamespaceOwnership.Proofs.Patch

/-!
# The clusters that a run goes through

`moments` are all clusters of a run in their order. What holds from each cluster to the next, over what others do
and over every accepted patch, holds from every moment to every later one (`Session.Runs.pairwise`).
-/
namespace NamespaceOwnership

def Event.clusters : Event → List Cluster
  | .told _ => []
  | .asked x => [x.before, x.after]

/-- From the cluster of the beginning to that of the end. -/
def moments (c : Cluster) (tr : List Event) (c' : Cluster) : List Cluster :=
  c :: (tr.flatMap Event.clusters ++ [c'])

theorem before_mem_moments {tr : List Event} {x : Exchange} (hx : .asked x ∈ tr) (c c' : Cluster) :
    x.before ∈ moments c tr c' :=
  List.mem_cons_of_mem _ (List.mem_append_left _ (List.mem_flatMap.mpr ⟨_, hx, List.mem_cons_self⟩))

/-- The same interference, where whatever others do leads to such a cluster. -/
def Interference.amid (i : Interference) (P : Cluster → Prop) : Interference where
  moves c c' := i.moves c c' ∧ P c'
  evolves h := i.evolves h.1
  fails := i.fails
  permits := i.permits

theorem Interference.Answers.amid {i : Interference} {P : Cluster → Prop} {c c' : Cluster} {request : Request}
    {answer : request.Answer} (h : i.Answers c request answer c') :
    (i.amid P).Answers c request answer c' :=
  h.mono (fun _ _ _ hf => hf) fun _ _ hp => hp

namespace Session

variable {α : Type} {i : Interference} {s : Session α} {c c' : Cluster} {tr : List Event} {a : α}

theorem Runs.pairwise {R : Cluster → Cluster → Prop} (hrefl : ∀ c, R c c)
    (htrans : ∀ {c₁ c₂ c₃}, R c₁ c₂ → R c₂ c₃ → R c₁ c₃) (hmoves : ∀ {c c'}, i.moves c c' → R c c')
    (h : Runs i s c tr a c') (hpatched : ∀ x ∈ accepted tr, R x.before x.after) :
    (moments c tr c').Pairwise R := by
  induction h with
  | done a c => simpa [moments] using hrefl c
  | tell _ ih => exact ih hpatched
  | @ask request next c c₁ c₂ c' answer tr a moved answered rest ih =>
    have hmoved : R c c₁ := hmoves moved
    have hanswered : R c₁ c₂ := by
      cases hx : (⟨c₁, request, answer, c₂⟩ : Exchange).patch? with
      | none => exact answered.eq_of_not_patched hx ▸ hrefl _
      | some named => exact hpatched _ (mem_accepted.mpr ⟨List.mem_cons_self, by rw [hx]; rfl⟩)
    have hrest : (moments c₂ tr c').Pairwise R := ih fun x hx => by
      obtain ⟨hmem, hsome⟩ := mem_accepted.mp hx
      exact hpatched x (mem_accepted.mpr ⟨List.mem_cons_of_mem _ hmem, hsome⟩)
    have hlater : ∀ c₃ ∈ moments c₂ tr c', R c₂ c₃ := fun c₃ hc₃ => by
      rcases List.mem_cons.mp hc₃ with rfl | hc₃
      · exact hrefl _
      · exact List.rel_of_pairwise_cons hrest hc₃
    have hsecond : (c₁ :: moments c₂ tr c').Pairwise R :=
      List.pairwise_cons.mpr ⟨fun c₃ hc₃ => htrans hanswered (hlater c₃ hc₃), hrest⟩
    refine List.pairwise_cons.mpr ⟨fun c₃ hc₃ => htrans hmoved ?_, hsecond⟩
    rcases List.mem_cons.mp hc₃ with rfl | hc₃
    · exact hrefl _
    · exact htrans hanswered (hlater c₃ hc₃)

/-- Others have moved right before every exchange. -/
theorem Runs.exists_moved (h : Runs i s c tr a c') {x : Exchange} (hx : .asked x ∈ tr) :
    ∃ c₀, i.moves c₀ x.before := by
  induction h with
  | done => cases hx
  | tell _ ih =>
    rcases List.mem_cons.mp hx with hx | hx
    · cases hx
    · exact ih hx
  | ask moved _ _ ih =>
    rcases List.mem_cons.mp hx with hx | hx
    · cases hx
      exact ⟨_, moved⟩
    · exact ih hx

/-- What others and the answers keep goes on in the midst of it. -/
theorem Runs.amid {P : Cluster → Prop} (h : Runs i s c tr a c') (hc : P c)
    (hmoves : ∀ {c c'}, i.moves c c' → P c → P c')
    (hanswers : ∀ {c c' : Cluster} {request : Request} {answer : request.Answer},
      i.Answers c request answer c' → P c → P c') : Runs (i.amid P) s c tr a c' := by
  induction h with
  | done a c => exact .done a c
  | tell _ ih => exact .tell (ih hc)
  | ask moved answered _ ih =>
    have hmoved := hmoves moved hc
    exact .ask ⟨moved, hmoved⟩ answered.amid (ih (hanswers answered hmoved))

end Session
end NamespaceOwnership
