import NamespaceOwnership.Proofs.Controller.Operations
import NamespaceOwnership.Proofs.Controller.Parts

/-!
# What the controller may write

All writing is done in calls of the mapper, and each of these writes on the strength of what it has just read. So
neither what others do meanwhile nor which calls fail can make the controller write anything else.
-/
namespace NamespaceOwnership.Controller

open Session (Course Runs)
open Mapper (Call)

variable {k : Controller} {b : Books}

/-- Whatever the tasks are and whatever their requests are answered: each patch of a namespace, accepted or not, is
sent in a call of the mapper and is warranted by what that call has read last. -/
theorem patches_warranted {tasks : List Task} {pre post : List Act} {space : String} {patch : NamespacePatch}
    {answer : (Request.api (.patchNamespace space patch)).Answer} {p : Except Fault Unit × Books}
    (h : Course ((k.performAll tasks).run.run b)
      (pre ++ .asked (.api (.patchNamespace space patch)) answer :: post) p) :
    ∃ (call : Call) (limit : Int) (before inner rest after : List Act) (result : Except Fault MappingResult),
      pre = before ++ inner ∧ post = rest ++ after ∧
      Course (call.attempt k.mapper (some limit)).run
        (inner ++ .asked (.api (.patchNamespace space patch)) answer :: rest) result ∧
      k.mapper.Warranted call inner space patch := by
  obtain ⟨_, before, inner, rest, after, result, ⟨call, limit, -, rfl⟩, hpre, hpost, hcall⟩ :=
    (performAll_calls tasks b).exists_part h rfl
  have hwarranted := (call.obeys k.mapper (some limit)).of_mem hcall space patch rfl
  exact ⟨call, limit, before, inner, rest, after, result, hpre, hpost, hcall, hwarranted⟩

section Cleared

/-- One namespace with one claim. -/
def occupied : Cluster := Cluster.blank.put "n" ⟨Ledger.claimed "a" [.codeModules] .empty, .empty, "1"⟩

def sweeper : Controller := ⟨⟨⟨2, Nat.two_pos⟩, "operator"⟩, 30, 300⟩

/-- An unmapping in the calm drops the only claim there is. -/
theorem occupied_cleared : ∃ tr p c' x,
    Runs .calm ((sweeper.performAll [.unmap (.text "a")]).run.run {}) occupied tr p c' ∧ x ∈ accepted tr := by
  have hfinite : occupied.Finite := Cluster.blank_finite.put _ _
  obtain ⟨tr, p, c', hrun, -, hstill⟩ :=
    Session.exists_calm_run hfinite 0 ((sweeper.performAll [.unmap (.text "a")]).run.run {})
  have hunmap : ∃ tr₁ q c₁ tr₂, tr = tr₁ ++ tr₂ ∧
      Runs .calm ((sweeper.unmap (.text "a")).run.run {}) occupied tr₁ q c₁ := by
    obtain ⟨tr₁, r, b₁, c₁, tr₂, rfl, htask, -⟩ := Control.runs_outcome_bind.mp hrun
    rcases Control.runs_bind.mp htask with ⟨fault, -, h⟩ | ⟨tr₃, a, b₂, c₂, tr₄, rfl, h, -⟩
    · exact ⟨tr₁, _, c₁, tr₂, rfl, h⟩
    · exact ⟨tr₃, _, c₂, tr₄ ++ tr₂, by simp, h⟩
  obtain ⟨tr₁, q, c₁, tr₂, rfl, hunmap⟩ := hunmap
  have htimely : Timely sweeper.reconcileTimeout tr₁ :=
    .of_still (Clock.later_of_near (by decide) (by decide)) (by decide) fun x hx =>
      hstill x (List.mem_append_left _ hx)
  obtain ⟨_, -, -, howner⟩ := unmap_yields "a" _ _ _ hunmap htimely
  have hfreed : c₁.owner? "n" .codeModules ≠ some "a" := by
    rw [howner "n" .codeModules (by decide), if_pos (by rfl)]
    simp
  obtain ⟨x, hx, -⟩ := hunmap.exists_change (fun c => c.owner? "n" .codeModules = some "a") rfl hfreed
  exact ⟨_, p, c', x, hrun, by simp [hx]⟩

theorem patches_warranted_cleared : ∃ (k : Controller) (pre post : List Act) (space : String) (patch : NamespacePatch)
    (answer : (Request.api (.patchNamespace space patch)).Answer) (p : Except Fault Unit × Books),
    Course ((k.performAll [.unmap (.text "a")]).run.run {})
      (pre ++ .asked (.api (.patchNamespace space patch)) answer :: post) p ∧
    ∃ (call : Call) (inner : List Act), inner <:+ pre ∧ k.mapper.Warranted call inner space patch := by
  obtain ⟨tr, p, c', x, hrun, hx⟩ := occupied_cleared
  obtain ⟨hmem, hpatch⟩ := mem_accepted.mp hx
  obtain ⟨pre, post, rfl⟩ := List.append_of_mem hmem
  obtain ⟨before, request, answer, after⟩ := x
  have hrequest : request.isPatch = true := Exchange.isPatch_of_patch? hpatch
  unfold Request.isPatch at hrequest
  split at hrequest
  · rename_i space patch
    have hcourse := hrun.course
    rw [List.map_append] at hcourse
    obtain ⟨call, limit, first, inner, rest, later, result, hpre, -, -, hwarranted⟩ := patches_warranted hcourse
    exact ⟨sweeper, _, _, space, patch, answer, p, hcourse, call, inner, ⟨first, hpre.symm⟩, hwarranted⟩
  · cases hrequest

end Cleared

end NamespaceOwnership.Controller
