import NamespaceOwnership.Proofs.Controller.Deadlines

/-!
# Reconciling in the calm

A reconciliation in an orderly cluster and an unmapping succeed where no deadline passes, and leave the labels
as the mapping does that they carry out. Keeping the books and reporting the status change no label.
-/
namespace NamespaceOwnership

open Session (Runs)

variable {α : Type} {pace : Pace} {c : Cluster} {b : Books}

theorem Attempt.wallTime_yields : Attempt.Yields pace c Attempt.wallTime fun _ c' => c' = c := by
  intro tr r c' hrun _
  obtain ⟨tr₁, answer, c₁, tr₂, rfl, hrequest, hend⟩ := Attempt.runs_lift_bind.mp hrun
  obtain ⟨c₀, hm, ⟨hpermits, rfl⟩, rfl⟩ := Session.runs_request.mp hrequest
  obtain rfl : c = c₁ := hm
  cases answer with
  | error error => exact hpermits.elim
  | ok time =>
    obtain ⟨-, rfl, rfl⟩ := Attempt.runs_pure.mp hend
    exact ⟨time, rfl, rfl⟩

/-- A status can be reported. -/
theorem DynaKubes.reportStatus_yields (name : Value) (state message : String) :
    Attempt.Yields pace c (DynaKubes.reportStatus name state message) fun _ c' => c' = c := by
  refine Attempt.wallTime_yields.bind fun time c₁ hc => ?_
  obtain rfl := hc
  intro tr r c' hrun _
  obtain ⟨tr₁, reply, c₂, tr₂, rfl, hcall, hend⟩ := Attempt.runs_lift_bind.mp hrun
  obtain ⟨c₀, hm, hreply, rfl⟩ := Session.runs_call.mp hcall
  obtain rfl : _ = c₀ := hm
  cases reply with
  | error failure => exact hreply.1.elim
  | ok reply =>
    obtain rfl : c₂ = _ := hreply
    obtain ⟨-, rfl, rfl⟩ := Attempt.runs_pure.mp hend
    exact ⟨(), rfl, rfl⟩

theorem Control.yields_get : Control.Yields pace c b (get : Control Books) fun s b' c' =>
    s = b ∧ b' = b ∧ c' = c := Session.Yields.done ⟨b, rfl, rfl, rfl, rfl⟩

theorem Control.yields_note (note : Note) :
    Control.Yields pace c b (liftM (Session.note note) : Control Unit) fun _ b' c' => c' = c ∧ b' = b :=
  Control.yields_session (Session.yields_note note)

namespace Controller

variable {k : Controller}

theorem reportStatus_yields (name : String) (state : MappingState) (message : String) :
    Control.Yields pace c b (reportStatus name state message) fun _ _ c' => c' = c := by
  refine Control.yields_get.bind fun s b₁ c₁ hs => ?_
  obtain ⟨rfl, rfl, rfl⟩ := hs
  split
  · exact .pure rfl
  · refine (Control.yields_attempt (DynaKubes.reportStatus_yields _ _ _)).bind fun _ b₂ c₂ hc => ?_
    obtain ⟨rfl, rfl⟩ := hc
    exact (Control.yields_modify _).mono fun _ _ _ h => h.2

/-- A name that is a text can be crossed out, and then the number of repetitions is noted. -/
theorem clearRetry_yields (name : String) :
    Control.Yields pace c b (clearRetry (.text name)) fun _ _ c' => c' = c := by
  have hrun : ∃ b', (clearRetry (.text name)).run.run b = Control.notePending.run.run b' := ⟨_, rfl⟩
  obtain ⟨b', hrun⟩ := hrun
  rw [Control.Yields, hrun]
  exact (Control.yields_note (.pending b'.pending.size)).mono fun _ _ _ h => h.1

theorem forget_yields (name : String) : Control.Yields pace c b (forget (.text name)) fun _ _ c' => c' = c :=
  Session.Yields.done ⟨(), rfl, rfl⟩

/-- A mapping that failed is logged. -/
theorem failed_tells (d : DynaKube) (fault : Fault) : ∃ note next, note.Quiet ∧
    (do failed d fault; return none : Control (Option MappingResult)).run.run b = .tell note next := by
  cases fault <;> exact ⟨.log _ _, _, trivial, rfl⟩

theorem map_works (k : Controller) (d : DynaKube) : Works (fun t => k.mapper.map d (some t)) c :=
  works_of_list fun t => (Mapper.map_within k.mapper (some t) d).mono fun _ _ => trivial

/-- In an orderly cluster a reconciliation in time succeeds. -/
theorem reconcile_yields {d : DynaKube} (h : k.mapper.Orderly c) (hd : c.Stored d) :
    Control.Yields (.timely k.reconcileTimeout) c b (k.reconcile d)
      fun result _ c' => result.isSome ∧ Mapper.Mapped k.mapper d c c' := by
  refine (timed_yields (map_works k d) (fun _ => rfl) (failed_tells d) fun limit =>
    Mapper.map_yields h hd).bind fun mapped b₁ c₁ hmapped => ?_
  obtain ⟨⟨result, rfl, hmapped⟩, rfl⟩ := hmapped
  refine (Control.yields_note _).bind fun _ b₂ c₂ hc => ?_
  obtain ⟨rfl, rfl⟩ := hc
  refine (reportStatus_yields _ _ _).bind fun _ b₃ c₃ hc => ?_
  obtain rfl := hc
  refine (clearRetry_yields _).bind fun _ b₄ c₄ hc => ?_
  obtain rfl := hc
  refine (Control.yields_modify _).bind fun _ b₅ c₅ hc => ?_
  obtain ⟨-, rfl⟩ := hc
  exact .pure ⟨rfl, hmapped⟩

/-- An unmapping in time succeeds. -/
theorem unmap_yields (name : String) :
    Control.Yields (.timely k.reconcileTimeout) c b (k.unmap (.text name)) fun _ _ c' =>
      c.Relabels c' ∧ ∀ p f, p ≠ "" → c'.owner? p f = if c.owner? p f = some name then none else c.owner? p f := by
  have hwork : Works (fun t => k.mapper.unmap (.text name) (some t)) c :=
    works_of_list fun t => (Mapper.unmap_within k.mapper (some t) (.text name)).mono fun _ _ => trivial
  refine (timed_yields hwork (fun _ => rfl) (fun _ => ⟨.log _ _, _, trivial, rfl⟩) fun limit =>
    Mapper.unmap_yields name).bind fun unmapped b₁ c₁ hunmapped => ?_
  obtain ⟨⟨result, rfl, hunmapped⟩, rfl⟩ := hunmapped
  refine (Control.yields_note _).bind fun _ b₂ c₂ hc => ?_
  obtain ⟨rfl, rfl⟩ := hc
  refine (clearRetry_yields _).bind fun _ b₃ c₃ hc => ?_
  obtain rfl := hc
  refine (forget_yields _).bind fun _ b₄ c₄ hc => ?_
  obtain rfl := hc
  exact .pure hunmapped

end Controller
end NamespaceOwnership
