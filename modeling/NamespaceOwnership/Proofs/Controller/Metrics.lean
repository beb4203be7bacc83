import NamespaceOwnership.Proofs.Controller.Tally
import NamespaceOwnership.Proofs.Controller.Writing

/-!
# The metrics are what was done

Metrics that start at zero and hear all notes of a run count them. So they say how many labels were set and dropped by
patches that were accepted and how many patches were outdated, whatever others did meanwhile and whichever calls
failed, and they have one duration for each operation that ended (`Controller.metrics_effects`).
-/
namespace NamespaceOwnership

open Session (Course Runs)

variable {i : Interference} {c c' : Cluster} {tr : List Event} {acts acts' : List Act} {b b' : Books}

def Act.timed : Act → Bool
  | .told (.elapsed _) => true
  | _ => false

/-- How many times were noted. -/
def timings (acts : List Act) : Nat := acts.countP Act.timed

@[simp] theorem timings_append : timings (acts ++ acts') = timings acts + timings acts' := List.countP_append

@[simp] theorem timings_elapsed (milliseconds : Int) (acts : List Act) :
    timings (.told (.elapsed milliseconds) :: acts) = timings acts + 1 := List.countP_cons_of_pos rfl

@[simp] theorem timings_asked (request : Request) (answer : request.Answer) (acts : List Act) :
    timings (.asked request answer :: acts) = timings acts := List.countP_cons_of_neg (by simp [Act.timed])

namespace Metrics

/-- What is heard is added to what the metrics count. -/
theorem count_hear (m : Metrics) (acts : List Act) (counter : Counter) :
    (acts.foldl Act.hear m).count counter = m.count counter + counted counter acts := by
  induction acts generalizing m with
  | nil => rfl
  | cons act rest ih =>
    rw [List.foldl_cons, ih]
    cases act with
    | asked request answer => simp [Act.hear]
    | told note =>
      have hnote : (m.hear note).count counter = m.count counter + if note = .count counter then 1 else 0 := by
        cases note with
        | count other => simp [Metrics.hear, eq_comm]
        | _ => rfl
      rw [Act.hear, hnote, counted_told, Nat.add_assoc]

theorem durationCount_hear (m : Metrics) (acts : List Act) :
    (acts.foldl Act.hear m).durationCount = m.durationCount + timings acts := by
  induction acts generalizing m with
  | nil => rfl
  | cons act rest ih =>
    rw [List.foldl_cons, ih]
    cases act with
    | asked request answer => simp [Act.hear]
    | told note =>
      cases note with
      | elapsed milliseconds =>
        rw [timings_elapsed]
        simp only [Act.hear, Metrics.hear, durationCount, List.length_cons]
        omega
      | _ => rfl

end Metrics

/-- Each operation that ended was counted with one result. -/
theorem length_results (acts : List Act) :
    (results acts).length = (ReconcileResult.all.map fun result => counted (.reconciles result) acts).foldr (· + ·) 0 := by
  induction acts with
  | nil => rfl
  | cons act rest ih =>
    have hother (h : act.result? = none)
        (hcounted : ∀ result, counted (.reconciles result) (act :: rest) = counted (.reconciles result) rest) :
        (results (act :: rest)).length =
          (ReconcileResult.all.map fun result => counted (.reconciles result) (act :: rest)).foldr (· + ·) 0 := by
      simp only [hcounted, ← ih]
      rw [results, List.filterMap_cons_none h, ← results]
    cases act with
    | asked request answer => exact hother rfl fun _ => counted_asked _ _ _
    | told note =>
      cases note with
      | count counter =>
        cases counter with
        | reconciles result =>
          rw [results_counted, List.length_cons, ih]
          cases result <;> simp [ReconcileResult.all] <;> omega
        | _ => exact hother rfl fun result => by simp
      | _ => exact hother rfl fun result => by simp

/-- There is one time for each result. -/
def Clocked (tr : List Event) : Prop := timings (tr.map Event.act) = (results (tr.map Event.act)).length

theorem Uneventful.unclocked (h : Uneventful acts) : timings acts = 0 ∧ results acts = [] := by
  constructor
  · refine List.countP_eq_zero.mpr fun act hact htimed => ?_
    unfold Act.timed at htimed
    split at htimed
    · exact h.uncounted _ hact
    · cases htimed
  · refine List.filterMap_eq_nil_iff.mpr fun act hact => ?_
    unfold Act.result?
    split
    · exact (h.uncounted _ hact).elim
    · rfl

namespace Clocked

theorem additive : Additive Clocked where
  uneventful h := by
    obtain ⟨htimings, hresults⟩ := h.unclocked
    rw [Clocked, htimings, hresults, List.length_nil]
  append h h' := by
    unfold Clocked at h h' ⊢
    rw [List.map_append, timings_append, results_append, List.length_append, h, h']

end Clocked

/-- Whatever happens, no time is noted, and one result is counted. -/
def Control.Concise {α : Type} (x : Control α) : Prop :=
  ∀ b acts p, Course (x.run.run b) acts p → timings acts = 0 ∧ (results acts).length = 1

namespace Control.Concise

variable {α : Type} {x : Control α}

theorem counted {result : ReconcileResult} (hx : Discreet x) : Concise (do Session.count (.reconciles result); x) := by
  intro b acts p h
  obtain ⟨_, _, rest, rfl, hcount, hrest⟩ := course_session_bind.mp h
  obtain rfl := Session.course_note.mp hcount
  obtain ⟨htimings, hresults⟩ := (hrest.uneventful (hx b)).unclocked
  rw [timings_append, results_append, htimings, hresults]
  exact ⟨rfl, rfl⟩

theorem logged {level : LogLevel} {text : String} (hx : Concise x) : Concise (do Session.log level text; x) := by
  intro b acts p h
  obtain ⟨_, _, rest, rfl, hlog, hrest⟩ := course_session_bind.mp h
  obtain rfl := Session.course_note.mp hlog
  obtain ⟨htimings, hresults⟩ := hx b rest p hrest
  rw [timings_append, results_append, List.length_append, htimings, hresults]
  exact ⟨rfl, rfl⟩

end Control.Concise

namespace Controller

open Control (Concise Discreet Traces)

variable {k : Controller} {d : DynaKube} {name : Value}

theorem settleMapped_concise (d : DynaKube) (v : Except Fault MappingResult) : Concise (settleMapped d v) := by
  rcases settleMapped_eq d v with heq | ⟨level, text, heq⟩
  · rw [heq]
    exact .counted (conclude_housekeeping discreet_housekeeping d v)
  · rw [heq]
    exact .logged (.counted (conclude_housekeeping discreet_housekeeping d v))

theorem settleUnmapped_concise (name : Value) (v : Except Fault MappingResult) : Concise (settleUnmapped name v) := by
  cases v with
  | ok result =>
    exact .counted (.bind (discreet_housekeeping.clearRetry name) fun _ => discreet_housekeeping.forget name)
  | error fault => exact .logged (.counted (discreet_housekeeping.repeatLater name))

/-- A mapping tells neither how long it takes nor what comes of it. -/
theorem unclocked_of_within {allowed : Request → Prop} {α : Type} {s : Session α} {a : α} (h : Course s acts a)
    (hs : s.Within allowed) : timings acts = 0 ∧ results acts = [] := by
  have hquiet (note : Note) (hmem : .told note ∈ acts) : note.Quiet := h.quiet hs hmem
  constructor
  · refine List.countP_eq_zero.mpr fun act hact htimed => ?_
    unfold Act.timed at htimed
    split at htimed
    · exact hquiet _ hact
    · cases htimed
  · exact Aside.results fun note hmem => (hquiet note hmem).aside

/-- The time of an operation is noted, whether it fails or not. -/
theorem clocked_of_operates {x : Attempt MappingResult} {deal : Except Fault MappingResult → Control Unit}
    {v : Except Fault MappingResult} {r : Except Fault Unit} (hx : x.run.Within Request.OfMapping)
    (hdeal : ∀ v, Concise (deal v)) (h : Operates x deal b acts v r b') :
    timings acts = (results acts).length := by
  have hended (started ended : Int) : timings [.asked .clock ended, .told (.elapsed (ended - started))] = 1 ∧
      results [.asked .clock ended, .told (.elapsed (ended - started))] = [] := ⟨rfl, rfl⟩
  cases h with
  | succeeded started ended attempted dealt =>
    obtain ⟨htimings, hresults⟩ := unclocked_of_within attempted hx
    obtain ⟨htimings', hresults'⟩ := hdeal _ _ _ _ dealt
    simp only [timings_append, results_append, List.length_append, htimings, hresults, htimings', hresults', hended]
    rfl
  | failed started ended attempted dealt =>
    obtain ⟨htimings, hresults⟩ := unclocked_of_within attempted hx
    obtain ⟨htimings', hresults'⟩ := hdeal _ _ _ _ dealt
    simp only [timings_append, results_append, List.length_append, htimings, hresults, htimings', hresults', hended]
    rfl

theorem reconcile_clocked (d : DynaKube) : Traces i Clocked (k.reconcile d) := by
  rintro b c tr ⟨r, b'⟩ c' h
  obtain ⟨v, r', hoperates, -⟩ := reconcile_operates h.course
  exact clocked_of_operates (mapping_within k d) (settleMapped_concise d) hoperates

theorem unmap_clocked (name : Value) : Traces i Clocked (k.unmap name) := by
  rintro b c tr ⟨r, b'⟩ c' h
  obtain ⟨v, r', hoperates, -⟩ := unmap_operates h.course
  exact clocked_of_operates (unmapping_within k name) (settleUnmapped_concise name) hoperates

/-- A patch that sets a label is sent in the mapping of a DynaKube, and sets it to the name of that. -/
theorem performAll_relabels {tasks : List Task} {p : Except Fault Unit × Books} {x : Exchange} {f : Feature}
    (h : Runs i ((k.performAll tasks).run.run b) c tr p c') (hx : x ∈ accepted tr) (hsets : x.sets f = true) :
    ∃ d mid old, mid <:+: tr ∧ .asked x ∈ mid ∧ IsMapping i k d mid ∧ x.relabels? f = some (old, some d.name) := by
  have hpatch : x.patch?.isSome := (mem_accepted.mp hx).2
  have hsends : Control.Sends i (fun mid x => (∃ d, IsMapping i k d mid) ∨ ∃ name, Unmaps name x) (k.performAll tasks) :=
    (performAll_calls tasks).sends fun a ha =>
      ha.sends (fun d _ mid x hmapping => .inl ⟨d, hmapping⟩) fun name _ mid x hunmaps => .inr ⟨name, hunmaps⟩
  obtain ⟨mid, hmid, hmem, ⟨d, hmapping⟩ | ⟨name, todo, hdrops⟩⟩ := hsends b c tr p c' h x hx
  · obtain ⟨limit, c₁, r, c₂, hrun⟩ := id hmapping
    obtain ⟨old, hold⟩ := Mapper.map_relabels hrun (mem_accepted.mpr ⟨hmem, hpatch⟩) hsets
    exact ⟨d, mid, old, hmid, hmem, hmapping, hold⟩
  · rw [hdrops.not_sets hpatch] at hsets
    cases hsets

/-- Whatever others do to the cluster and whichever calls fail: after any number of operations the metrics, which
start at zero, are equal to what was done. For each feature, the accepted claims are the accepted patches that set
its label, each to the name of the DynaKube that was mapped; the releases are those that deleted it; the retries are
the patches that were outdated; and there is one duration for each operation that was counted with its result. -/
theorem metrics_effects {tasks : List Task} {p : Except Fault Unit × Books}
    (hnamed : ∀ d, .reconcile d ∈ tasks → d.name ≠ "") (h : Runs i ((k.performAll tasks).run.run b) c tr p c') :
    let metrics := (tr.map Event.act).foldl Act.hear Metrics.zero
    (∀ f, metrics.count (.claims f .accepted) = (accepted tr).countP (Exchange.sets f)) ∧
      (∀ f, ∀ x ∈ accepted tr, x.sets f = true → ∃ d mid old, mid <:+: tr ∧ .asked x ∈ mid ∧ IsMapping i k d mid ∧
        x.relabels? f = some (old, some d.name)) ∧
      (∀ f, metrics.count (.releases f .stale) + metrics.count (.releases f .unmapped) =
        (accepted tr).countP (Exchange.drops f)) ∧
      metrics.count .versionConflictRetries = tr.countP Event.outdated ∧
      metrics.durationCount =
        (ReconcileResult.all.map fun result => metrics.count (.reconciles result)).foldr (· + ·) 0 := by
  have hreckoned : Reckoned tr :=
    performAll_traces Reckoned.additive (fun d hname => reconcile_reckoned hname) unmap_reckoned hnamed b c tr p c' h
  have hclocked : Clocked tr :=
    performAll_traces Clocked.additive (fun d _ => reconcile_clocked d) unmap_clocked hnamed b c tr p c' h
  have hcount (counter : Counter) :
      ((tr.map Event.act).foldl Act.hear Metrics.zero).count counter = counted counter (tr.map Event.act) := by
    rw [Metrics.count_hear, Metrics.count_zero, Nat.zero_add]
  simp only [hcount, Metrics.durationCount_hear]
  refine ⟨hreckoned.claims, fun f x hx hsets => performAll_relabels h hx hsets, hreckoned.releases, hreckoned.retries,
    ?_⟩
  rw [hclocked, length_results]
  exact Nat.zero_add _

/-- An unmapping in the calm drops the only claim there is, and counts it. -/
theorem metrics_effects_cleared : ∃ tr p c',
    Runs .calm ((sweeper.performAll [.unmap (.text "a")]).run.run {}) occupied tr p c' ∧ accepted tr ≠ [] ∧
      ∀ f, ((tr.map Event.act).foldl Act.hear Metrics.zero).count (.releases f .stale) +
        ((tr.map Event.act).foldl Act.hear Metrics.zero).count (.releases f .unmapped) =
          (accepted tr).countP (Exchange.drops f) := by
  obtain ⟨tr, p, c', x, hrun, hx⟩ := occupied_cleared
  obtain ⟨-, -, hreleases, -⟩ := metrics_effects (by simp) hrun
  exact ⟨tr, p, c', hrun, List.ne_nil_of_mem hx, hreleases⟩

end Controller
end NamespaceOwnership
