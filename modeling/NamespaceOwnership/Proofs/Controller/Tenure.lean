import NamespaceOwnership.Proofs.Controller.Closure
import NamespaceOwnership.Proofs.Controller.Orphans
import NamespaceOwnership.Proofs.Mapping.Tenure

/-!
# Who owns a place, and has a right to it, keeps it

As long as others leave the DynaKubes and the labels alone, everything that the controller does of its own accord,
which is to map DynaKubes as they are, to repeat what has failed and to resync, leaves a place with an owner
that has a right to it, whatever calls fail in between (`Controller.rightful_stays`).
-/
namespace NamespaceOwnership

open Number (Binary64)
open Session (Runs)

/-- Every DynaKube is stored under the name that it gives itself. -/
def Cluster.Named (c : Cluster) : Prop :=
  ∀ name object d, c.dynakubes name = some object → DynaKube.ofObject object = .ok d → d.name = name

theorem Cluster.Named.stored {c : Cluster} {name : String} {d : DynaKube} (h : c.Named) (hd : c.Shows name (some d)) :
    d.name = name ∧ c.Stored d := by
  obtain ⟨object, hobject, hvalid⟩ := hd
  have hname := h name object d hobject hvalid
  exact ⟨hname, object, hname ▸ hobject, hvalid⟩

/-- Others leave the DynaKubes alone, and every namespace that is there with all of its labels. -/
structure Interference.Aloof (i : Interference) : Prop where
  dynakubes : ∀ {c c'}, i.moves c c' → c'.dynakubes = c.dynakubes
  labels : ∀ {c c' space s}, i.moves c c' → c.spaces space = some s →
    ∃ s', c'.spaces space = some s' ∧ ∀ key, TextMap.get? s'.labels key = TextMap.get? s.labels key

namespace DynaKubes

variable {i : Interference} {c c' : Cluster} {tr : List Event}

/-- Only a text names a DynaKube. -/
theorem get?_runs_text {name : Value} {d : DynaKube} (h : Runs i (get? name).run c tr (.ok (some d)) c') :
    ∃ text, name = .text text := by
  obtain ⟨tr₁, reply, c₁, tr₂, rfl, hcall, hend⟩ := Attempt.runs_lift_bind.mp h
  obtain ⟨c₀, -, hr, rfl⟩ := Session.runs_call.mp hcall
  cases reply with
  | ok object =>
    obtain ⟨-, text, htext, -⟩ := hr
    exact ⟨text, htext⟩
  | error failure =>
    by_cases h404 : failure.status? = some 404
    · simp only [h404, if_true] at hend
      obtain ⟨-, hnone, -⟩ := Attempt.runs_pure.mp hend
      cases hnone
    · simp only [h404, if_false] at hend
      obtain ⟨-, hf, -⟩ := Attempt.runs_throw.mp hend
      cases hf

end DynaKubes

namespace Controller

open Control (Sends)

variable {α : Type} {i : Interference} {k : Controller} {a d : DynaKube} {f : Feature} {space : String}
  {c c' : Cluster} {b b' : Books} {tr mid : List Event} {x : Exchange}

theorem sends_closed {how : List Event → Exchange → Prop} : Control.Closed fun x => Sends i how x where
  pure _ := .pure
  throw _ := .throw
  get := Control.Within.get.sends
  note _ := Control.sends_note _
  bind := .then
  outcome_bind hx hf := hx.outcome.then hf

/-- The patch belongs to a mapping of the DynaKube as it is or of another one, or drops a claim of another name. -/
def Spares (i : Interference) (k : Controller) (a : DynaKube) (mid : List Event) (x : Exchange) : Prop :=
  (∃ d, (d.name = a.name → d = a) ∧ IsMapping i k d mid) ∨ ∃ name, name ≠ a.name ∧ Unmaps name x

/-- The DynaKubes have their names, and this one is among them. -/
structure Keeps (a : DynaKube) (c : Cluster) : Prop where
  named : c.Named
  stored : c.Stored a

theorem reconcile_spares (hd : d.name = a.name → d = a) : Sends i (Spares i k a) (k.reconcile d) := fun b =>
  (reconcile_sends d b).mono fun _ _ h => .inl ⟨d, hd, h⟩

theorem unmap_spares {name : Value} (hname : name ≠ .text a.name) : Sends i (Spares i k a) (k.unmap name) :=
  fun b => (unmap_sends name b).mono fun _ _ ⟨text, htext, h⟩ =>
    .inr ⟨text, fun heq => hname (heq ▸ htext), h⟩

variable (hi : i.Truthful) (hkeeps : ∀ {c c'}, i.moves c c' → Keeps a c')
include hi hkeeps

/-- What is to be repeated is a mapping of a DynaKube as it is, or is known to have none. -/
theorem retry_spares (name : Value) : Sends i (Spares i k a) (k.retry name) := by
  have hget : Sends i (Spares i k a) (Control.attempt (DynaKubes.get? name)) :=
    (Control.Within.attempt ((DynaKubes.get?_within name).mono fun r ⟨_, hr⟩ => by rw [hr]; rfl)).sends
  refine hget.bind fun b c tr found b' c' hrun => ?_
  obtain ⟨hrun, -⟩ := Control.runs_attempt.mp hrun
  cases found with
  | none =>
    refine Sends.then (unmap_spares fun hname => ?_) fun _ => .pure
    subst hname
    obtain ⟨reply, hm, -, hnone⟩ := DynaKubes.get?_runs hi hrun
    exact (hkeeps hm).stored.dynakubes_ne_none hnone
  | some d =>
    refine Sends.then (reconcile_spares fun hname => ?_) fun _ => .pure
    obtain ⟨text, rfl⟩ := DynaKubes.get?_runs_text hrun
    obtain ⟨reply, hm, -, hshows⟩ := DynaKubes.get?_runs hi hrun
    exact ((hkeeps hm).named.stored hshows).2.unique (hkeeps hm).stored hname

omit hi in
/-- A resync finds the DynaKube among those that it maps. -/
theorem resync_spares : Sends i (Spares i k a) k.resync := by
  refine (Control.Within.attempt DynaKubes.list_sparing).sends.bind fun b c tr found b' c' hrun => ?_
  obtain ⟨ds, version⟩ := found
  obtain ⟨c₀, listing, rest, hm, -, hsorts⟩ := DynaKubes.list_runs (Control.runs_attempt.mp hrun).1
  have hhere := hkeeps hm
  have hstored : ∀ d ∈ ds, c₀.Stored d := fun d hd => by
    obtain ⟨object, ⟨name, hname⟩, hvalid⟩ := hsorts.read d hd
    exact (hhere.named.stored ⟨object, hname, hvalid⟩).2
  have hlisted : a ∈ ds := by
    obtain ⟨object, hobject, hvalid⟩ := hhere.stored
    rcases hsorts.seen object ⟨_, hobject⟩ with ⟨d, hd, hread⟩ | ⟨e, hskip, -⟩
    · cases hvalid.symm.trans hread
      exact hd
    · cases hvalid.symm.trans hskip
  change Sends i (Spares i k a) (k.resyncListed ds version)
  refine fun b => (resyncListed_sends ds version b).mono fun mid x h => ?_
  rcases h with ⟨d, hd, hmapping⟩ | ⟨orphan, hunknown, hunmaps⟩
  · exact .inl ⟨d, (hstored d hd).unique hhere.stored, hmapping⟩
  · exact .inr ⟨orphan, fun heq => hunknown (List.mem_map.mpr ⟨a, hlisted, heq.symm⟩), hunmaps⟩

theorem drain_spares (now : Binary64) : Sends i (Spares i k a) (k.drain now) := by
  have hrepeat (name : Value) : Control.Composed (fun _ : Attempt Unit => False) (repeatLater name) :=
    composed_housekeeping.repeatLater name
  have hretries (names : List Value) : Sends i (Spares i k a) (k.retryAll names) :=
    sends_closed.retryAll (retry_spares hi hkeeps) (fun name => (hrepeat name).sends fun _ => False.elim) names
  exact sends_closed.drain hretries (resync_spares hkeeps) (planResync_sparing k).sends now

omit hi hkeeps

/-- A task of the controller's own accord, with a DynaKube as it is. -/
def Task.Routine (c : Cluster) : Task → Prop
  | .reconcile d => c.Stored d
  | .resync | .drain _ => True
  | .event _ _ | .unmap _ => False

theorem perform_spares {task : Task} (hi : i.Truthful) (hkeeps : ∀ {c c'}, i.moves c c' → Keeps a c')
    (ha : c.Stored a) (ht : task.Routine c) : Sends i (Spares i k a) (k.perform task) := by
  cases task with
  | reconcile d => exact Sends.then (reconcile_spares (Cluster.Stored.unique ht ha)) fun _ => .pure
  | resync => exact Sends.then (resync_spares hkeeps) fun _ => .pure
  | drain now => exact drain_spares hi hkeeps now
  | event type object => exact ht.elim
  | unmap name => exact ht.elim

/-- Those who keep aloof take no place away. -/
theorem rightful_of_moves (ha : i.Aloof)
    (hplain : ∀ parsed, LabelSelector.read (a.selectorFor f) = .ok parsed → parsed.Plain)
    (hm : i.moves c c') (h : k.mapper.Rightful a f space c) : k.mapper.Rightful a f space c' := by
  obtain ⟨s, hs, howner, hentitled⟩ := h
  obtain ⟨s', hs', hlabels⟩ := ha.labels hm hs
  exact ⟨s', hs', (Labels.owner?_congr (hlabels f.labelKey)).trans howner,
    hentitled.congr (fun key _ => (hlabels key).symm) hplain⟩

/-- No patch of a routine task takes a place away. -/
theorem patch_keeps {tasks : List Task} {p : Except Fault Unit × Books} (hi : i.Truthful)
    (hmoves : ∀ {c c'}, i.moves c c' → c.Steady c' ∧ Keeps a c') (hstored : c.Stored a)
    (hplain : ∀ parsed, LabelSelector.read (a.selectorFor f) = .ok parsed → parsed.Plain)
    (htasks : ∀ task ∈ tasks, task.Routine c) (h : Runs i ((k.performAll tasks).run.run b) c tr p c')
    (hx : x ∈ accepted tr) (hright : k.mapper.Rightful a f space x.before) :
    k.mapper.Rightful a f space x.after := by
  have hsends : Sends i (Spares i k a) (k.performAll tasks) := sends_closed.performAll fun task ht =>
    perform_spares hi (fun hm => (hmoves hm).2) hstored (htasks task ht)
  obtain ⟨mid, -, hmem, hspares⟩ := hsends b _ _ _ _ h x hx
  rcases hspares with ⟨d, hd, limit, c₁, v, c₂, hmapping⟩ | ⟨name, hname, todo, hdrops⟩
  · have hmid : x ∈ accepted mid := mem_accepted.mpr ⟨hmem, (mem_accepted.mp hx).2⟩
    exact Mapper.map_keeps hi (fun hm => ⟨(hmoves hm).1, (hmoves hm).2.stored⟩) hd hplain hmapping hmid hright
  · exact hright.dropped hplain hdrops hname

/-- Over any number of routine tasks among bystanders, whichever calls fail: an owner of a place that has a right to
it at some moment has it, and owns the place, at every later one. -/
theorem rightful_stays {tasks : List Task} {p : Except Fault Unit × Books} (hi : i.Truthful) (ha : i.Aloof)
    (hnamed : c.Named) (hstored : c.Stored a)
    (hplain : ∀ parsed, LabelSelector.read (a.selectorFor f) = .ok parsed → parsed.Plain)
    (htasks : ∀ task ∈ tasks, task.Routine c) (h : Runs i ((k.performAll tasks).run.run b) c tr p c') :
    (moments c tr c').Pairwise fun c₁ c₂ =>
      k.mapper.Rightful a f space c₁ → k.mapper.Rightful a f space c₂ := by
  have hsame : Runs (i.amid (·.dynakubes = c.dynakubes)) ((k.performAll tasks).run.run b) c tr p c' :=
    h.amid rfl (fun hm hc => (ha.dynakubes hm).trans hc) fun hanswer hc => hanswer.dynakubes.trans hc
  have hmoves : ∀ {c₁ c₂}, (i.amid (·.dynakubes = c.dynakubes)).moves c₁ c₂ → c₁.Steady c₂ ∧ Keeps a c₂ := by
    rintro c₁ c₂ ⟨hm, hc⟩
    refine ⟨⟨ha.dynakubes hm, fun hs => ?_⟩, fun name object d hobject => ?_, hstored.congr hc⟩
    · obtain ⟨s', hs', hlabels⟩ := ha.labels hm hs
      exact ⟨s', hs', fun key _ => hlabels key⟩
    · exact hnamed name object d (hc ▸ hobject)
  exact h.pairwise (fun _ => id) (fun h h' => h' ∘ h) (rightful_of_moves ha hplain) fun x hx =>
    patch_keeps (i := i.amid (·.dynakubes = c.dynakubes)) hi hmoves hstored hplain htasks hsame hx

section Contested

private def held : Space := ⟨Ledger.claimed "a" [.codeModules] .empty, .empty, "1"⟩

/-- Two DynaKubes want the same namespace, and one of them owns it. -/
private def contested : Cluster :=
  ((Cluster.blank.put "n" held).setDynaKube "a" (some (Mapper.everywhereObject "a"))).setDynaKube "b"
    (some (Mapper.everywhereObject "b"))

private theorem contested_named : contested.Named := by
  intro name object d hobject hread
  have hnames : name = "a" ∧ object = Mapper.everywhereObject "a" ∨
      name = "b" ∧ object = Mapper.everywhereObject "b" := by
    by_cases hb : name = "b"
    · subst hb
      exact .inr ⟨rfl, (Option.some.inj hobject).symm⟩
    · by_cases ha : name = "a"
      · subst ha
        exact .inl ⟨rfl, (Option.some.inj hobject).symm⟩
      · have hnone : contested.dynakubes name = none :=
          (Function.update_of_ne hb _ _).trans (Function.update_of_ne ha _ _)
        rw [hnone] at hobject
        cases hobject
  rcases hnames with ⟨rfl, rfl⟩ | ⟨rfl, rfl⟩
  all_goals
    cases hread.symm.trans (Mapper.ofObject_everywhere (by decide))
    rfl

private theorem contested_stored {name : String} (h : name = "a" ∨ name = "b") :
    contested.Stored (Mapper.everywhere name) := by
  rcases h with rfl | rfl
  · exact ⟨_, rfl, Mapper.ofObject_everywhere (by decide)⟩
  · exact ⟨_, rfl, Mapper.ofObject_everywhere (by decide)⟩

/-- The rival is mapped first, and then there are a resync and a repetition; the owner still has its place. -/
theorem rightful_stays_contested : ∃ (k : Controller) (c c' : Cluster) (tr : List Event)
    (p : Except Fault Unit × Books), c.owner? "n" .codeModules = some "a" ∧
      Runs .calm ((k.performAll [.reconcile (Mapper.everywhere "b"), .resync, .drain (.ofInt 0)]).run.run {}) c tr p c' ∧
      c'.owner? "n" .codeModules = some "a" := by
  let k : Controller := ⟨⟨⟨2, by decide⟩, "operator"⟩, 30, 300⟩
  let tasks : List Task := [.reconcile (Mapper.everywhere "b"), .resync, .drain (.ofInt 0)]
  have hfinite : contested.Finite := ((Cluster.blank_finite.put _ _).setDynaKube _ _).setDynaKube _ _
  obtain ⟨tr, p, c', hrun, -, -⟩ := Session.exists_calm_run hfinite 0 ((k.performAll tasks).run.run {})
  have hcalm : Interference.calm.Truthful := fun _ _ _ h _ => h.1 _ rfl
  have haloof : Interference.calm.Aloof := ⟨fun h => h ▸ rfl, fun h hs => ⟨_, h ▸ hs, fun _ => rfl⟩⟩
  have htasks : ∀ task ∈ tasks, task.Routine contested := by
    simp only [tasks, List.forall_mem_cons]
    exact ⟨contested_stored (.inr rfl), trivial, trivial, by simp⟩
  have hright : k.mapper.Rightful (Mapper.everywhere "a") .codeModules "n" contested :=
    ⟨held, rfl, rfl, .inl (Mapper.wants_everywhere (by decide) _)⟩
  have hstays : (moments contested tr c').Pairwise fun c₁ c₂ =>
      k.mapper.Rightful (Mapper.everywhere "a") .codeModules "n" c₁ →
        k.mapper.Rightful (Mapper.everywhere "a") .codeModules "n" c₂ :=
    rightful_stays hcalm haloof contested_named (contested_stored (.inl rfl))
      (fun _ => Mapper.everywhere_plain) htasks hrun
  have hlast : c' ∈ tr.flatMap Event.clusters ++ [c'] := List.mem_append_right _ (List.mem_singleton_self _)
  obtain ⟨s, hs, howner, -⟩ := List.rel_of_pairwise_cons hstays hlast hright
  exact ⟨k, contested, c', tr, p, rfl, hrun, (Cluster.owner?_eq hs _).trans howner⟩

end Contested

end Controller
end NamespaceOwnership
