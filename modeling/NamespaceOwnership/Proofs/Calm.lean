import Mathlib.Data.Set.Finite.Basic
import Mathlib.Data.Set.Finite.Lattice
import NamespaceOwnership.Proofs.Race

/-!
# Runs in the calm

Where nobody else is there, a cluster with finitely many objects can answer every request, so that a session
can be played to its end (`Session.exists_calm_run`), and so can a race (`Race.exists_finished`).
-/
namespace NamespaceOwnership

open Session (Runs)

def Space.object (name : String) (s : Space) : Option NamespaceObject :=
  some ⟨some name, some s.labels, some s.annotations, some s.version⟩

@[simp] theorem Space.ofObject_object (name : String) (s : Space) :
    NamespaceRecord.ofObject (s.object name) = s.record name := rfl

namespace Cluster

/-- There are finitely many objects, and finitely many versions were given out. -/
structure Finite (c : Cluster) : Prop where
  spaces : {name | c.spaces name ≠ none}.Finite
  dynakubes : {name | c.dynakubes name ≠ none}.Finite
  issued : c.issued.Finite

theorem blank_finite : blank.Finite where
  spaces := by simp [blank]
  dynakubes := by simp [blank]
  issued := by simp [blank]

theorem Finite.put {c : Cluster} (h : c.Finite) (name : String) (s : Space) : (c.put name s).Finite where
  spaces := by
    refine (h.spaces.insert name).subset fun other hother => ?_
    by_cases hn : other = name
    · exact .inl hn
    · exact .inr (by simpa [hn] using hother)
  dynakubes := h.dynakubes
  issued := h.issued.insert s.version

theorem Finite.setDynaKube {c : Cluster} (h : c.Finite) (name : String) (object : Option Value) :
    (c.setDynaKube name object).Finite where
  spaces := h.spaces
  dynakubes := by
    refine (h.dynakubes.insert name).subset fun other hother => ?_
    by_cases hn : other = name
    · exact .inl hn
    · exact .inr (by simpa [Cluster.setDynaKube, hn] using hother)
  issued := h.issued

private theorem exists_listed {α : Type} {held : String → Option α} (h : {name | held name ≠ none}.Finite) :
    ∃ names : List String, names.Nodup ∧ ∀ name, name ∈ names ↔ held name ≠ none :=
  ⟨h.toFinset.toList, h.toFinset.nodup_toList, by simp⟩

theorem Finite.exists_lists {c : Cluster} (h : c.Finite) : ∃ objects, c.Lists objects := by
  obtain ⟨names, hnodup, hnames⟩ := exists_listed h.spaces
  have hheld : ∀ name ∈ names, ∃ s, c.spaces name = some s := fun name hn =>
    Option.ne_none_iff_exists'.mp ((hnames name).mp hn)
  refine ⟨names.map fun name => (c.spaces name).bind (Space.object name), ?_, fun r => ?_⟩
  · rw [List.map_map, List.map_map, List.map_congr_left (g := id), List.map_id]
    · exact hnodup
    · intro name hn
      obtain ⟨s, hs⟩ := hheld name hn
      simp [hs]
  · simp only [List.map_map, List.mem_map, Function.comp_apply]
    constructor
    · rintro ⟨name, hn, rfl⟩
      obtain ⟨s, hs⟩ := hheld name hn
      exact ⟨s, by simp [hs], by simp [hs]⟩
    · rintro ⟨s, hs, hr⟩
      exact ⟨r.name, (hnames r.name).mpr (by simp [hs]), by simpa [hs] using hr.symm⟩

theorem Finite.exists_listsDynaKubes {c : Cluster} (h : c.Finite) :
    ∃ response, c.ListsDynaKubes response := by
  obtain ⟨names, hnodup, hnames⟩ := exists_listed h.dynakubes
  exact ⟨.fields [("items", .list (names.filterMap c.dynakubes))], _, names, rfl, hnodup, hnames, rfl⟩

/-- Some version was never given out. -/
theorem Finite.exists_fresh {c : Cluster} (h : c.Finite) : ∃ version, version ∉ c.issued :=
  h.issued.infinite_compl.nonempty

end Cluster

/-- In the calm a finite cluster can answer every call. -/
theorem Interference.calm_replies {c : Cluster} (h : c.Finite) (call : ApiCall) :
    ∃ reply c', c.Replies calm.fails call reply c' ∧ c'.Finite := by
  cases call with
  | readNamespace name =>
    cases hs : c.spaces name with
    | none => exact ⟨.error (.refused (some 404) none), c, ⟨⟨hs, rfl⟩, rfl⟩, h⟩
    | some s => exact ⟨.ok (s.object name), c, ⟨rfl, s, hs, rfl⟩, h⟩
  | listNamespaces selector =>
    obtain ⟨objects, hlists⟩ := h.exists_lists
    exact ⟨.ok objects, c, ⟨rfl, hlists⟩, h⟩
  | patchNamespace name patch =>
    cases hs : c.spaces name with
    | none => exact ⟨.error (.refused (some 404) none), c, ⟨.inl ⟨hs, rfl⟩, rfl⟩, h⟩
    | some s =>
      by_cases hpin : ∀ pin ∈ patch.pinned, pin = s.version
      · obtain ⟨version, hfresh⟩ := h.exists_fresh
        exact ⟨.ok none, _, ⟨s, version, hs, hpin, hfresh, rfl⟩, h.put _ _⟩
      · push Not at hpin
        obtain ⟨pin, hpinned, hne⟩ := hpin
        exact ⟨.error (.refused (some 409) none), c, ⟨.inr ⟨s, pin, hs, hpinned, hne, rfl⟩, rfl⟩, h⟩
  | getDynaKube name =>
    by_cases hd : ∃ text object, name = .text text ∧ c.dynakubes text = some object
    · obtain ⟨text, object, rfl, hobject⟩ := hd
      exact ⟨.ok object, c, ⟨rfl, text, rfl, hobject⟩, h⟩
    · refine ⟨.error (.refused (some 404) none), c, ⟨⟨fun text htext => ?_, rfl⟩, rfl⟩, h⟩
      by_contra hsome
      obtain ⟨object, hobject⟩ := Option.ne_none_iff_exists'.mp hsome
      exact hd ⟨text, object, htext, hobject⟩
  | listDynaKubes =>
    obtain ⟨response, hlists⟩ := h.exists_listsDynaKubes
    exact ⟨.ok response, c, ⟨rfl, hlists⟩, h⟩
  | patchStatus name report => exact ⟨.ok (), c, rfl, h⟩
  | openWatch version timeout => exact ⟨.ok (), c, rfl, h⟩
  | readLease lease => exact ⟨.ok default, c, rfl, h⟩
  | createLease lease spec => exact ⟨.ok (), c, rfl, h⟩
  | replaceLease lease spec version => exact ⟨.ok (), c, rfl, h⟩

/-- What a reading of the clock returned. -/
def Exchange.time? : Exchange → Option Int
  | ⟨_, .clock, time, _⟩ => some time
  | _ => none

/-- The clock may stand still. -/
theorem Interference.calm_answers {c : Cluster} (h : c.Finite) (now : Int) (request : Request) :
    ∃ answer c', calm.Answers c request answer c' ∧ c'.Finite ∧
      ∀ time ∈ (⟨c, request, answer, c'⟩ : Exchange).time?, time = now := by
  cases request with
  | api call =>
    obtain ⟨reply, c', hreply, hc'⟩ := calm_replies h call
    exact ⟨reply, c', hreply, hc', by simp [Exchange.time?]⟩
  | clock => exact ⟨now, c, ⟨trivial, rfl⟩, h, by simp [Exchange.time?]⟩
  | nextEvent => exact ⟨.ended, c, ⟨trivial, rfl⟩, h, by simp [Exchange.time?]⟩
  | closeWatch => exact ⟨(), c, ⟨trivial, rfl⟩, h, by simp [Exchange.time?]⟩
  | wallTime => exact ⟨.ok 0, c, ⟨trivial, rfl⟩, h, by simp [Exchange.time?]⟩
  | pause milliseconds => exact ⟨(), c, ⟨trivial, rfl⟩, h, by simp [Exchange.time?]⟩
  | jitter => exact ⟨(0 : Int), c, ⟨trivial, rfl⟩, h, by simp [Exchange.time?]⟩
  | stopRequested => exact ⟨false, c, ⟨trivial, rfl⟩, h, by simp [Exchange.time?]⟩
  | withdrawStop => exact ⟨(), c, ⟨trivial, rfl⟩, h, by simp [Exchange.time?]⟩
  | startedLeading => exact ⟨(), c, ⟨trivial, rfl⟩, h, by simp [Exchange.time?]⟩
  | stoppedLeading => exact ⟨(), c, ⟨trivial, rfl⟩, h, by simp [Exchange.time?]⟩

theorem Session.exists_calm_run {α : Type} {c : Cluster} (h : c.Finite) (now : Int) (s : Session α) :
    ∃ tr a c', Runs .calm s c tr a c' ∧ c'.Finite ∧
      ∀ x, .asked x ∈ tr → ∀ time ∈ x.time?, time = now :=
  Session.exists_runs _ (fun _ => rfl) (fun _ request hc => Interference.calm_answers hc now request) s h

/-- Where nobody else is there, the DynaKubes stay as they are. -/
theorem Session.Runs.dynakubes_eq {α : Type} {s : Session α} {c c' : Cluster} {tr : List Event} {a : α}
    (h : Runs .calm s c tr a c') : c'.dynakubes = c.dynakubes := by
  induction h with
  | done => rfl
  | tell _ ih => exact ih
  | ask moved answered _ ih =>
    obtain rfl : _ = _ := moved
    exact ih.trans answered.dynakubes

/-- Where nobody else is there, what holds before a run and not after it was changed by a patch. -/
theorem Session.Runs.exists_change {α : Type} {s : Session α} {c c' : Cluster} {tr : List Event} {a : α}
    (P : Cluster → Prop) (h : Runs .calm s c tr a c') (hP : P c) (hnot : ¬P c') :
    ∃ x ∈ accepted tr, P x.before ∧ ¬P x.after := by
  induction h with
  | done => exact absurd hP hnot
  | tell _ ih =>
    obtain ⟨x, hx, hchange⟩ := ih hP hnot
    exact ⟨x, by simpa using hx, hchange⟩
  | @ask request next c c₁ c₂ c' answer tr a moved answered rest ih =>
    obtain rfl : c = c₁ := moved
    by_cases hafter : P c₂
    · obtain ⟨x, hx, hchange⟩ := ih hafter hnot
      obtain ⟨hmem, hsome⟩ := mem_accepted.mp hx
      exact ⟨x, mem_accepted.mpr ⟨List.mem_cons_of_mem _ hmem, hsome⟩, hchange⟩
    · refine ⟨_, mem_accepted.mpr ⟨List.mem_cons_self, ?_⟩, hP, hafter⟩
      by_contra hnone
      exact hafter (answered.eq_of_not_patched (Option.not_isSome_iff_eq_none.mp hnone) ▸ hP)

namespace Race

variable {α β : Type}

/-- In the calm one party may go first. -/
theorem steps_of_runs {s : Session α} {c c' : Cluster} {tr : List Event} {a : α} (h : Runs .calm s c tr a c')
    (right : Session β) : Steps .calm ⟨s, right, c⟩ ⟨.done a, right, c'⟩ := by
  induction h with
  | done => exact .refl
  | tell _ ih => exact .head (.left (.tell _ _ _)) ih
  | ask moved answered _ ih =>
    obtain rfl : _ = _ := moved
    exact .head (.left (.ask answered)) ih

theorem Steps.swap {i : Interference} {r r' : Race α β} (h : Steps i r r') : Steps i r.swap r'.swap := by
  obtain ⟨tr₁, tr₂, ht⟩ := h.traced
  exact ht.swap.steps

/-- A race in the calm can be run to its end. -/
theorem exists_finished {c : Cluster} (h : c.Finite) (s : Session α) (t : Session β) :
    ∃ a b c', Steps .calm ⟨s, t, c⟩ ⟨.done a, .done b, c'⟩ := by
  obtain ⟨tr₁, a, c₁, hs, hc₁, -⟩ := s.exists_calm_run h 0
  obtain ⟨tr₂, b, c₂, ht, -, -⟩ := t.exists_calm_run hc₁ 0
  exact ⟨a, b, c₂, (steps_of_runs hs t).trans (steps_of_runs ht (.done a)).swap⟩

end Race

end NamespaceOwnership
