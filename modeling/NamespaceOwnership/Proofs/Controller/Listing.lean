import NamespaceOwnership.Proofs.Controller.Bookkeeping
import NamespaceOwnership.Proofs.Course

/-!
# What a listing of DynaKubes shows

A listing goes through its objects one after another, until one cannot be read for another reason than an invalid
value. If it returns, it has seen every object that there is. Those that can be read are its DynaKubes; any other
one was skipped because of an invalid value.
-/
namespace NamespaceOwnership

open Session (Course Runs)

variable {i : Interference} {c c' : Cluster} {tr : List Event}

/-- The object has this name, whether it can be read as a DynaKube or not. -/
def Value.IsNamed (object : Value) (name : String) : Prop :=
  ∃ entries metadata, object = .fields entries ∧ Value.entry entries "metadata" = .fields metadata ∧
    (Value.entry metadata "name").truthy = true ∧ (Value.entry metadata "name").shown = name

/-- The object cannot be read because of an invalid value, so that a listing skips it. -/
def Value.Skipped (object : Value) : Prop :=
  ∃ e, DynaKube.ofObject object = .error e ∧ e.isInvalidValue = true

/-- The object is refused, but not because of an invalid value. -/
def Value.Unskippable (object : Value) : Prop :=
  ∃ e, DynaKube.ofObject object = .error e ∧ e.isInvalidValue = false

/-- An object that can be read keeps its name. -/
theorem DynaKube.name_of_isNamed {object : Value} {name : String} {d : DynaKube} (hn : object.IsNamed name)
    (h : ofObject object = .ok d) : d.name = name := by
  obtain ⟨entries, metadata, rfl, hmetadata, htruthy, rfl⟩ := hn
  obtain ⟨entries', metadata', hentries, hmetadata', -, hname⟩ := exists_named h
  cases hentries
  have hsome : (Value.fields metadata).truthy = true := by
    cases metadata with
    | nil => cases htruthy
    | cons => rfl
  rw [hmetadata, Value.orEmpty, if_pos hsome] at hmetadata'
  cases hmetadata'
  exact hname

namespace DynaKubes

/-- What a listing makes of an object that it does not end with. -/
def accepted (object : Value) : Option DynaKube := (DynaKube.ofObject object).toOption

theorem accepted_eq_some_iff {object : Value} {d : DynaKube} :
    accepted object = some d ↔ DynaKube.ofObject object = .ok d := by
  unfold accepted
  cases DynaKube.ofObject object <;> simp [Except.toOption]

/-- All objects that can be read are found, unless there is one that cannot be skipped; the first such one is what the
listing ends with. -/
def Sifts (objects : List Value) (r : Except Fault (List DynaKube)) : Prop :=
  (∀ object ∈ objects, ¬object.Unskippable) ∧ r = .ok (objects.filterMap accepted) ∨
    ∃ before object after e, objects = before ++ object :: after ∧ (∀ earlier ∈ before, ¬earlier.Unskippable) ∧
      DynaKube.ofObject object = .error e ∧ e.isInvalidValue = false ∧ r = .error (.object e)

theorem Sifts.cons {object : Value} {rest : List Value} {r : Except Fault (List DynaKube)}
    (hobject : ¬object.Unskippable) (h : Sifts rest r) :
    Sifts (object :: rest) (r.map ((accepted object).toList ++ ·)) := by
  rcases h with ⟨hall, rfl⟩ | ⟨before, stuck, after, e, rfl, hbefore, hstuck, hkind, rfl⟩
  · refine .inl ⟨List.forall_mem_cons.mpr ⟨hobject, hall⟩, ?_⟩
    cases h : accepted object <;> simp [Except.map, h]
  · exact .inr ⟨object :: before, stuck, after, e, rfl, List.forall_mem_cons.mpr ⟨hobject, hbefore⟩, hstuck, hkind, rfl⟩

theorem readAll_course {objects : List Value} {acts : List Act} {r : Except Fault (List DynaKube)}
    (h : Course (readAll objects).run acts r) : Sifts objects r := by
  induction objects generalizing acts r with
  | nil =>
    obtain ⟨-, rfl⟩ := Attempt.course_pure.mp h
    exact .inl ⟨by simp, rfl⟩
  | cons object rest ih =>
    rw [readAll] at h
    cases hobject : DynaKube.ofObject object with
    | ok d =>
      have hread : ¬object.Unskippable := by
        rintro ⟨e, he, -⟩
        cases hobject.symm.trans he
      have haccepted : accepted object = some d := accepted_eq_some_iff.mpr hobject
      simp only [hobject] at h
      rcases Attempt.course_bind.mp h with ⟨fault, rfl, hrest⟩ | ⟨_, others, _, -, hrest, hend⟩
      · simpa [haccepted, Except.map] using (ih hrest).cons hread
      · obtain ⟨-, rfl⟩ := Attempt.course_pure.mp hend
        simpa [haccepted, Except.map] using (ih hrest).cons hread
    | error e =>
      simp only [hobject] at h
      by_cases hskip : e.isInvalidValue = true
      · have hskipped : ¬object.Unskippable := by
          rintro ⟨e', he', hkind⟩
          cases hobject.symm.trans he'
          cases hskip.symm.trans hkind
        have haccepted : accepted object = none := by simp [accepted, hobject, Except.toOption]
        rw [if_pos hskip] at h
        obtain ⟨_, _, _, -, -, hrest⟩ := Attempt.course_lift_bind.mp h
        cases r <;> simpa [haccepted, Except.map] using (ih hrest).cons hskipped
      · rw [if_neg hskip] at h
        obtain ⟨-, rfl⟩ := Attempt.course_throw.mp h
        exact .inr ⟨[], object, rest, e, rfl, by simp, hobject, by simpa using hskip, rfl⟩

/-- Each object is read or skipped. -/
def Sorts (objects : List Value) (ds : List DynaKube) : Prop :=
  (∀ object ∈ objects, (∃ d ∈ ds, DynaKube.ofObject object = .ok d) ∨ object.Skipped) ∧
    ∀ d ∈ ds, ∃ object ∈ objects, DynaKube.ofObject object = .ok d

theorem readAll_runs {objects : List Value} {ds : List DynaKube}
    (h : Runs i (readAll objects).run c tr (.ok ds) c') : Sorts objects ds := by
  rcases readAll_course h.course with ⟨hall, hds⟩ | ⟨_, _, _, _, -, -, -, -, hr⟩
  · cases hds
    refine ⟨fun object hobject => ?_, fun d hd => ?_⟩
    · cases hread : DynaKube.ofObject object with
      | ok d => exact .inl ⟨d, List.mem_filterMap.mpr ⟨object, hobject, accepted_eq_some_iff.mpr hread⟩, rfl⟩
      | error e => exact .inr ⟨e, hread, by simpa using fun hkind => hall object hobject ⟨e, hread, hkind⟩⟩
    · obtain ⟨object, hobject, haccepted⟩ := List.mem_filterMap.mp hd
      exact ⟨object, hobject, accepted_eq_some_iff.mp haccepted⟩
  · cases hr

end DynaKubes

/-- The object is that of a DynaKube. -/
def Cluster.Holds (c : Cluster) (object : Value) : Prop := ∃ name, c.dynakubes name = some object

/-- What a list of DynaKubes makes of all objects. -/
structure Cluster.Sorts (c : Cluster) (ds : List DynaKube) : Prop where
  seen : ∀ object, c.Holds object → (∃ d ∈ ds, DynaKube.ofObject object = .ok d) ∨ object.Skipped
  read : ∀ d ∈ ds, ∃ object, c.Holds object ∧ DynaKube.ofObject object = .ok d

namespace DynaKubes

/-- A listing that returns starts with the call, and sorts what is there at that moment. -/
theorem list_runs {ds : List DynaKube} {version : Value} (h : Runs i list.run c tr (.ok (ds, version)) c') :
    ∃ c₁ listing rest, i.moves c c₁ ∧ tr = .asked (.call c₁ .listDynaKubes (.ok listing) c₁) :: rest ∧
      c₁.Sorts ds := by
  rcases Attempt.runs_bind.mp h with ⟨fault, hf, -⟩ | ⟨tr₁, response, c₁, tr₂, rfl, hcall, hrun⟩
  · cases hf
  obtain ⟨c₂, reply, hm, hreply, rfl, hr⟩ := Attempt.runs_call.mp hcall
  cases reply with
  | error failure => cases hr
  | ok listed =>
    cases hr
    obtain ⟨rfl, entries, names, rfl, -, hnames, hitems⟩ := hreply
    refine ⟨c₁, _, _, hm, rfl, ?_⟩
    have hfields : fieldsOf (.fields entries) = pure entries := rfl
    simp only [hfields, pure_bind, hitems, itemsOf] at hrun
    rcases Attempt.runs_bind.mp hrun with ⟨fault, hf, -⟩ | ⟨tr₃, found, c₃, tr₄, rfl, hread, hrest⟩
    · cases hf
    obtain ⟨hseen, hfound⟩ := readAll_runs hread
    rcases Attempt.runs_bind.mp hrest with ⟨fault, hf, -⟩ | ⟨tr₅, metadata, c₄, tr₆, rfl, -, hend⟩
    · cases hf
    obtain ⟨-, hresult, -⟩ := Attempt.runs_pure.mp hend
    cases hresult
    refine ⟨fun object hobject => ?_, fun d hd => ?_⟩
    · obtain ⟨name, hname⟩ := hobject
      have hmem : object ∈ names.filterMap c₁.dynakubes :=
        List.mem_filterMap.mpr ⟨name, (hnames name).mpr (by simp [hname]), hname⟩
      exact (hseen object hmem).imp_left fun ⟨d, hd, h⟩ => ⟨d, List.mem_mergeSort.mpr hd, h⟩
    · obtain ⟨object, hobject, h⟩ := hfound d (List.mem_mergeSort.mp hd)
      obtain ⟨name, -, hname⟩ := List.mem_filterMap.mp hobject
      exact ⟨object, ⟨name, hname⟩, h⟩

end DynaKubes
end NamespaceOwnership
