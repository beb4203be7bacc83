import NamespaceOwnership.Proofs.Ascending
import NamespaceOwnership.Proofs.Controller.Listing
import NamespaceOwnership.Proofs.Reading

/-!
# Objects that a listing cannot skip

A listing skips an object that is refused because of an invalid value. An object can also be refused because its
metadata or its specification is of a kind that has no fields, or its generation of one that is no number at all
(`DynaKube.Misfit`). Such an object is not skipped: the first one ends the listing, and none of the others is found.
Without one, a listing finds exactly the objects that can be read.
-/
namespace NamespaceOwnership

open LabelSelector (bind_eq_error_iff)
open Session (Course)

/-- Neither empty nor a mapping, so that it has no fields. -/
def Value.Shapeless (v : Value) : Prop := v.truthy = true ∧ v.entries? = none

/-- No integer can be made of a value of this kind, or of infinity. -/
def Value.Uncountable : Value → Prop
  | .list _ | .fields _ | .float (.infinite _) => True
  | _ => False

/-- Neither a truth value nor a text, so that it is no flag. -/
def Value.FlagsNothing : Value → Prop
  | .bool _ | .text _ => False
  | _ => True

namespace DynaKube

variable {specification metadata entries : List (String × Value)} {e : ObjectError} {v : Value}

/-- One of the features has a section whose flag is none. -/
def Misflagged (specification : List (String × Value)) (features : List Feature) : Prop :=
  ∃ f ∈ features, ∃ part, Value.entry specification f.name = .fields part ∧
    ((part.lookup "enabled").getD (.bool true)).FlagsNothing

/-- The first part of the object that cannot be read is of a kind that is never expected there. -/
inductive Misfit (entries : List (String × Value)) : Prop
  | metadata (h : (Value.entry entries "metadata").Shapeless)
  | specification {metadata : List (String × Value)}
      (hmetadata : fieldsOf (Value.entry entries "metadata").orEmpty = .ok metadata)
      (hname : (Value.entry metadata "name").truthy = true) (h : (Value.entry entries "spec").Shapeless)
  | generation {metadata specification : List (String × Value)}
      (hmetadata : fieldsOf (Value.entry entries "metadata").orEmpty = .ok metadata)
      (hname : (Value.entry metadata "name").truthy = true)
      (hspecification : fieldsOf (Value.entry entries "spec").orEmpty = .ok specification)
      (hflags : ¬Misflagged specification Feature.all) (h : (Value.entry metadata "generation").Uncountable)

theorem fieldsOf_orEmpty_error_iff : fieldsOf v.orEmpty = .error e ↔ v.Shapeless ∧ e = .noFields v.kindName := by
  unfold Value.Shapeless Value.orEmpty
  cases htruthy : v.truthy
  · simp [fieldsOf]
  · cases v <;> simp [fieldsOf, Value.entries?, eq_comm]

theorem readEnabled_error_iff {f : Feature} :
    readEnabled f v = .error e ↔ v.FlagsNothing ∧ e = .flagNotBoolean f v := by
  cases v <;> simp [readEnabled, Value.FlagsNothing, @eq_comm _ e]

theorem readSection_error_iff {f : Feature} : readSection f v = .error e ↔
    ∃ part, v = .fields part ∧ ((part.lookup "enabled").getD (.bool true)).FlagsNothing ∧
      e = .flagNotBoolean f ((part.lookup "enabled").getD (.bool true)) := by
  cases v with
  | fields part =>
    simp only [readSection, bind_eq_error_iff, readEnabled_error_iff, Value.fields.injEq, exists_eq_left']
    exact or_iff_left nofun
  | bool b => cases b <;> simp [readSection]
  | _ => simp [readSection]

theorem readFeatures_error_iff {features : List Feature} :
    (∃ e, readFeatures specification features = .error e) ↔ Misflagged specification features := by
  induction features with
  | nil => simp [readFeatures, Misflagged]
  | cons f rest ih =>
    constructor
    · rintro ⟨e, h⟩
      rcases bind_eq_error_iff.mp h with hpart | ⟨own, -, h⟩
      · obtain ⟨part, hpart, hflag, -⟩ := readSection_error_iff.mp hpart
        exact ⟨f, List.mem_cons_self, part, hpart, hflag⟩
      · rcases bind_eq_error_iff.mp h with hothers | ⟨others, -, h⟩
        · obtain ⟨g, hg, hpart⟩ := ih.mp ⟨e, hothers⟩
          exact ⟨g, List.mem_cons_of_mem f hg, hpart⟩
        · cases h
    · rintro ⟨g, hg, part, hpart, hflag⟩
      cases hsection : readSection f (Value.entry specification f.name) with
      | error e => exact ⟨e, bind_eq_error_iff.mpr (.inl hsection)⟩
      | ok own =>
        rcases List.mem_cons.mp hg with rfl | hg
        · cases hsection.symm.trans (readSection_error_iff.mpr ⟨part, hpart, hflag, rfl⟩)
        · obtain ⟨e, he⟩ := ih.mpr ⟨g, hg, part, hpart, hflag⟩
          exact ⟨e, bind_eq_error_iff.mpr (.inr ⟨own, hsection, bind_eq_error_iff.mpr (.inl he)⟩)⟩

theorem readFeatures_error {features : List Feature} (h : readFeatures specification features = .error e) :
    e.isInvalidValue = true := by
  induction features with
  | nil => cases h
  | cons f rest ih =>
    rcases bind_eq_error_iff.mp h with hpart | ⟨part, -, h⟩
    · obtain ⟨_, -, -, rfl⟩ := readSection_error_iff.mp hpart
      rfl
    · rcases bind_eq_error_iff.mp h with hothers | ⟨others, -, h⟩
      · exact ih hothers
      · cases h

theorem readGeneration_error_iff : (∃ e, readGeneration v = .error e ∧ e.isInvalidValue = false) ↔ v.Uncountable := by
  cases v with
  | float x =>
    cases x <;> simp [readGeneration, Value.Uncountable, Number.Binary64.truncate?, ObjectError.isInvalidValue]
  | text s => cases h : Number.readInteger s <;> simp [readGeneration, h, Value.Uncountable, ObjectError.isInvalidValue]
  | _ => simp [readGeneration, Value.Uncountable, ObjectError.isInvalidValue]

theorem ofObject_of_metadata (hmetadata : fieldsOf (Value.entry entries "metadata").orEmpty = .ok metadata) :
    ofObject (.fields entries) =
      if (Value.entry metadata "name").truthy then do
        let specification ← fieldsOf (Value.entry entries "spec").orEmpty
        let features ← readFeatures specification Feature.all
        let generation ← readGeneration (Value.entry metadata "generation")
        return ⟨(Value.entry metadata "name").shown, Value.entry specification "namespaceSelector", features,
          generation⟩
      else .error .nameless := by
  change fieldsOf (Value.entry entries "metadata").orEmpty >>= _ = _
  rw [hmetadata]
  change (if !(Value.entry metadata "name").truthy then _ else _) = _
  cases (Value.entry metadata "name").truthy <;> rfl

theorem unskippable_iff_misfit : (Value.fields entries).Unskippable ↔ Misfit entries := by
  constructor
  · rintro ⟨e, h, hkind⟩
    cases hmetadata : fieldsOf (Value.entry entries "metadata").orEmpty with
    | error e' => exact .metadata (fieldsOf_orEmpty_error_iff.mp hmetadata).1
    | ok metadata =>
      rw [ofObject_of_metadata hmetadata] at h
      split at h
      · rename_i hname
        rcases bind_eq_error_iff.mp h with hspecification | ⟨specification, hspecification, h⟩
        · exact .specification hmetadata hname (fieldsOf_orEmpty_error_iff.mp hspecification).1
        rcases bind_eq_error_iff.mp h with hfeatures | ⟨features, hfeatures, h⟩
        · simp [readFeatures_error hfeatures] at hkind
        rcases bind_eq_error_iff.mp h with hgeneration | ⟨generation, -, h⟩
        · have hflags : ¬Misflagged specification Feature.all := fun hbad => by
            obtain ⟨e', he'⟩ := readFeatures_error_iff.mpr hbad
            cases hfeatures.symm.trans he'
          exact .generation hmetadata hname hspecification hflags (readGeneration_error_iff.mp ⟨e, hgeneration, hkind⟩)
        · cases h
      · cases h
        cases hkind
  · rintro (hshape | ⟨hmetadata, hname, hshape⟩ | ⟨hmetadata, hname, hspecification, hflags, hcount⟩)
    · have hmetadata := fieldsOf_orEmpty_error_iff.mpr ⟨hshape, rfl⟩
      exact ⟨_, bind_eq_error_iff.mpr (.inr ⟨entries, rfl, bind_eq_error_iff.mpr (.inl hmetadata)⟩), rfl⟩
    · rw [Value.Unskippable, ofObject_of_metadata hmetadata, if_pos hname]
      exact ⟨_, bind_eq_error_iff.mpr (.inl (fieldsOf_orEmpty_error_iff.mpr ⟨hshape, rfl⟩)), rfl⟩
    · rw [Value.Unskippable, ofObject_of_metadata hmetadata, if_pos hname, hspecification]
      obtain ⟨e, hgeneration, hkind⟩ := readGeneration_error_iff.mpr hcount
      cases hfeatures : readFeatures _ Feature.all with
      | error e' => exact absurd (readFeatures_error_iff.mp ⟨e', hfeatures⟩) hflags
      | ok features =>
        refine ⟨e, bind_eq_error_iff.mpr (.inr ⟨_, rfl, ?_⟩), hkind⟩
        exact bind_eq_error_iff.mpr (.inr ⟨features, hfeatures, bind_eq_error_iff.mpr (.inl hgeneration)⟩)

end DynaKube

namespace DynaKubes

variable {acts : List Act} {response : List (String × Value)} {objects : List (List (String × Value))}
  {r : Except Fault (List DynaKube × Value)}

/-- The items of a response are these objects, or missing if there are none. -/
def Holds (response : List (String × Value)) (objects : List (List (String × Value))) : Prop :=
  Value.entry response "items" = .list (objects.map .fields) ∨
    (Value.entry response "items").truthy = false ∧ objects = []

theorem Holds.items (h : Holds response objects) :
    itemsOf (Value.entry response "items") = pure (objects.map .fields) := by
  rcases h with h | ⟨hempty, rfl⟩
  · rw [h, itemsOf]
  · revert hempty
    generalize Value.entry response "items" = items
    cases items <;> simp +contextual [itemsOf, Value.truthy]

/-- Whatever a listing is answered, it has a course. -/
theorem exists_list_course (answer : Value) :
    ∃ acts r, Course list.run (.asked (.api .listDynaKubes) (.ok answer) :: acts) r :=
  ⟨_, _, .ask (Session.course_answeredBy Session.refusing _)⟩

/-- After the call a listing goes through the items, and then it looks for the version of the response. -/
theorem list_course (hitems : Holds response objects)
    (h : Course list.run (.asked (.api .listDynaKubes) (.ok (.fields response)) :: acts) r) :
    ∃ found, Sifts (objects.map .fields) found ∧ r = do
      let ds ← found
      let metadata ← (DynaKube.fieldsOf (Value.entry response "metadata").orEmpty).mapError .object
      return (ds.mergeSort (fun a b => decide (a.name ≤ b.name)), Value.entry metadata "resourceVersion") := by
  have hfields : fieldsOf (.fields response) = pure response := rfl
  rcases Attempt.course_bind.mp h with ⟨fault, rfl, hcall⟩ | ⟨_, answer, rest, hacts, hcall, hrest⟩
  · obtain ⟨reply, hacts, hr⟩ := Attempt.course_call.mp hcall
    cases hacts
    cases hr
  obtain ⟨reply, rfl, hr⟩ := Attempt.course_call.mp hcall
  cases hacts
  cases hr
  simp only [hfields, hitems.items, pure_bind] at hrest
  rcases Attempt.course_bind.mp hrest with ⟨fault, rfl, hread⟩ | ⟨_, ds, _, -, hread, hend⟩
  · exact ⟨.error fault, readAll_course hread, rfl⟩
  · refine ⟨.ok ds, readAll_course hread, ?_⟩
    unfold fieldsOf at hend
    cases hmetadata : DynaKube.fieldsOf (Value.entry response "metadata").orEmpty with
    | ok metadata =>
      rw [hmetadata] at hend
      exact (Attempt.course_pure.mp hend).2
    | error e =>
      rw [hmetadata] at hend
      exact (Attempt.course_throw.mp hend).2

/-- The items are sifted as mappings: either none is a misfit, or there is a first one. -/
theorem Sifts.of_fields {found : Except Fault (List DynaKube)} (h : Sifts (objects.map .fields) found) :
    (∀ o ∈ objects, ¬DynaKube.Misfit o) ∧ found = .ok ((objects.map .fields).filterMap accepted) ∨
      ∃ before o after e, objects = before ++ o :: after ∧ (∀ earlier ∈ before, ¬DynaKube.Misfit earlier) ∧
        DynaKube.Misfit o ∧ DynaKube.ofObject (.fields o) = .error e ∧ found = .error (.object e) := by
  rcases h with ⟨hall, hfound⟩ | ⟨before, object, after, e, hobjects, hbefore, hobject, hkind, hfound⟩
  · exact .inl ⟨fun o ho => mt DynaKube.unskippable_iff_misfit.mpr (hall _ (List.mem_map_of_mem ho)), hfound⟩
  · obtain ⟨earlier, rest, rfl, rfl, hrest⟩ := List.map_eq_append_iff.mp hobjects
    obtain ⟨o, later, rfl, rfl, rfl⟩ := List.map_eq_cons_iff.mp hrest
    have hmisfit : DynaKube.Misfit o := DynaKube.unskippable_iff_misfit.mp ⟨e, hobject, hkind⟩
    refine .inr ⟨earlier, o, later, e, rfl, fun p hp => ?_, hmisfit, hobject, hfound⟩
    exact mt DynaKube.unskippable_iff_misfit.mpr (hbefore _ (List.mem_map_of_mem hp))

/-- A listing returns exactly if no item is a misfit and the response itself has the shape of a listing. Then it has
found, in the order of their names, all the items that can be read. Otherwise it ends with the first misfit, if there is
one. -/
theorem list_returns_iff (hitems : Holds response objects)
    (h : Course list.run (.asked (.api .listDynaKubes) (.ok (.fields response)) :: acts) r) :
    ((∃ ds version, r = .ok (ds, version)) ↔
      (∀ o ∈ objects, ¬DynaKube.Misfit o) ∧ ¬(Value.entry response "metadata").Shapeless) ∧
    (∀ ds version, r = .ok (ds, version) →
      ds.Pairwise (fun a b => a.name ≤ b.name) ∧ ds.Perm ((objects.map .fields).filterMap accepted)) ∧
    ((∃ o ∈ objects, DynaKube.Misfit o) → ∃ before o after e, objects = before ++ o :: after ∧
      (∀ earlier ∈ before, ¬DynaKube.Misfit earlier) ∧ DynaKube.Misfit o ∧
        DynaKube.ofObject (.fields o) = .error e ∧ r = .error (.object e)) := by
  obtain ⟨found, hsifts, rfl⟩ := list_course hitems h
  rcases hsifts.of_fields with ⟨hall, rfl⟩ | ⟨before, o, after, e, rfl, hbefore, hmisfit, he, rfl⟩
  · have hnone : ¬∃ o ∈ objects, DynaKube.Misfit o := fun ⟨o, ho, hmisfit⟩ => hall o ho hmisfit
    cases hmetadata : DynaKube.fieldsOf (Value.entry response "metadata").orEmpty with
    | ok metadata =>
      have hshape : ¬(Value.entry response "metadata").Shapeless := fun hshape =>
        nomatch hmetadata.symm.trans (DynaKube.fieldsOf_orEmpty_error_iff.mpr ⟨hshape, rfl⟩)
      refine ⟨iff_of_true ⟨_, _, rfl⟩ ⟨hall, hshape⟩, fun ds version hr => ?_, fun h => absurd h hnone⟩
      cases hr
      exact ⟨ascending_mergeSort DynaKube.name _, List.mergeSort_perm _ _⟩
    | error e =>
      have hshape := (DynaKube.fieldsOf_orEmpty_error_iff.mp hmetadata).1
      refine ⟨iff_of_false ?_ fun h => h.2 hshape, nofun, fun h => absurd h hnone⟩
      rintro ⟨_, _, hr⟩
      cases hr
  · have hmem : o ∈ before ++ o :: after := List.mem_append_right before List.mem_cons_self
    refine ⟨iff_of_false ?_ fun h => h.1 o hmem hmisfit, nofun, fun _ => ?_⟩
    · rintro ⟨_, _, hr⟩
      cases hr
    · exact ⟨before, o, after, e, rfl, hbefore, hmisfit, he, rfl⟩

/-- A DynaKube named `a` that enables nothing. -/
private def plain : List (String × Value) := [("metadata", .fields [("name", .text "a")])]

/-- A DynaKube named `b` with a list for its specification. -/
private def odd : List (String × Value) := [("metadata", .fields [("name", .text "b")]), ("spec", .list [.int 1])]

/-- A DynaKube without a name. -/
private def nameless : List (String × Value) := [("metadata", .fields [])]

private def listing (objects : List (List (String × Value))) : List (String × Value) :=
  [("items", .list (objects.map .fields))]

theorem list_returns_iff_nameless : ∃ acts ds version,
    Course list.run (.asked (.api .listDynaKubes) (.ok (.fields (listing [plain, nameless]))) :: acts)
      (.ok (ds, version)) ∧ ds.Perm [⟨"a", .null, [], none⟩] := by
  have hskippable : ∀ o ∈ [plain, nameless], ¬DynaKube.Misfit o := by
    simp only [List.forall_mem_cons, ← DynaKube.unskippable_iff_misfit]
    refine ⟨?_, ?_, nofun⟩
    · rintro ⟨e, he, -⟩
      cases he
    · rintro ⟨e, he, hkind⟩
      cases he
      cases hkind
  obtain ⟨acts, r, h⟩ := exists_list_course (.fields (listing [plain, nameless]))
  obtain ⟨hreturns, hfound, -⟩ := list_returns_iff (.inl rfl) h
  obtain ⟨ds, version, rfl⟩ := hreturns.mpr ⟨hskippable, fun hshape => nomatch hshape.1⟩
  exact ⟨acts, ds, version, h, (hfound ds version rfl).2⟩

/-- A list in the place of the specification ends the listing, though another object can be read. -/
theorem odd_hides_others :
    Course list.run [.asked (.api .listDynaKubes) (.ok (.fields (listing [plain, odd])))]
      (.error (.object (.noFields "list"))) ∧
      DynaKube.ofObject (.fields plain) = .ok ⟨"a", .null, [], none⟩ ∧ DynaKube.Misfit odd :=
  ⟨.ask (.done _), rfl, .specification rfl rfl ⟨rfl, rfl⟩⟩

end DynaKubes
end NamespaceOwnership
