import NamespaceOwnership.Proofs.Course
import NamespaceOwnership.Proofs.Mapping.Patches

/-!
# What a call of the mapper may write

Whatever the requests of a mapping or an unmapping are answered, each patch that it sends, be it accepted or not, is
warranted by the last reading of the namespace: it replaces what was read there at the version that was read, marks
the namespace, and either makes the DynaKube the owner of some features or takes one feature from it.
-/
namespace NamespaceOwnership

open Session (Course)

/-- The last that was read of any namespace is this record, and nothing was written since. -/
def LastRead (space : String) (record : NamespaceRecord) (past : List Act) : Prop :=
  ∃ older object window, past = older ++ .asked (.api (.readNamespace space)) (.ok object) :: window ∧
    record = .ofObject object ∧ ∀ request answer, .asked request answer ∈ window → request.IsReading

theorem LastRead.append {space : String} {record : NamespaceRecord} {past acts : List Act}
    (h : LastRead space record past) (hacts : ∀ request answer, .asked request answer ∈ acts → request.IsReading) :
    LastRead space record (past ++ acts) := by
  obtain ⟨older, object, window, rfl, rfl, hwindow⟩ := h
  refine ⟨older, object, window ++ acts, by simp, rfl, fun request answer hmem => ?_⟩
  exact (List.mem_append.mp hmem).elim (hwindow request answer) (hacts request answer)

/-- Where a patch is sent, it has its ground in what happened before. -/
def Writes (ground : List Act → String → NamespacePatch → Prop) (past : List Act) (request : Request) : Prop :=
  ∀ space patch, request = .api (.patchNamespace space patch) → ground past space patch

theorem Writes.of_sparing {ground : List Act → String → NamespacePatch → Prop} {past : List Act} {request : Request}
    (h : request.Sparing) : Writes ground past request := by
  rintro space patch rfl
  cases h

theorem Session.Within.obeys_writes {α : Type} {s : Session α} {past : List Act}
    {ground : List Act → String → NamespacePatch → Prop} (hs : s.Within Request.Sparing) :
    s.Obeys (Writes ground) past := hs.obeys fun _ _ => .of_sparing

theorem Namespaces.get_course {space : String} {acts : List Act} {r : Except Fault NamespaceRecord}
    (h : Course (Namespaces.get space).run acts r) : ∃ reply, acts = [.asked (.api (.readNamespace space)) reply] ∧
      r = match reply with
        | .ok object => .ok (.ofObject object)
        | .error failure => .error (missing space failure) := by
  obtain ⟨first, reply, rest, rfl, hrequest, hend⟩ := Attempt.course_lift_bind.mp h
  obtain rfl := Session.course_request.mp hrequest
  refine ⟨reply, ?_⟩
  cases reply with
  | ok object =>
    obtain ⟨rfl, rfl⟩ := Attempt.course_pure.mp hend
    exact ⟨rfl, rfl⟩
  | error failure =>
    obtain ⟨rfl, rfl⟩ := Attempt.course_throw.mp hend
    exact ⟨rfl, rfl⟩

namespace Ledger

variable {σ : Type} {space operation : String} {deadline : Option Int} {change : Change σ} {past acts : List Act}
  {ground : List Act → String → NamespacePatch → Prop}

theorem checkDeadline_obeys : (checkDeadline deadline operation).run.Obeys (Writes ground) past :=
  (checkDeadline_sparing deadline operation).obeys_writes

/-- An update sends only what the change makes of the record that it has just read. -/
theorem modify_obeys {l : Ledger} (left : Nat) (st : σ)
    (hreads : ∀ labels annotations st, ((change labels annotations).run st).run.Within Request.IsReading)
    (hground : ∀ past acts record st new st', LastRead space record (past ++ acts) →
      Course ((change record.labels record.annotations).run st).run acts (.ok (new, st')) →
      unchanged record new = false → ground (past ++ acts) space ⟨record.version, new.1, new.2⟩) :
    ((l.modify space operation deadline change left).run st).run.Obeys (Writes ground) past := by
  induction left generalizing st past with
  | zero => trivial
  | succ left ih =>
    rw [modify]
    refine Attempt.obeys_state_lift_bind checkDeadline_obeys fun checked _ _ => ?_
    refine Attempt.obeys_state_outcome_bind ⟨.of_sparing rfl, fun reply => by cases reply <;> trivial⟩
      fun readings r hget => ?_
    obtain ⟨reply, rfl, rfl⟩ := Namespaces.get_course hget
    cases reply with
    | error failure =>
      dsimp only [Namespaces.missing]
      split <;> trivial
    | ok object =>
      have hread : LastRead space (.ofObject object)
          (past ++ checked ++ [.asked (.api (.readNamespace space)) (.ok object)]) :=
        ⟨past ++ checked, object, [], rfl, rfl, by simp⟩
      dsimp only
      generalize NamespaceRecord.ofObject object = record at hread ⊢
      have hsparing : ((change record.labels record.annotations).run st).run.Within Request.Sparing := by
        refine (hreads _ _ st).mono fun request hreading => ?_
        obtain ⟨name, rfl⟩ := hreading
        rfl
      refine Attempt.obeys_state_bind hsparing.obeys_writes fun changing new st₁ hchange => ?_
      by_cases hsame : unchanged record new
      · rw [if_pos hsame]
        trivial
      · rw [if_neg hsame]
        refine Attempt.obeys_state_outcome_bind ⟨?_, fun reply => by cases reply <;> trivial⟩ fun patching r _ => ?_
        · rintro _ _ ⟨⟩
          have hstill := hread.append fun request answer hmem => hchange.within (hreads _ _ st) hmem
          exact hground _ changing record st new st₁ hstill hchange (by simpa using hsame)
        · cases r with
          | ok record => trivial
          | error fault =>
            cases fault with
            | versionConflict space expected => exact ih _
            | _ => trivial

end Ledger

namespace Mapper

open Ledger

/-- What the mapper may be called for. -/
inductive Call where
  | mapping (d : DynaKube)
  | unmapping (name : Value)

namespace Call

/-- The name of the DynaKube that is mapped or unmapped. -/
def name : Call → Value
  | .mapping d => .text d.name
  | .unmapping name => name

def attempt (m : Mapper) (deadline : Option Int) : Call → Attempt MappingResult
  | .mapping d => m.map d deadline
  | .unmapping name => m.unmap name deadline

end Call

/-- The labels that were read, with some features made over to an owner. -/
def Gives (owner : String) (features : List Feature) (read labels : Labels) : Prop :=
  ∀ key, TextMap.get? labels key = if ∃ f ∈ features, key = f.labelKey then some owner else TextMap.get? read key

/-- The labels that were read, with one feature taken from its owner. -/
def Takes (owner : String) (f : Feature) (read labels : Labels) : Prop :=
  TextMap.get? read f.labelKey = some owner ∧
    ∀ key, TextMap.get? labels key = if key = f.labelKey then none else TextMap.get? read key

/-- The patch replaces a record that was read, differs from it, and does nothing that the call is not for. -/
structure Warrants (m : Mapper) (call : Call) (space : String) (record : NamespaceRecord) (patch : NamespacePatch) :
    Prop where
  pinned : patch.pinned = record.version
  marked : ∀ key, TextMap.get? patch.annotations key =
    if key = markerKey then some "true" else TextMap.get? record.annotations key
  labelled : (∃ d features, call = .mapping d ∧ space ≠ m.operatorNamespace ∧ features ≠ [] ∧
      Gives d.name features record.labels patch.labels) ∨
    ∃ owner f, call.name = .text owner ∧ Takes owner f record.labels patch.labels
  differs : (∃ key, TextMap.get? patch.labels key ≠ TextMap.get? record.labels key) ∨
    ∃ key, TextMap.get? patch.annotations key ≠ TextMap.get? record.annotations key

/-- What was last read warrants the patch. -/
def Warranted (m : Mapper) (call : Call) (past : List Act) (space : String) (patch : NamespacePatch) : Prop :=
  ∃ record, LastRead space record past ∧ m.Warrants call space record patch

variable {m : Mapper} {call : Call} {owner space : String} {deadline : Option Int} {past acts : List Act}

theorem differs_of_changed {record : NamespaceRecord} {new : Labels × Annotations} (h : unchanged record new = false) :
    (∃ key, TextMap.get? new.1 key ≠ TextMap.get? record.labels key) ∨
      ∃ key, TextMap.get? new.2 key ≠ TextMap.get? record.annotations key := by
  by_contra hsame
  push Not at hsame
  have hunchanged : unchanged record new = true := by
    simp only [unchanged, Bool.and_eq_true, TextMap.same_iff]
    exact hsame
  rw [h] at hunchanged
  cases hunchanged

theorem list_course {r : Except Fault (List NamespaceRecord)} (h : Course m.ledger.list.run acts r) :
    ∃ reply, acts = [.asked (.api (.listNamespaces none)) reply] ∧
      r = (reply.map Namespaces.records).mapError .call := by
  obtain ⟨reply, rest, rfl, hrest⟩ := Session.course_ask.mp h
  refine ⟨reply, ?_⟩
  cases reply with
  | ok objects =>
    obtain ⟨rfl, rfl⟩ := Session.course_done.mp hrest
    exact ⟨rfl, rfl⟩
  | error failure =>
    obtain ⟨rfl, rfl⟩ := Session.course_done.mp hrest
    exact ⟨rfl, rfl⟩

/-- An update under the guard gives features to the DynaKube that is mapped. -/
theorem write_obeys {d : DynaKube} {features : List Feature} (hne : features ≠ [])
    (hspace : space ≠ m.operatorNamespace) (st : Memory) :
    ((m.ledger.write space features d.name (some (m.judge d.name space)) deadline).run st).run.Obeys
      (Writes (m.Warranted (.mapping d))) past := by
  refine modify_obeys _ st (fun labels annotations st => guarded_within labels annotations st)
    fun past acts record st new st' hread hclaim hchanged => ?_
  rcases Attempt.course_state_bind.mp hclaim with ⟨fault, hok, -⟩ | ⟨_, _, _, _, -, -, hend⟩
  · cases hok
  obtain ⟨-, hok⟩ := Attempt.course_state_pure.mp hend
  cases hok
  have hgives : Gives d.name features record.labels (claimed d.name features record.labels) :=
    get?_claimed d.name features record.labels
  exact ⟨record, hread, rfl, get?_marked_eq _, .inl ⟨d, features, rfl, hspace, hne, hgives⟩,
    differs_of_changed hchanged⟩

theorem claimAll_obeys {d : DynaKube} {todo : List (String × List Feature)}
    (htodo : ∀ entry ∈ todo, entry.2 ≠ [] ∧ entry.1 ≠ m.operatorNamespace) (st : Memory) :
    ((m.claimAll d.name deadline todo).run st).run.Obeys (Writes (m.Warranted (.mapping d))) past := by
  induction todo generalizing st past with
  | nil => trivial
  | cons entry rest ih =>
    obtain ⟨hne, hspace⟩ := htodo entry List.mem_cons_self
    have hrest : ∀ other ∈ rest, other.2 ≠ [] ∧ other.1 ≠ m.operatorNamespace := fun other hother =>
      htodo other (List.mem_cons_of_mem _ hother)
    refine Attempt.obeys_state_lift_bind checkDeadline_obeys fun _ _ _ => ?_
    refine Attempt.obeys_state_bind ?_ fun _ _ st _ => ?_
    · refine Attempt.obeys_state_bind trivial fun _ _ st _ => ?_
      refine Attempt.obeys_state_bind (write_obeys hne hspace st) fun _ written st _ => ?_
      have hsettle : (settle d.name entry.1 written st.decisions).Within Request.Sparing :=
        (settle_within d.name entry.1 written st.decisions).mono fun _ => False.elim
      exact Session.Within.obeys_writes (Attempt.within_state_lift (Attempt.within_lift hsettle))
    · exact Attempt.obeys_state_bind (ih hrest st) fun _ _ _ _ => trivial

/-- A release takes a feature from the DynaKube that the call is for. -/
theorem remove_obeys (claim : Claim) (hcall : call.name = .text owner) :
    (m.ledger.remove claim.1 claim.2 (some owner) deadline).run.Obeys (Writes (m.Warranted call)) past := by
  refine Attempt.obeys_state_forget (modify_obeys _ () (fun labels annotations st => ?_)
    fun past acts record st new st' hread hrelease hchanged => ?_)
  · exact (release_within _ _ _ labels annotations st).mono fun _ => False.elim
  obtain ⟨notes, -, hrun⟩ := release_run claim.1 claim.2 (some owner) record.labels record.annotations st
  rw [hrun] at hrelease
  obtain ⟨_, _, _, -, -, hend⟩ := Session.course_bind.mp hrelease
  obtain ⟨-, hok⟩ := Session.course_done.mp hend
  cases hok
  rcases released_cases claim.2 (some owner) record.labels record.annotations with
    hsame | ⟨present, hheld, howner, hnew⟩
  · rw [hsame, unchanged_self] at hchanged
    cases hchanged
  rw [howner owner rfl] at hheld
  have htakes : Takes owner claim.2 record.labels (TextMap.erase record.labels claim.2.labelKey) :=
    ⟨hheld, TextMap.get?_erase _ _⟩
  rw [hnew] at hchanged ⊢
  exact ⟨record, hread, rfl, get?_marked_eq _, .inr ⟨owner, claim.2, hcall, htakes⟩, differs_of_changed hchanged⟩

theorem releaseAll_obeys {operation : String} {noted : Claim → Session Unit} (todo : List Claim)
    (hcall : call.name = .text owner) (hnoted : ∀ claim, (noted claim).Within fun _ => False) :
    (m.releaseAll owner operation deadline noted todo).run.Obeys (Writes (m.Warranted call)) past := by
  induction todo generalizing past with
  | nil => trivial
  | cons claim rest ih =>
    refine Attempt.obeys_bind checkDeadline_obeys fun _ _ _ => ?_
    refine Attempt.obeys_bind (remove_obeys claim hcall) fun _ dropped _ => ?_
    cases dropped with
    | false => exact ih
    | true =>
      have hnote : (noted claim).Within Request.Sparing := (hnoted claim).mono fun _ => False.elim
      refine Attempt.obeys_bind (Session.Within.obeys_writes (Attempt.within_lift hnote)) fun _ _ _ => ?_
      exact Attempt.obeys_bind ih fun _ _ _ => trivial

theorem map_obeys (m : Mapper) (d : DynaKube) (deadline : Option Int) :
    (m.map d deadline).run.Obeys (Writes (m.Warranted (.mapping d))) [] := by
  refine Attempt.obeys_bind m.list_sparing.obeys_writes fun _ records _ => ?_
  refine Attempt.obeys_bind (by cases m.candidates d records <;> trivial) fun _ wanted hwanted => ?_
  obtain ⟨-, hwanted⟩ := Attempt.course_except.mp hwanted
  refine Attempt.obeys_bind (releaseAll_obeys _ rfl (noteStale_within d.name)) fun _ released _ => ?_
  refine Attempt.obeys_bind (Attempt.obeys_state_forget (claimAll_obeys ?_ _)) fun _ v _ => trivial
  rintro ⟨space, features⟩ hmem
  obtain ⟨hne, hfeatures⟩ := mem_claims hwanted.symm hmem
  obtain ⟨f, hf⟩ := List.exists_mem_of_ne_nil features hne
  obtain ⟨r, -, -, -, hspace, -⟩ := (hfeatures f).mp hf
  exact ⟨hne, hspace⟩

theorem unmap_obeys (m : Mapper) (name : Value) (deadline : Option Int) :
    (m.unmap name deadline).run.Obeys (Writes (m.Warranted (.unmapping name))) [] := by
  refine Attempt.obeys_bind m.list_sparing.obeys_writes fun _ records _ => ?_
  refine Attempt.obeys_bind ?_ fun _ released _ => trivial
  cases name with
  | text owner => exact releaseAll_obeys _ rfl fun _ => ⟨trivial, trivial⟩
  | _ => trivial

theorem Call.obeys (m : Mapper) (call : Call) (deadline : Option Int) :
    (call.attempt m deadline).run.Obeys (Writes (m.Warranted call)) [] := by
  cases call with
  | mapping d => exact map_obeys m d deadline
  | unmapping name => exact unmap_obeys m name deadline

end Mapper
end NamespaceOwnership
