import NamespaceOwnership.Proofs.Controller.Reporting
import NamespaceOwnership.Proofs.Mapping.Selection

/-!
# Selectors that cannot be read

A mapping fails with the selector of the first enabled feature that it cannot read, once the namespaces are listed. If
that selector is refused, the DynaKube is shown as one with an invalid selector, the generation is noted, and there is
nothing to be repeated. But a selector in which the reader comes to an operator that is a list or a mapping
(`LabelSelector.Stuck`) is not refused: then the DynaKube is shown with an error, and its mapping is repeated.
-/
namespace NamespaceOwnership

open Controller (statusOf isFinal resultOf)
open LabelSelector (Stuck operatorFault)
open Session (Course)

variable {k : Controller} {d : DynaKube} {b b' : Books} {acts : List Act} {v : Except Fault MappingResult}
  {f : Feature} {fault : Fault}

/-- The status was reported, or it was the last to be reported before. -/
def Displayed (b : Books) (acts : List Act) (name : String) (status : MappingState × String) : Prop :=
  LastReported acts name (status.1.name, status.2) ∨
    Unreported name acts ∧ b.lastStatus.get? (.text name) = some (status.1.name, status.2)

namespace Mapper

variable {m : Mapper} {deadline : Option Int}

/-- Where the namespaces are listed, a selector that cannot be read is what a mapping fails with. -/
theorem map_course_unread {r : Except Fault MappingResult} (hunread : d.FirstUnread f fault)
    {objects : List (Option NamespaceObject)} (h : Course (m.map d deadline).run acts r)
    (hlisted : .asked (.api (.listNamespaces none)) (.ok objects) ∈ acts) : r = .error fault := by
  rcases Attempt.course_bind.mp h with ⟨failure, rfl, hlist⟩ | ⟨_, records, rest, rfl, hlist, hrest⟩
  · obtain ⟨reply, rfl, hreply⟩ := list_course hlist
    cases List.mem_singleton.mp hlisted
    cases hreply
  · rcases Attempt.course_bind.mp hrest with ⟨failure, rfl, hread⟩ | ⟨_, wanted, _, rfl, hread, -⟩
    · cases (Attempt.course_except.mp hread).2.trans (candidates_eq_error hunread records)
      rfl
    · cases (Attempt.course_except.mp hread).2.trans (candidates_eq_error hunread records)

end Mapper

namespace Controller

/-- A mapping that was attempted and that could list the namespaces fails with the first selector that it cannot
read. -/
theorem mapping_course_unread (hunread : d.FirstUnread f fault) {objects : List (Option NamespaceObject)}
    (h : Course (k.mapping d).run acts v) (hlisted : .asked (.api (.listNamespaces none)) (.ok objects) ∈ acts) :
    v = .error fault := by
  obtain ⟨_, now, rest, rfl, hclock, hrest⟩ := Attempt.course_lift_bind.mp h
  obtain rfl := Session.course_request.mp hclock
  have hlater : ∀ {acts r}, Course (later now k.reconcileTimeout).run acts r → acts = [] := by
    intro acts r h
    unfold later at h
    split at h
    · exact (Attempt.course_pure.mp h).1
    · exact (Attempt.course_throw.mp h).1
  rcases Attempt.course_bind.mp hrest with ⟨failure, -, hbound⟩ | ⟨_, limit, _, rfl, hbound, hmap⟩
  · rw [hlater hbound] at hlisted
    simp at hlisted
  · rw [hlater hbound] at hlisted
    exact Mapper.map_course_unread hunread hmap (by simpa using hlisted)

/-- Only the mapping lists namespaces. -/
theorem exists_mapping_listed {r : Except Fault Unit} (h : Operates (k.mapping d) (settleMapped d) b acts v r b')
    {objects : List (Option NamespaceObject)} (hlisted : .asked (.api (.listNamespaces none)) (.ok objects) ∈ acts) :
    ∃ own, Course (k.mapping d).run own v ∧ .asked (.api (.listNamespaces none)) (.ok objects) ∈ own := by
  have hdeals : Request.AllowsDealing (· ≠ .api (.listNamespaces none)) := ⟨nofun, nofun, nofun⟩
  have hnone {rest : List Act} {v : Except Fault MappingResult} {r : Except Fault Unit}
      (hdealt : Course ((settleMapped d v).run.run b) rest (r, b')) :
      .asked (.api (.listNamespaces none)) (.ok objects) ∉ rest := fun hmem =>
    settleMapped_housekeeping (asks_housekeeping hdeals) (fun _ => .note _) d v _ _ _ _ hdealt _ _ hmem rfl
  cases h with
  | succeeded started ended attempted dealt =>
    have hrest := hnone dealt
    exact ⟨_, attempted, by simpa [hrest] using hlisted⟩
  | failed started ended attempted dealt =>
    have hrest := hnone dealt
    exact ⟨_, attempted, by simpa [hrest] using hlisted⟩

/-- What a reconciliation does about a selector that was refused. -/
structure Dismisses (d : DynaKube) (error : SelectorError) (b : Books) (acts : List Act) (b' : Books) : Prop where
  displayed : Displayed b acts d.name (.invalidSelector, error.message)
  counted : results acts = [.invalid]
  cleared : Books.Cleared (.text d.name) b b'
  observed : b'.observed = b.observed.set (.text d.name) d.generation

/-- What it does about a selector in which there is an operator that cannot be looked up. -/
structure Postpones (d : DynaKube) (fault : Fault) (b : Books) (acts : List Act) (b' : Books) : Prop where
  displayed : Displayed b acts d.name (.error, fault.summary)
  counted : results acts = [.error]
  pending : b.Synced → b'.pending.contains (.text d.name) = true
  observed : b'.observed = b.observed

theorem Reconciles.dismisses {error : SelectorError} (h : k.Reconciles d b acts (.error (.selector error)) b')
    (hdated : Dated acts) : Dismisses d error b acts b' where
  displayed := (h.reports hdated).1
  counted := h.counted
  cleared := h.cleared hdated rfl
  observed := by
    obtain ⟨_, _, _, _, -, -, -, -, hobserved⟩ := h.exists_reported hdated
    exact hobserved

theorem Reconciles.postpones {operator : Value} (h : k.Reconciles d b acts (.error (operatorFault operator)) b')
    (hdated : Dated acts) : Postpones d (operatorFault operator) b acts b' where
  displayed := (h.reports hdated).1
  counted := h.counted
  pending hsynced := (h.change hdated hsynced).contains_self (Value.sameName_text_iff.mpr rfl)
  observed := by
    obtain ⟨_, _, _, _, -, -, -, -, hobserved⟩ := h.exists_reported hdated
    exact hobserved

/-- Whatever value is read as a selector, the reader fails only by refusing it, unless it comes to an operator that is a
list or a mapping. So a reconciliation that lists the namespaces and cannot read that selector shows it as invalid and
repeats nothing; but one with such an operator is shown as an error, and the mapping is repeated. -/
theorem malformed_selectors_are_dismissed {raw : Value} (hfails : LabelSelector.read raw = .error fault) :
    ((∃ error, fault = .selector error) ↔ ¬∃ operator, Stuck raw operator) ∧
    (∀ operator, Stuck raw operator → fault = .object (.noName operator.kindName)) ∧
    ∀ (k : Controller) (d : DynaKube) (b b' : Books) (acts : List Act) (v : Except Fault MappingResult)
      (objects : List (Option NamespaceObject)) (f : Feature), d.selectorFor f = raw → d.FirstUnread f fault →
      k.Reconciles d b acts v b' → Dated acts → .asked (.api (.listNamespaces none)) (.ok objects) ∈ acts →
        v = .error fault ∧
        ((¬∃ operator, Stuck raw operator) → ∃ error, fault = .selector error ∧ Dismisses d error b acts b') ∧
        ((∃ operator, Stuck raw operator) → Postpones d fault b acts b') := by
  have hiff := LabelSelector.malformed_iff hfails
  have hstuck {operator : Value} (hoperator : Stuck raw operator) : fault = operatorFault operator :=
    Except.error.inj (hfails.symm.trans hoperator.read)
  refine ⟨hiff, fun _ hoperator => hstuck hoperator,
    fun k d b b' acts v objects f _ hunread hreconciles hdated hlisted => ?_⟩
  obtain ⟨_, r, -, hoperates⟩ := id hreconciles
  obtain ⟨own, hown, hlisted⟩ := exists_mapping_listed hoperates hlisted
  obtain rfl := mapping_course_unread hunread hown hlisted
  refine ⟨rfl, fun hnone => ?_, fun ⟨operator, hoperator⟩ => ?_⟩
  · obtain ⟨error, rfl⟩ := hiff.mpr hnone
    exact ⟨error, rfl, hreconciles.dismisses hdated⟩
  · obtain rfl := hstuck hoperator
    exact hreconciles.postpones hdated

section Selecting

private def attendant : Controller := ⟨⟨⟨2, Nat.two_pos⟩, "operator"⟩, 30, 300⟩

private def selecting (selector : Value) : DynaKube := ⟨"dk", selector, [(.codeModules, .null)], some 1⟩

/-- There are no namespaces, and a report is accepted. -/
private def noneListed : (request : Request) → request.Answer
  | .api (.listNamespaces _) => .ok []
  | .api (.patchStatus _ _) => .ok ()
  | request => Session.refusing request

private def selected (selector : Value) : List Act × Except Fault (Option MappingResult) × Books :=
  ((attendant.reconcile (selecting selector)).run.run {}).answeredBy noneListed

private theorem selected_reconciles (selector : Value) :
    ∃ v, attendant.Reconciles (selecting selector) {} (selected selector).1 v (selected selector).2.2 :=
  exists_reconciles (Session.course_answeredBy noneListed ((attendant.reconcile (selecting selector)).run.run {}))

private theorem selected_dated (selector : Value) : Dated (selected selector).1 := fun error hmem => by
  cases Session.answer_of_mem_answeredBy hmem

private theorem selected_listed (selector : Value) :
    .asked (.api (.listNamespaces none)) (.ok []) ∈ (selected selector).1 :=
  List.mem_cons_of_mem _ (List.mem_cons_of_mem _ List.mem_cons_self)

private theorem selecting_firstUnread {selector : Value} (h : LabelSelector.read selector = .error fault) :
    (selecting selector).FirstUnread .codeModules fault := ⟨[], [], rfl, nofun, h⟩

/-- A selector that is a truth value is refused, and the theorem says what follows. -/
theorem malformed_selectors_are_dismissed_bool : ∃ (k : Controller) (d : DynaKube) (b' : Books) (acts : List Act)
    (v : Except Fault MappingResult), k.Reconciles d {} acts v b' ∧ d.selectorFor .codeModules = .bool true ∧
      Dismisses d (.notSelector "bool") {} acts b' := by
  obtain ⟨v, hreconciles⟩ := selected_reconciles (.bool true)
  have hread : LabelSelector.read (.bool true) = .error (.selector (.notSelector "bool")) := rfl
  obtain ⟨-, -, hreconciled⟩ := malformed_selectors_are_dismissed hread
  obtain ⟨-, hdismissed, -⟩ := hreconciled _ _ _ _ _ _ _ _ rfl (selecting_firstUnread hread) hreconciles
    (selected_dated _) (selected_listed _)
  have hnone : ¬∃ operator, Stuck (.bool true) operator := by
    rintro ⟨operator, entries, hentries, -⟩
    cases hentries
  obtain ⟨error, herror, hdismisses⟩ := hdismissed hnone
  cases herror
  exact ⟨attendant, selecting (.bool true), _, _, v, hreconciles, rfl, hdismisses⟩

/-- An expression `env In prod`, but for its operator, which is in a list. -/
private def listedOperator : Value := .fields [("matchExpressions", .list [.fields [("key", .text "env"),
  ("operator", .list [.text "In"]), ("values", .list [.text "prod"])]])]

private theorem listedOperator_stuck : Stuck listedOperator (.list [.text "In"]) := by
  refine ⟨_, rfl, by simp [LabelSelector.unknownKeys], ⟨[], rfl, nofun⟩, [], _, [], rfl, nofun, ?_⟩
  exact ⟨by simp [LabelSelector.unknownKeys], .inr ⟨_, rfl⟩, ⟨"env", by rfl⟩, rfl, rfl⟩

/-- The selector is read with the fault of a malformed object. The DynaKube is shown with an error and is to be mapped
again, and its generation is not noted. -/
theorem listed_operator_is_postponed : ∃ (raw : Value) (k : Controller) (d : DynaKube) (b' : Books) (acts : List Act)
    (v : Except Fault MappingResult), LabelSelector.read raw = .error (.object (.noName "list")) ∧
      k.Reconciles d {} acts v b' ∧ Dated acts ∧ d.selectorFor .codeModules = raw ∧
      .asked (.api (.listNamespaces none)) (.ok []) ∈ acts ∧ v = .error (.object (.noName "list")) ∧
      Displayed {} acts d.name (.error, "unhashable type: 'list'") ∧ results acts = [.error] ∧
      b'.pending.contains (.text d.name) = true ∧ b'.observed.get? (.text d.name) = none := by
  have hread : LabelSelector.read listedOperator = .error (operatorFault (.list [.text "In"])) :=
    listedOperator_stuck.read
  obtain ⟨v, hreconciles⟩ := selected_reconciles listedOperator
  obtain ⟨_, r, -, hoperates⟩ := id hreconciles
  obtain ⟨own, hown, hlisted⟩ := exists_mapping_listed hoperates (selected_listed _)
  obtain rfl := mapping_course_unread (selecting_firstUnread hread) hown hlisted
  have hpostpones := hreconciles.postpones (selected_dated _)
  have hsynced : Books.Synced {} := fun text hcontains => by cases hcontains
  refine ⟨listedOperator, attendant, selecting listedOperator, _, _, _, hread, hreconciles, selected_dated _, rfl,
    selected_listed _, rfl, hpostpones.displayed, hpostpones.counted, hpostpones.pending hsynced, ?_⟩
  rw [hpostpones.observed]
  rfl

end Selecting

end Controller
end NamespaceOwnership
