import Mathlib.Data.List.Forall2
import NamespaceOwnership.Selector.Parser

/-!
# What reading a selector fails with

A selector that cannot be read is refused as such. The one exception is an expression whose operator is a list
or a mapping: nothing can be looked up by such a value, and the fault is that of a malformed object. Every
function of the reader is composed of parts that fail by certain faults only (`LabelSelector.FailsBy`). The reader
comes to such an operator (`LabelSelector.Stuck`) only in a mapping, and only if it refuses nothing that it reads
before.
-/
namespace NamespaceOwnership

/-- A selector was refused. -/
def Fault.Malformed (fault : Fault) : Prop := ∃ error, fault = .selector error

/-- A selector was refused, or had an operator of a wrong kind. -/
def Fault.OfReading (fault : Fault) : Prop := fault.Malformed ∨ ∃ error, fault = .object error

namespace LabelSelector

variable {α β : Type} {allowed allowed' : Fault → Prop}

/-- If it fails, then by an allowed fault. -/
def FailsBy (allowed : Fault → Prop) (x : Except Fault α) : Prop := ∀ fault, x = .error fault → allowed fault

namespace FailsBy

theorem ok {a : α} : FailsBy allowed (.ok a : Except Fault α) := by
  rintro fault ⟨⟩

theorem error {fault : Fault} (h : allowed fault) : FailsBy allowed (.error fault : Except Fault α) := by
  rintro _ ⟨⟩
  exact h

/-- What comes next matters only if there was a result. -/
theorem bind_of {x : Except Fault α} {f : α → Except Fault β} (hx : FailsBy allowed x)
    (hf : ∀ a, x = .ok a → FailsBy allowed (f a)) : FailsBy allowed (x >>= f) := by
  cases x with
  | error fault =>
    rintro _ ⟨⟩
    exact hx fault rfl
  | ok a => exact hf a rfl

theorem bind {x : Except Fault α} {f : α → Except Fault β} (hx : FailsBy allowed x)
    (hf : ∀ a, FailsBy allowed (f a)) : FailsBy allowed (x >>= f) := hx.bind_of fun a _ => hf a

theorem ite {p : Prop} [Decidable p] {x y : Except Fault α} (hx : FailsBy allowed x) (hy : FailsBy allowed y) :
    FailsBy allowed (if p then x else y) := by
  split
  · exact hx
  · exact hy

/-- What is allowed of an element need only be what it fails by after all elements before it have passed. -/
theorem mapM_of {f : α → Except Fault β} {l : List α} (hf : ∀ before a after, l = before ++ a :: after →
    (∀ b ∈ before, ∃ c, f b = .ok c) → FailsBy allowed (f a)) : FailsBy allowed (l.mapM f) := by
  induction l with
  | nil => exact .ok
  | cons a l ih =>
    rw [List.mapM_cons]
    refine (hf [] a l rfl nofun).bind_of fun c hc => .bind (ih fun before b after hl hbefore => ?_) fun _ => .ok
    refine hf (a :: before) b after (congrArg (a :: ·) hl) fun b' hb' => ?_
    rcases List.mem_cons.mp hb' with rfl | hb'
    · exact ⟨c, hc⟩
    · exact hbefore b' hb'

theorem mapM {f : α → Except Fault β} (hf : ∀ a, FailsBy allowed (f a)) (l : List α) :
    FailsBy allowed (l.mapM f) := mapM_of fun _ a _ _ _ => hf a

theorem mono {x : Except Fault α} (hx : FailsBy allowed x) (h : ∀ fault, allowed fault → allowed' fault) :
    FailsBy allowed' x := fun fault hfault => h fault (hx fault hfault)

end FailsBy

theorem bind_eq_ok_iff {ε : Type} {x : Except ε α} {f : α → Except ε β} {b : β} :
    x >>= f = .ok b ↔ ∃ a, x = .ok a ∧ f a = .ok b := by
  cases x <;> simp [bind, Except.bind]

theorem bind_eq_error_iff {ε : Type} {x : Except ε α} {f : α → Except ε β} {e : ε} :
    x >>= f = .error e ↔ x = .error e ∨ ∃ a, x = .ok a ∧ f a = .error e := by
  cases x <;> simp [bind, Except.bind]

/-- A list passes element by element. -/
theorem mapM_eq_ok_iff {ε : Type} {f : α → Except ε β} {l : List α} {bs : List β} :
    l.mapM f = .ok bs ↔ List.Forall₂ (fun a b => f a = .ok b) l bs := by
  induction l generalizing bs with
  | nil => cases bs <;> simp [pure, Except.pure]
  | cons a l ih =>
    simp only [List.mapM_cons, bind_eq_ok_iff, ih, pure, Except.pure, Except.ok.injEq]
    constructor
    · rintro ⟨b, hb, bs, hbs, rfl⟩
      exact .cons hb hbs
    · rintro (_ | ⟨hb, hbs⟩)
      exact ⟨_, hb, _, hbs, rfl⟩

theorem exists_mapM_ok {f : α → Except Fault β} {l : List α} (h : ∀ a ∈ l, ∃ b, f a = .ok b) :
    ∃ bs, l.mapM f = .ok bs := by
  induction l with
  | nil => exact ⟨[], rfl⟩
  | cons a l ih =>
    obtain ⟨b, hb⟩ := h a List.mem_cons_self
    obtain ⟨bs, hbs⟩ := ih fun a' ha' => h a' (List.mem_cons_of_mem _ ha')
    exact ⟨b :: bs, mapM_eq_ok_iff.mpr (.cons hb (mapM_eq_ok_iff.mp hbs))⟩

theorem exists_of_forall₂ {R : α → β → Prop} {as : List α} {bs : List β} (h : List.Forall₂ R as bs) :
    ∀ a ∈ as, ∃ b ∈ bs, R a b := by
  induction h with
  | nil => nofun
  | cons hab _ ih =>
    refine List.forall_mem_cons.mpr ⟨⟨_, List.mem_cons_self, hab⟩, fun a ha => ?_⟩
    obtain ⟨b, hb, hr⟩ := ih a ha
    exact ⟨b, List.mem_cons_of_mem _ hb, hr⟩

theorem mapM_ok_of_mem {f : α → Except Fault β} {l : List α} {bs : List β} (h : l.mapM f = .ok bs) :
    ∀ a ∈ l, ∃ b, f a = .ok b := fun a ha =>
  have ⟨b, _, hb⟩ := exists_of_forall₂ (mapM_eq_ok_iff.mp h) a ha
  ⟨b, hb⟩

/-- The first element that fails is where the list does. -/
theorem mapM_eq_error {f : α → Except Fault β} {before after : List α} {a : α} {fault : Fault}
    (hbefore : ∀ b ∈ before, ∃ c, f b = .ok c) (ha : f a = .error fault) :
    (before ++ a :: after).mapM f = .error fault := by
  obtain ⟨cs, hcs⟩ := exists_mapM_ok hbefore
  rw [List.mapM_append, hcs, List.mapM_cons, ha]
  rfl

/-- If it fails, then because the selector was refused. -/
abbrev Refuses (x : Except Fault α) : Prop := FailsBy Fault.Malformed x

theorem FailsBy.selector {error : SelectorError} : Refuses (.error (.selector error) : Except Fault α) :=
  .error ⟨error, rfl⟩

theorem readKey_refuses (key : Value) : Refuses (readKey key) := by
  unfold readKey
  split
  · refine .ite .selector ?_
    split
    · exact .ite .selector (.ite .selector .ok)
    · exact .ite .selector .ok
  · exact .selector

theorem readValue_refuses (value : Value) : Refuses (readValue value) := by
  unfold readValue
  split
  · exact .ite .ok .selector
  · exact .selector

theorem readRequirement_refuses {operator : Value} (h : operator.isScalar = true) (key : Value)
    (values : List Value) : Refuses (readRequirement key operator values) := by
  refine (readKey_refuses key).bind fun key => ?_
  have hvalues (make : String → List String → Requirement) :
      Refuses (do return make key (valueSet (← values.mapM readValue))) :=
    (FailsBy.mapM readValue_refuses values).bind fun _ => .ok
  dsimp only
  split
  · exact .ite (.bind .selector fun _ => hvalues .oneOf) (hvalues .oneOf)
  · exact .ite (.bind .selector fun _ => hvalues .noneOf) (hvalues .noneOf)
  · exact .ite .ok .selector
  · exact .ite .ok .selector
  · cases h
  · cases h
  · exact .selector

/-- Under a list or a mapping no operator is found, whatever the values are. -/
theorem readRequirement_of_not_scalar {operator : Value} (h : operator.isScalar = false) (key : Value)
    (values : List Value) : readRequirement key operator values =
      readKey key >>= fun _ => .error (.object (.noName operator.kindName)) := by
  cases operator with
  | list items => rfl
  | fields entries => rfl
  | _ => cases h

theorem readTerm_refuses (selector : String) (term : List Char) : Refuses (readTerm selector term) := by
  unfold readTerm
  split
  · exact .selector
  · exact readRequirement_refuses rfl _ _
  · split
    · exact readRequirement_refuses rfl _ _
    · dsimp only
      split <;> exact readRequirement_refuses rfl _ _

theorem readText_refuses (selector : String) : Refuses (readText selector) := by
  unfold readText
  refine .ite .ok ?_
  split
  · exact .selector
  · exact (FailsBy.mapM (fun term => readTerm_refuses selector _) _).bind fun _ => .ok

section Stuck

variable {entries : List (String × Value)} {operator : Value} {fault : Fault}

/-- The fields of an expression whose operator is a list or a mapping, and which is not refused before its operator is
looked up. -/
structure Compound (entries : List (String × Value)) (operator : Value) : Prop where
  known : unknownKeys ["key", "operator", "values"] entries = []
  values : Value.entry entries "values" = .null ∨ ∃ items, Value.entry entries "values" = .list items
  key : ∃ key, readKey (Value.entry entries "key") = .ok key
  found : Value.entry entries "operator" = operator
  compound : operator.isScalar = false

/-- The pairs of `matchLabels`, none where it is missing or empty. -/
def labelPairs (entries : List (String × Value)) : Except Fault (List (String × Value)) :=
  match (Value.entry entries "matchLabels").truthy, Value.entry entries "matchLabels" with
  | false, _ => .ok []
  | true, .fields pairs => .ok pairs
  | true, _ => .error (.selector .labelsNotMapping)

/-- The items of `matchExpressions`, none where it is missing or empty. -/
def expressionItems (entries : List (String × Value)) : Except Fault (List Value) :=
  match (Value.entry entries "matchExpressions").truthy, Value.entry entries "matchExpressions" with
  | false, _ => .ok []
  | true, .list items => .ok items
  | true, _ => .error (.selector .expressionsNotList)

/-- The fields of a selector in which the reader comes to such an expression. -/
structure ReachesCompound (entries : List (String × Value)) (operator : Value) : Prop where
  known : unknownKeys ["matchLabels", "matchExpressions"] entries = []
  labels : ∃ pairs, labelPairs entries = .ok pairs ∧
    ∀ pair ∈ pairs, ∃ requirement, readRequirement (.text pair.1) (.text "In") [pair.2] = .ok requirement
  expressions : ∃ before expression after,
    Value.entry entries "matchExpressions" = .list (before ++ .fields expression :: after) ∧
      (∀ earlier ∈ before, ∃ requirement, readExpression earlier = .ok requirement) ∧ Compound expression operator

/-- The reader of the selector comes to an operator that is a list or a mapping. -/
def Stuck (raw operator : Value) : Prop := ∃ entries, raw = .fields entries ∧ ReachesCompound entries operator

/-- The fault of an operator that cannot be looked up. -/
def operatorFault (operator : Value) : Fault := .object (.noName operator.kindName)

/-- Where there is no operator to be found, the reader fails unless the key is refused before. -/
theorem readRequirement_fails (key operator : Value) (values : List Value) : FailsBy (fun fault => fault.Malformed ∨
    operator.isScalar = false ∧ (∃ text, readKey key = .ok text) ∧ fault = operatorFault operator)
    (readRequirement key operator values) := by
  cases hscalar : operator.isScalar with
  | true => exact (readRequirement_refuses hscalar key values).mono fun _ => .inl
  | false =>
    rw [readRequirement_of_not_scalar hscalar]
    exact ((readKey_refuses key).mono fun _ => .inl).bind_of fun text hkey => .error (.inr ⟨rfl, ⟨text, hkey⟩, rfl⟩)

/-- An expression with known fields and a list of values, which may be missing, is one requirement. -/
theorem readExpression_eq {items : List Value} (hknown : unknownKeys ["key", "operator", "values"] entries = [])
    (hvalues : Value.entry entries "values" = .null ∧ items = [] ∨ Value.entry entries "values" = .list items) :
    readExpression (.fields entries) =
      readRequirement (Value.entry entries "key") (Value.entry entries "operator") items := by
  unfold readExpression
  simp only [Value.entries?, hknown]
  rcases hvalues with ⟨hvalues, rfl⟩ | hvalues
  all_goals
    rw [hvalues]
    rfl

theorem readExpression_fails (expression : Value) : FailsBy (fun fault => fault.Malformed ∨
    ∃ entries operator, expression = .fields entries ∧ Compound entries operator ∧ fault = operatorFault operator)
    (readExpression expression) := by
  have hrefuse (error : SelectorError) : (Fault.selector error).Malformed := ⟨error, rfl⟩
  cases expression with
  | fields entries =>
    cases hknown : unknownKeys ["key", "operator", "values"] entries with
    | cons name names =>
      simp only [readExpression, Value.entries?, hknown]
      exact .error (.inl (hrefuse _))
    | nil =>
      have hread (items : List Value) (hlist : Value.entry entries "values" = .null ∨
          ∃ items, Value.entry entries "values" = .list items)
          (heq : readExpression (.fields entries) =
            readRequirement (Value.entry entries "key") (Value.entry entries "operator") items) :
          FailsBy (fun fault => fault.Malformed ∨ ∃ found operator, Value.fields entries = .fields found ∧
            Compound found operator ∧ fault = operatorFault operator) (readExpression (.fields entries)) := by
        rw [heq]
        refine (readRequirement_fails _ _ _).mono fun fault hfault => hfault.imp_right ?_
        rintro ⟨hcompound, hkey, rfl⟩
        exact ⟨entries, _, rfl, ⟨hknown, hlist, hkey, rfl, hcompound⟩, rfl⟩
      cases hvalues : Value.entry entries "values" with
      | null => exact hread [] (.inl hvalues) (readExpression_eq hknown (.inl ⟨hvalues, rfl⟩))
      | list items => exact hread items (.inr ⟨items, hvalues⟩) (readExpression_eq hknown (.inr hvalues))
      | _ =>
        simp only [readExpression, Value.entries?, hknown, hvalues]
        exact .error (.inl (hrefuse _))
  | _ => exact .error (.inl (hrefuse _))

theorem Compound.read (h : Compound entries operator) :
    readExpression (.fields entries) = .error (operatorFault operator) := by
  obtain ⟨hknown, hvalues, ⟨text, hkey⟩, rfl, hcompound⟩ := h
  have hfound (items : List Value) :
      readRequirement (Value.entry entries "key") (Value.entry entries "operator") items =
        .error (operatorFault (Value.entry entries "operator")) := by
    rw [readRequirement_of_not_scalar hcompound, hkey]
    rfl
  rcases hvalues with hvalues | ⟨items, hvalues⟩
  · rw [readExpression_eq hknown (.inl ⟨hvalues, rfl⟩), hfound]
  · rw [readExpression_eq hknown (.inr hvalues), hfound]

/-- A selector with known fields is read from its labels and then from its expressions. -/
theorem readMapping_eq (hknown : unknownKeys ["matchLabels", "matchExpressions"] entries = []) :
    readMapping entries = (do
      let pairs ← labelPairs entries
      let equalities ← pairs.mapM fun (key, value) => readRequirement (.text key) (.text "In") [value]
      let items ← expressionItems entries
      return ⟨equalities ++ (← items.mapM readExpression)⟩) := by
  unfold readMapping labelPairs expressionItems
  simp only [hknown]
  generalize Value.entry entries "matchLabels" = labels, Value.entry entries "matchExpressions" = expressions
  cases labels.truthy
  · cases expressions.truthy
    · rfl
    · cases expressions <;> rfl
  · cases expressions.truthy
    · cases labels <;> rfl
    · cases labels <;> cases expressions <;> rfl

theorem expressionItems_eq_ok_iff {items : List Value} : expressionItems entries = .ok items ↔
    (Value.entry entries "matchExpressions").truthy = false ∧ items = [] ∨
      (Value.entry entries "matchExpressions").truthy = true ∧
        Value.entry entries "matchExpressions" = .list items := by
  unfold expressionItems
  generalize Value.entry entries "matchExpressions" = expressions
  cases expressions.truthy
  · simp [eq_comm]
  · cases expressions <;> simp

theorem readMapping_fails (entries : List (String × Value)) : FailsBy (fun fault => fault.Malformed ∨
    ∃ operator, ReachesCompound entries operator ∧ fault = operatorFault operator) (readMapping entries) := by
  cases hknown : unknownKeys ["matchLabels", "matchExpressions"] entries with
  | cons name names =>
    simp only [readMapping, hknown]
    exact .error (.inl ⟨_, rfl⟩)
  | nil =>
    rw [readMapping_eq hknown]
    have hlabels : Refuses (labelPairs entries) := by
      unfold labelPairs
      split
      · exact .ok
      · exact .ok
      · exact .selector
    have hitems : Refuses (expressionItems entries) := by
      unfold expressionItems
      split
      · exact .ok
      · exact .ok
      · exact .selector
    refine (hlabels.mono fun _ => .inl).bind_of fun pairs hpairs => ?_
    have hequality (pair : String × Value) : Refuses (readRequirement (.text pair.1) (.text "In") [pair.2]) :=
      readRequirement_refuses rfl _ _
    have hequalities := FailsBy.mapM hequality pairs
    refine (hequalities.mono fun _ => .inl).bind_of fun equalities hread => ?_
    refine (hitems.mono fun _ => .inl).bind_of fun items hlisted => .bind (.mapM_of ?_) fun _ => .ok
    -- the reader has come to an expression, and has refused nothing
    rintro before expression after rfl hbefore
    refine (readExpression_fails expression).mono fun fault hfault => hfault.imp_right ?_
    rintro ⟨fields, operator, rfl, hcompound, rfl⟩
    have hequal := mapM_ok_of_mem hread
    refine ⟨operator, ⟨hknown, ⟨pairs, hpairs, hequal⟩, before, fields, after, ?_, hbefore, hcompound⟩, rfl⟩
    rcases expressionItems_eq_ok_iff.mp hlisted with ⟨-, hnil⟩ | ⟨-, hlist⟩
    · simp at hnil
    · exact hlist

theorem ReachesCompound.read (h : ReachesCompound entries operator) :
    readMapping entries = .error (operatorFault operator) := by
  obtain ⟨hknown, ⟨pairs, hpairs, hlabels⟩, before, fields, after, hlist, hbefore, hcompound⟩ := h
  have hitems : expressionItems entries = .ok (before ++ .fields fields :: after) :=
    expressionItems_eq_ok_iff.mpr (.inr ⟨by simp [hlist, Value.truthy], hlist⟩)
  obtain ⟨equalities, hread⟩ := exists_mapM_ok hlabels
  have hstuck : (before ++ .fields fields :: after).mapM readExpression = .error (operatorFault operator) :=
    mapM_eq_error hbefore hcompound.read
  rw [readMapping_eq hknown, hpairs]
  simp only [bind, Except.bind] at hread hstuck ⊢
  rw [hread]
  simp only [hitems, hstuck]

theorem read_fails (raw : Value) : FailsBy (fun fault => fault.Malformed ∨
    ∃ operator, Stuck raw operator ∧ fault = operatorFault operator) (read raw) := by
  unfold LabelSelector.read
  split
  · exact .ok
  · exact (readText_refuses _).mono fun _ => .inl
  · rename_i entries
    refine (readMapping_fails entries).mono fun fault hfault => hfault.imp_right ?_
    rintro ⟨operator, hreaches, rfl⟩
    exact ⟨operator, ⟨entries, rfl, hreaches⟩, rfl⟩
  · exact .error (.inl ⟨_, rfl⟩)

theorem Stuck.read {raw : Value} (h : Stuck raw operator) : read raw = .error (operatorFault operator) := by
  obtain ⟨entries, rfl, hreaches⟩ := h
  exact hreaches.read

/-- Unless the reader comes to an operator that is a list or a mapping, it fails only by refusing the selector. -/
theorem malformed_iff {raw : Value} (h : read raw = .error fault) : fault.Malformed ↔ ¬∃ operator, Stuck raw operator := by
  constructor
  · rintro ⟨error, rfl⟩ ⟨operator, hstuck⟩
    cases h.symm.trans hstuck.read
  · exact fun hstuck => (read_fails raw fault h).resolve_right fun ⟨operator, hoperator, _⟩ => hstuck ⟨operator, hoperator⟩

theorem read_refuses (raw : Value) : FailsBy Fault.OfReading (read raw) :=
  (read_fails raw).mono fun _ hfault => hfault.imp_right fun ⟨_, _, hfault⟩ => ⟨_, hfault⟩

end Stuck

end LabelSelector
end NamespaceOwnership
