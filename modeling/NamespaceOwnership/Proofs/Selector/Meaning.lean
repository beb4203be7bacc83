import NamespaceOwnership.Proofs.Ascending
import NamespaceOwnership.Proofs.Selector.Acceptance
import NamespaceOwnership.Selector.Selection

/-!
# What a selector means

The meaning of a mapping of labels and expressions is said of its raw fields (`LabelSelector.Chooses`), without the
requirements that they are read into. A selector that is accepted selects the labels that it chooses, so the names
selected from a list of namespaces are those of the chosen ones, the operator's own excepted, in ascending order and as
often as they are listed; and a single namespace is judged in the same way.
-/
namespace NamespaceOwnership.LabelSelector

variable {labels : Labels} {entries : List (String × Value)} {s : LabelSelector}

/-- The label of a key is as an operator and raw values want it. -/
def Fulfils (labels : Labels) (k : String) (operator : Value) (values : List Value) : Prop :=
  match operator with
  | .text "In" => ∃ v, labels.get? k = some v ∧ .text v ∈ values
  | .text "NotIn" => ∀ v, labels.get? k = some v → .text v ∉ values
  | .text "Exists" => ∃ v, labels.get? k = some v
  | .text "DoesNotExist" => labels.get? k = none
  | _ => False

/-- The labels are as a mapping with a key, an operator and a list of values, which may be missing, wants them. -/
def Satisfies (labels : Labels) (expression : Value) : Prop :=
  ∃ fields k values, expression = .fields fields ∧ Value.entry fields "key" = .text k ∧
    (Value.entry fields "values" = .null ∧ values = [] ∨ Value.entry fields "values" = .list values) ∧
    Fulfils labels k (Value.entry fields "operator") values

/-- The labels are as every one of the labels and of the expressions of a selector wants them. -/
structure Chooses (entries : List (String × Value)) (given : Labels) : Prop where
  labels : ∀ pairs, Value.entry entries "matchLabels" = .fields pairs →
    ∀ pair ∈ pairs, ∃ v, pair.2 = .text v ∧ given.get? pair.1 = some v
  expressions : ∀ items, Value.entry entries "matchExpressions" = .list items → ∀ item ∈ items, Satisfies given item

theorem Requires.holds_iff {k : String} {operator : Value} {values : List Value} {r : Requirement}
    (h : Requires k operator values r) : r.holds labels = true ↔ Fulfils labels k operator values := by
  cases h with
  | oneOf => cases hlabel : labels.get? k <;> simp [Requirement.holds, Fulfils, mem_valueSet, hlabel]
  | noneOf => cases hlabel : labels.get? k <;> simp [Requirement.holds, Fulfils, mem_valueSet, hlabel]
  | present => simp [Requirement.holds, Fulfils, TextMap.contains, Option.isSome_iff_exists]
  | absent => simp [Requirement.holds, Fulfils, TextMap.contains]

theorem holds_iff_of_readLabel {pair : String × Value} {r : Requirement}
    (h : readRequirement (.text pair.1) (.text "In") [pair.2] = .ok r) :
    r.holds labels = true ↔ ∃ v, pair.2 = .text v ∧ labels.get? pair.1 = some v := by
  obtain ⟨k, hk, -, hrequires⟩ := readRequirement_eq_ok_iff.mp h
  cases hk
  simp only [hrequires.holds_iff, Fulfils, List.mem_singleton, and_comm, eq_comm]

theorem holds_iff_of_readExpression {expression : Value} {r : Requirement} (h : readExpression expression = .ok r) :
    r.holds labels = true ↔ Satisfies labels expression := by
  obtain ⟨fields, values, rfl, -, hvalues, hread⟩ := readExpression_eq_ok_iff.mp h
  obtain ⟨k, hk, -, hrequires⟩ := readRequirement_eq_ok_iff.mp hread
  rw [hrequires.holds_iff]
  constructor
  · exact fun hfulfils => ⟨fields, k, values, rfl, hk, hvalues, hfulfils⟩
  · rintro ⟨fields', k', values', hfields, hk', hvalues', hfulfils⟩
    cases hfields
    obtain rfl : k = k' := Value.text.inj (hk.symm.trans hk')
    have hsame : values = values' := by
      rcases hvalues with ⟨hnull, rfl⟩ | hlist <;> rcases hvalues' with ⟨hnull', rfl⟩ | hlist' <;> simp_all
    rwa [hsame]

/-- What holds of all elements of a list is what is said of all those that they are related to. -/
private theorem forall_mem_iff_of_forall₂ {α β : Type} {R : α → β → Prop} {p : α → Prop} {q : β → Prop} {as : List α}
    {bs : List β} (h : List.Forall₂ R as bs) (hpq : ∀ a b, R a b → (q b ↔ p a)) : (∀ b ∈ bs, q b) ↔ ∀ a ∈ as, p a := by
  induction h with
  | nil => simp
  | cons hab _ ih => rw [List.forall_mem_cons, List.forall_mem_cons, hpq _ _ hab, ih]

theorem selects_iff_chooses (h : readMapping entries = .ok s) : s.selects labels = true ↔ Chooses entries labels := by
  obtain ⟨-, pairs, equalities, items, expressions, hpairs, hequalities, hitems, hexpressions, rfl⟩ :=
    readMapping_eq_ok_iff.mp h
  have hlabels : (∀ r ∈ equalities, r.holds labels = true) ↔
      ∀ pair ∈ pairs, ∃ v, pair.2 = .text v ∧ labels.get? pair.1 = some v :=
    forall_mem_iff_of_forall₂ hequalities fun _ _ => holds_iff_of_readLabel
  have hsatisfied : (∀ r ∈ expressions, r.holds labels = true) ↔ ∀ item ∈ items, Satisfies labels item :=
    forall_mem_iff_of_forall₂ hexpressions fun _ _ => holds_iff_of_readExpression
  rw [selects_iff, List.forall_mem_append, hlabels, hsatisfied]
  constructor
  · rintro ⟨hall, hevery⟩
    refine ⟨fun written hwritten => ?_, fun listed hlisted => ?_⟩
    · rwa [Except.ok.inj (hpairs.symm.trans (labelPairs_of_fields hwritten))] at hall
    · rwa [Except.ok.inj (hitems.symm.trans (expressionItems_of_list hlisted))] at hevery
  · intro hchooses
    constructor
    · rcases labelPairs_eq_ok_iff.mp hpairs with ⟨-, rfl⟩ | ⟨-, hfields⟩
      · exact List.forall_mem_nil _
      · exact hchooses.labels pairs hfields
    · rcases expressionItems_eq_ok_iff.mp hitems with ⟨-, rfl⟩ | ⟨-, hlist⟩
      · exact List.forall_mem_nil _
      · exact hchooses.expressions items hlist

/-- Namespaces are judged one by one as their labels are chosen, the one of the operator being always refused; and from
any list of namespaces the names are selected that this verdict is in favour of, as often as they are listed. -/
theorem selection_follows_fields (h : LabelSelector.read (.fields entries) = .ok s) (operatorNamespace : String) :
    ∃ verdict : String → Labels → Bool,
      (∀ name given, selectsNamespace operatorNamespace (.fields entries) name given = .ok (verdict name given)) ∧
      (∀ name given, verdict name given = true ↔ name ≠ operatorNamespace ∧ Chooses entries given) ∧
      ∀ namespaces : List (String × Labels), ∃ names,
        selectedNames operatorNamespace (.fields entries) namespaces = .ok names ∧ names.Pairwise (· ≤ ·) ∧
          names.Perm ((namespaces.filter fun n => verdict n.1 n.2).map Prod.fst) := by
  refine ⟨fun name given => name != operatorNamespace && s.selects given, fun name given => ?_, fun name given => ?_,
    fun namespaces => ?_⟩
  · by_cases hname : name = operatorNamespace
    · simp [selectsNamespace, hname]
    · simp [selectsNamespace, hname, h]
  · rw [Bool.and_eq_true, selects_iff_chooses h, bne_iff_ne]
  · exact ⟨_, by rw [selectedNames, h]; rfl, ascending_mergeSort id _, List.mergeSort_perm _ _⟩

/-- `env = prod` in the labels and `tier NotIn (batch)` among the expressions. -/
private def production : List (String × Value) :=
  [("matchLabels", .fields [("env", .text "prod")]),
    ("matchExpressions", .list [.fields
      [("key", .text "tier"), ("operator", .text "NotIn"), ("values", .list [.text "batch"])]])]

private theorem production_read : LabelSelector.read (.fields production) =
    .ok ⟨[.oneOf "env" (valueSet ["prod"]), .noneOf "tier" (valueSet ["batch"])]⟩ :=
  readMapping_eq_ok_iff.mpr ⟨by simp [unknownKeys, production], _, _, _, _, rfl, .cons rfl .nil, rfl,
    .cons ((readExpression_eq (by simp [unknownKeys]) (.inr rfl)).trans rfl) .nil, rfl⟩

private theorem chooses_production_iff {given : Labels} : Chooses production given ↔
    given.get? "env" = some "prod" ∧ given.get? "tier" ≠ some "batch" := by
  rw [← selects_iff_chooses production_read]
  cases henv : given.get? "env" <;> cases htier : given.get? "tier" <;>
    simp [LabelSelector.selects, Requirement.holds, henv, htier, mem_valueSet]

private def listed : List (String × Labels) :=
  [("web", ⟨[("env", "prod")]⟩), ("dynatrace", ⟨[("env", "prod")]⟩), ("jobs", ⟨[("env", "prod"), ("tier", "batch")]⟩),
    ("api", ⟨[("env", "prod")]⟩), ("web", ⟨[("env", "prod")]⟩)]

/-- A name that is listed twice is selected twice, and the namespace of the operator is left out. -/
theorem selection_follows_fields_production : ∃ names,
    selectedNames "dynatrace" (.fields production) listed = .ok names ∧ names.Pairwise (· ≤ ·) ∧
      names.Perm ["web", "api", "web"] := by
  obtain ⟨verdict, -, hverdict, hselected⟩ := selection_follows_fields production_read "dynatrace"
  obtain ⟨names, hnames, hsorted, hperm⟩ := hselected listed
  refine ⟨names, hnames, hsorted, hperm.trans (.of_eq ?_)⟩
  have hdecided : ∀ name given, verdict name given = decide (name ≠ "dynatrace" ∧ given.get? "env" = some "prod" ∧
      given.get? "tier" ≠ some "batch") := fun name given => by
    rw [Bool.eq_iff_iff, hverdict, chooses_production_iff, decide_eq_true_iff]
  simp only [hdecided]
  decide

end NamespaceOwnership.LabelSelector
