import NamespaceOwnership.Proofs.Reading
import NamespaceOwnership.Proofs.Selector.Grammar

/-!
# Selectors that are accepted

A requirement that is read has a key and values of the grammar, but for line feeds that were overlooked, and as many
values as its operator allows. In the mapping that it is read from, `matchLabels` is a mapping and `matchExpressions` a
list of mappings, or they are missing; but any empty value counts as missing. So a selector is accepted as its language
has it (`LabelSelector.Proper`) exactly if neither field is an empty value of another kind and there is no line feed in
a key or a value.
-/
namespace NamespaceOwnership

open LabelSyntax

namespace LabelSelector

theorem readKey_text {k : String} (h : LenientKey k.toList) : readKey (.text k) = .ok k := by
  have hne : k ≠ "" := fun hk => h.ne_nil (by simp [hk])
  rcases lenientKey_iff.mp h with ⟨domain, name, hcut, hdomain, hname⟩ | ⟨hcut, hname⟩
  · simp [readKey, hne, hcut, hdomain, hname]
  · simp [readKey, hne, hcut, hname]

theorem readKey_eq_ok_iff {key : Value} {k : String} :
    readKey key = .ok k ↔ key = .text k ∧ LenientKey k.toList := by
  refine ⟨fun h => ?_, fun ⟨hkey, h⟩ => hkey ▸ readKey_text h⟩
  rw [lenientKey_iff]
  unfold readKey at h
  split at h
  · split at h
    · cases h
    · split at h
      · rename_i domain name hcut
        cases hdomain : isSubdomain domain <;> cases hname : isName name <;> simp only [hdomain, hname] at h <;> cases h
        exact ⟨rfl, .inl ⟨domain, name, hcut, hdomain, hname⟩⟩
      · rename_i hcut
        split at h
        · cases h
        · rename_i hname
          cases h
          exact ⟨rfl, .inr ⟨hcut, by simpa using hname⟩⟩
  · cases h

theorem readValue_eq_ok_iff {value : Value} {v : String} :
    readValue value = .ok v ↔ value = .text v ∧ LenientValue v.toList := by
  rw [← isValue_iff]
  constructor
  · intro h
    unfold readValue at h
    split at h
    · split at h
      · rename_i hvalue
        cases h
        exact ⟨rfl, hvalue⟩
      · cases h
    · cases h
  · rintro ⟨rfl, hvalue⟩
    simp [readValue, hvalue]

theorem mapM_readValue_eq_ok_iff {values : List Value} {texts : List String} :
    values.mapM readValue = .ok texts ↔ values = texts.map .text ∧ ∀ v ∈ texts, LenientValue v.toList := by
  simp only [mapM_eq_ok_iff, readValue_eq_ok_iff]
  constructor
  · intro h
    induction h with
    | nil => simp
    | cons hv _ ih => exact ⟨by rw [hv.1, ih.1, List.map_cons], List.forall_mem_cons.mpr ⟨hv.2, ih.2⟩⟩
  · rintro ⟨rfl, htexts⟩
    induction texts with
    | nil => exact .nil
    | cons v vs ih =>
      obtain ⟨hv, hvs⟩ := List.forall_mem_cons.mp htexts
      exact .cons ⟨rfl, hv⟩ (ih hvs)

/-- What an operator and values say of a key. -/
inductive Requires (k : String) : Value → List Value → Requirement → Prop
  | oneOf {texts : List String} (hsome : texts ≠ []) (htexts : ∀ v ∈ texts, LenientValue v.toList) :
      Requires k (.text "In") (texts.map .text) (.oneOf k (valueSet texts))
  | noneOf {texts : List String} (hsome : texts ≠ []) (htexts : ∀ v ∈ texts, LenientValue v.toList) :
      Requires k (.text "NotIn") (texts.map .text) (.noneOf k (valueSet texts))
  | present : Requires k (.text "Exists") [] (.present k)
  | absent : Requires k (.text "DoesNotExist") [] (.absent k)

private theorem someValues_eq_ok_iff {values : List Value} {fault : Fault} {make : List String → Requirement}
    {r : Requirement} :
    (do
      if values.isEmpty then (.error fault : Except Fault Unit)
      return make (valueSet (← values.mapM readValue))) = .ok r ↔
      ∃ texts, texts ≠ [] ∧ values = texts.map .text ∧ (∀ v ∈ texts, LenientValue v.toList) ∧
        make (valueSet texts) = r := by
  cases values with
  | nil =>
    constructor
    · nofun
    · rintro ⟨texts, hne, hnil, -⟩
      exact absurd (List.map_eq_nil_iff.mp hnil.symm) hne
  | cons value values =>
    have hread : (do return make (valueSet (← (value :: values).mapM readValue))) = Except.ok r ↔
        ∃ texts, value :: values = texts.map .text ∧ (∀ v ∈ texts, LenientValue v.toList) ∧
          make (valueSet texts) = r := by
      simp only [bind_eq_ok_iff, mapM_readValue_eq_ok_iff, pure, Except.pure, Except.ok.injEq, and_assoc]
    refine hread.trans ⟨fun ⟨texts, hvalues, h⟩ => ⟨texts, ?_, hvalues, h⟩, fun ⟨texts, _, h⟩ => ⟨texts, h⟩⟩
    rintro rfl
    cases hvalues

private theorem noValues_eq_ok_iff {values : List Value} {fault : Fault} {made r : Requirement} :
    (if values.isEmpty then pure made else .error fault) = Except.ok r ↔ values = [] ∧ made = r := by
  cases values with
  | nil => simp [pure, Except.pure]
  | cons => simp

theorem readRequirement_eq_ok_iff {key operator : Value} {values : List Value} {r : Requirement} :
    readRequirement key operator values = .ok r ↔
      ∃ k, key = .text k ∧ LenientKey k.toList ∧ Requires k operator values r := by
  unfold readRequirement
  rw [bind_eq_ok_iff]
  constructor
  · rintro ⟨k, hkey, h⟩
    obtain ⟨rfl, hk⟩ := readKey_eq_ok_iff.mp hkey
    refine ⟨k, rfl, hk, ?_⟩
    dsimp only at h
    split at h
    · obtain ⟨texts, hsome, rfl, htexts, rfl⟩ := someValues_eq_ok_iff.mp h
      exact .oneOf hsome htexts
    · obtain ⟨texts, hsome, rfl, htexts, rfl⟩ := someValues_eq_ok_iff.mp h
      exact .noneOf hsome htexts
    · obtain ⟨rfl, rfl⟩ := noValues_eq_ok_iff.mp h
      exact .present
    · obtain ⟨rfl, rfl⟩ := noValues_eq_ok_iff.mp h
      exact .absent
    · cases h
    · cases h
    · cases h
  · rintro ⟨k, rfl, hk, h⟩
    refine ⟨k, readKey_text hk, ?_⟩
    cases h with
    | oneOf hsome htexts => exact someValues_eq_ok_iff.mpr ⟨_, hsome, rfl, htexts, rfl⟩
    | noneOf hsome htexts => exact someValues_eq_ok_iff.mpr ⟨_, hsome, rfl, htexts, rfl⟩
    | present => rfl
    | absent => rfl

theorem readExpression_eq_ok_iff {expression : Value} {r : Requirement} :
    readExpression expression = .ok r ↔ ∃ fields items, expression = .fields fields ∧
      unknownKeys ["key", "operator", "values"] fields = [] ∧
      (Value.entry fields "values" = .null ∧ items = [] ∨ Value.entry fields "values" = .list items) ∧
      readRequirement (Value.entry fields "key") (Value.entry fields "operator") items = .ok r := by
  constructor
  · intro h
    cases expression with
    | fields fields =>
      cases hknown : unknownKeys ["key", "operator", "values"] fields with
      | cons name names =>
        simp only [readExpression, Value.entries?, hknown] at h
        cases h
      | nil =>
        cases hvalues : Value.entry fields "values" with
        | null =>
          rw [readExpression_eq hknown (.inl ⟨hvalues, rfl⟩)] at h
          exact ⟨fields, [], rfl, hknown, .inl ⟨hvalues, rfl⟩, h⟩
        | list items =>
          rw [readExpression_eq hknown (.inr hvalues)] at h
          exact ⟨fields, items, rfl, hknown, .inr hvalues, h⟩
        | _ =>
          simp only [readExpression, Value.entries?, hknown, hvalues] at h
          cases h
    | _ => cases h
  · rintro ⟨fields, items, rfl, hknown, hvalues, h⟩
    rw [readExpression_eq hknown hvalues, h]

theorem labelPairs_eq_ok_iff {entries pairs : List (String × Value)} : labelPairs entries = .ok pairs ↔
    (Value.entry entries "matchLabels").truthy = false ∧ pairs = [] ∨
      (Value.entry entries "matchLabels").truthy = true ∧ Value.entry entries "matchLabels" = .fields pairs := by
  unfold labelPairs
  generalize Value.entry entries "matchLabels" = labels
  cases labels.truthy
  · simp [eq_comm]
  · cases labels <;> simp

theorem labelPairs_of_fields {entries pairs : List (String × Value)}
    (h : Value.entry entries "matchLabels" = .fields pairs) : labelPairs entries = .ok pairs :=
  labelPairs_eq_ok_iff.mpr (by cases pairs <;> simp [h, Value.truthy])

theorem expressionItems_of_list {entries : List (String × Value)} {items : List Value}
    (h : Value.entry entries "matchExpressions" = .list items) : expressionItems entries = .ok items :=
  expressionItems_eq_ok_iff.mpr (by cases items <;> simp [h, Value.truthy])

theorem readMapping_eq_ok_iff {entries : List (String × Value)} {s : LabelSelector} : readMapping entries = .ok s ↔
    unknownKeys ["matchLabels", "matchExpressions"] entries = [] ∧ ∃ pairs equalities items expressions,
      labelPairs entries = .ok pairs ∧
      List.Forall₂ (fun pair r => readRequirement (.text pair.1) (.text "In") [pair.2] = .ok r) pairs equalities ∧
      expressionItems entries = .ok items ∧
      List.Forall₂ (fun item r => readExpression item = .ok r) items expressions ∧
      s = ⟨equalities ++ expressions⟩ := by
  cases hknown : unknownKeys ["matchLabels", "matchExpressions"] entries with
  | cons name names =>
    simp only [readMapping, hknown]
    constructor
    · intro h
      cases h
    · rintro ⟨h, -⟩
      cases h
  | nil =>
    simp only [readMapping_eq hknown, bind_eq_ok_iff, mapM_eq_ok_iff, pure, Except.pure, Except.ok.injEq, true_and]
    constructor
    · rintro ⟨pairs, hpairs, equalities, hequalities, items, hitems, expressions, hexpressions, rfl⟩
      exact ⟨pairs, equalities, items, expressions, hpairs, hequalities, hitems, hexpressions, rfl⟩
    · rintro ⟨pairs, equalities, items, expressions, hpairs, hequalities, hitems, hexpressions, rfl⟩
      exact ⟨pairs, hpairs, equalities, hequalities, items, hitems, expressions, hexpressions, rfl⟩

end LabelSelector

namespace Requirement

variable {r : Requirement}

/-- Its key and its values are of a grammar, and there are as many values as the operator allows. -/
structure Formed (keys values : List Char → Prop) (r : Requirement) : Prop where
  key : keys r.key.toList
  values : ∀ v ∈ r.values, values v.toList
  some : r.operatorName = "In" ∨ r.operatorName = "NotIn" → r.values ≠ []
  none : r.operatorName = "Exists" ∨ r.operatorName = "DoesNotExist" → r.values = []

abbrev WellFormed : Requirement → Prop := Formed KeyText ValueText

def HasLineFeed (r : Requirement) : Prop := '\n' ∈ r.key.toList ∨ ∃ v ∈ r.values, '\n' ∈ v.toList

theorem values_eq_nil (r : Requirement) (h : r.operatorName = "Exists" ∨ r.operatorName = "DoesNotExist") :
    r.values = [] := by
  cases r <;> simp [operatorName, values] at h ⊢

theorem Formed.wellFormed_iff (h : r.Formed LenientKey LenientValue) : r.WellFormed ↔ ¬r.HasLineFeed := by
  have hvalues : (∀ v ∈ r.values, ValueText v.toList) ↔ ∀ v ∈ r.values, '\n' ∉ v.toList :=
    forall₂_congr fun v hv => (h.values v hv).exact_iff
  simp only [HasLineFeed, not_or, not_exists, not_and]
  constructor
  · exact fun hwell => ⟨h.key.exact_iff.mp hwell.key, hvalues.mp hwell.values⟩
  · exact fun ⟨hkey, hall⟩ => ⟨h.key.exact_iff.mpr hkey, hvalues.mpr hall, h.some, h.none⟩

end Requirement

namespace LabelSelector

variable {entries : List (String × Value)} {s : LabelSelector}

theorem valueSet_ne_nil {texts : List String} (h : texts ≠ []) : valueSet texts ≠ [] := by
  obtain ⟨v, hv⟩ := List.exists_mem_of_ne_nil texts h
  exact List.ne_nil_of_mem (mem_valueSet.mpr hv)

theorem Requires.formed {k : String} {operator : Value} {values : List Value} {r : Requirement}
    (hk : LenientKey k.toList) (h : Requires k operator values r) : r.Formed LenientKey LenientValue := by
  cases h with
  | oneOf hsome htexts =>
    exact ⟨hk, fun v hv => htexts v (mem_valueSet.mp hv), fun _ => valueSet_ne_nil hsome, Requirement.values_eq_nil _⟩
  | noneOf hsome htexts =>
    exact ⟨hk, fun v hv => htexts v (mem_valueSet.mp hv), fun _ => valueSet_ne_nil hsome, Requirement.values_eq_nil _⟩
  | present => exact ⟨hk, nofun, fun h => by simp [Requirement.operatorName] at h, Requirement.values_eq_nil _⟩
  | absent => exact ⟨hk, nofun, fun h => by simp [Requirement.operatorName] at h, Requirement.values_eq_nil _⟩

/-- A selector comes from fields of the right kinds, which may be missing, and its requirements are well formed. Only
where both fields say nothing is it without requirements, so that it selects everything. -/
structure Sound (missing : Value → Prop) (keys values : List Char → Prop) (entries : List (String × Value))
    (s : LabelSelector) : Prop where
  labels : missing (Value.entry entries "matchLabels") ∨ ∃ pairs, Value.entry entries "matchLabels" = .fields pairs
  expressions : missing (Value.entry entries "matchExpressions") ∨
    ∃ items, Value.entry entries "matchExpressions" = .list items ∧ ∀ item ∈ items, ∃ fields, item = .fields fields
  requirements : ∀ r ∈ s.requirements, r.Formed keys values
  unrestricted : s.requirements = [] →
    (missing (Value.entry entries "matchLabels") ∨ Value.entry entries "matchLabels" = .fields []) ∧
      (missing (Value.entry entries "matchExpressions") ∨ Value.entry entries "matchExpressions" = .list [])

abbrev Proper : List (String × Value) → LabelSelector → Prop := Sound (· = .null) KeyText ValueText

abbrev Tolerable : List (String × Value) → LabelSelector → Prop := Sound (·.truthy = false) LenientKey LenientValue

theorem tolerable_of_readMapping (h : readMapping entries = .ok s) : Tolerable entries s := by
  obtain ⟨-, pairs, equalities, items, expressions, hpairs, hequalities, hitems, hexpressions, rfl⟩ :=
    readMapping_eq_ok_iff.mp h
  refine ⟨?_, ?_, fun r hr => ?_, fun hnone => ?_⟩
  · exact (labelPairs_eq_ok_iff.mp hpairs).imp And.left fun h => ⟨pairs, h.2⟩
  · refine (expressionItems_eq_ok_iff.mp hitems).imp And.left fun h => ⟨items, h.2, fun item hitem => ?_⟩
    obtain ⟨r, -, hr⟩ := exists_of_forall₂ hexpressions item hitem
    obtain ⟨fields, _, hfields, -⟩ := readExpression_eq_ok_iff.mp hr
    exact ⟨fields, hfields⟩
  · have hread : ∃ key operator values, readRequirement key operator values = .ok r := by
      rcases List.mem_append.mp hr with hr | hr
      · obtain ⟨pair, -, hpair⟩ := exists_of_forall₂ hequalities.flip r hr
        exact ⟨_, _, _, hpair⟩
      · obtain ⟨item, -, hitem⟩ := exists_of_forall₂ hexpressions.flip r hr
        obtain ⟨fields, values, -, -, -, hfields⟩ := readExpression_eq_ok_iff.mp hitem
        exact ⟨_, _, _, hfields⟩
    obtain ⟨key, operator, values, hread⟩ := hread
    obtain ⟨k, -, hk, hrequires⟩ := readRequirement_eq_ok_iff.mp hread
    exact hrequires.formed hk
  · obtain ⟨rfl, rfl⟩ := List.append_eq_nil_iff.mp hnone
    obtain rfl := List.forall₂_nil_right_iff.mp hequalities
    obtain rfl := List.forall₂_nil_right_iff.mp hexpressions
    exact ⟨(labelPairs_eq_ok_iff.mp hpairs).imp And.left And.right,
      (expressionItems_eq_ok_iff.mp hitems).imp And.left And.right⟩

/-- An empty value that is neither null nor the one that belongs there. -/
def Mistaken (proper v : Value) : Prop := v.truthy = false ∧ v ≠ .null ∧ v ≠ proper

theorem missing_of_not_mistaken {proper v : Value} (h : ¬Mistaken proper v) (hempty : v.truthy = false) :
    v = .null ∨ v = proper := by
  by_contra hneither
  exact h ⟨hempty, fun hnull => hneither (.inl hnull), fun hproper => hneither (.inr hproper)⟩

/-- Every mapping that is accepted is tolerable. It is proper unless one of its fields is an empty value of another
kind, or a line feed was overlooked. -/
theorem accepted_proper_iff (h : LabelSelector.read (.fields entries) = .ok s) :
    Tolerable entries s ∧
      (Proper entries s ↔ ¬Mistaken (.fields []) (Value.entry entries "matchLabels") ∧
        ¬Mistaken (.list []) (Value.entry entries "matchExpressions") ∧ ∀ r ∈ s.requirements, ¬r.HasLineFeed) := by
  have hsound : Tolerable entries s := tolerable_of_readMapping h
  refine ⟨hsound, fun hproper => ⟨?_, ?_, fun r hr => ?_⟩, ?_⟩
  · rintro ⟨hempty, hnull, hother⟩
    obtain ⟨pairs, hpairs⟩ := hproper.labels.resolve_left hnull
    cases pairs with
    | nil => exact hother hpairs
    | cons => simp [hpairs, Value.truthy] at hempty
  · rintro ⟨hempty, hnull, hother⟩
    obtain ⟨items, hitems, -⟩ := hproper.expressions.resolve_left hnull
    cases items with
    | nil => exact hother hitems
    | cons => simp [hitems, Value.truthy] at hempty
  · exact (hsound.requirements r hr).wellFormed_iff.mp (hproper.requirements r hr)
  · rintro ⟨hlabels, hexpressions, hplain⟩
    have hpairs := missing_of_not_mistaken hlabels
    have hitems := missing_of_not_mistaken hexpressions
    refine ⟨?_, ?_, fun r hr => (hsound.requirements r hr).wellFormed_iff.mpr (hplain r hr), fun hnone => ?_⟩
    · exact hsound.labels.elim (fun hempty => (hpairs hempty).imp_right fun h => ⟨[], h⟩) .inr
    · exact hsound.expressions.elim (fun hempty => (hitems hempty).imp_right fun h => ⟨[], h, by simp⟩) .inr
    · obtain ⟨hnoLabels, hnoExpressions⟩ := hsound.unrestricted hnone
      exact ⟨hnoLabels.elim hpairs .inr, hnoExpressions.elim hitems .inr⟩

/-- An expression without values. -/
private def bare (key operator : String) : Value := .fields [("key", .text key), ("operator", .text operator)]

private theorem bare_read {key operator : String} {r : Requirement}
    (h : readRequirement (.text key) (.text operator) [] = .ok r) : readExpression (bare key operator) = .ok r :=
  (readExpression_eq (by simp [unknownKeys]) (.inl ⟨rfl, rfl⟩)).trans h

/-- `env In prod` in the labels and `tier Exists` among the expressions. -/
private def ordinary : List (String × Value) :=
  [("matchLabels", .fields [("env", .text "prod")]), ("matchExpressions", .list [bare "tier" "Exists"])]

private theorem ordinary_read :
    LabelSelector.read (.fields ordinary) = .ok ⟨[.oneOf "env" (valueSet ["prod"]), .present "tier"]⟩ :=
  readMapping_eq_ok_iff.mpr ⟨by simp [unknownKeys, ordinary], _, _, _, _, rfl, .cons rfl .nil, rfl,
    .cons (bare_read rfl) .nil, rfl⟩

theorem accepted_proper_iff_ordinary : ∃ s, LabelSelector.read (.fields ordinary) = .ok s ∧ Proper ordinary s := by
  refine ⟨_, ordinary_read, (accepted_proper_iff ordinary_read).2.mpr ⟨?_, ?_, ?_⟩⟩
  · exact fun h => absurd h.1 (by decide)
  · exact fun h => absurd h.1 (by decide)
  · simp [Requirement.HasLineFeed, Requirement.key, Requirement.values, mem_valueSet]

/-- An empty list in the place of the labels is read as a selector of everything, and a line feed at the end of a key as
a part of it. -/
theorem empty_list_selects_everything :
    (LabelSelector.read (.fields [("matchLabels", .list [])]) = .ok .everything ∧
      ¬Proper [("matchLabels", .list [])] .everything) ∧
    ∃ entries s, LabelSelector.read (.fields entries) = .ok s ∧ ¬Proper entries s ∧
      s.requirements = [.present "env\n"] := by
  refine ⟨⟨readMapping_eq_ok_iff.mpr ⟨by simp [unknownKeys], [], [], [], [], rfl, .nil, rfl, .nil, rfl⟩, fun h => ?_⟩,
    [("matchExpressions", .list [bare "env\n" "Exists"])], ⟨[.present "env\n"]⟩,
    readMapping_eq_ok_iff.mpr ⟨by simp [unknownKeys], [], [], _, _, rfl, .nil, rfl, .cons (bare_read rfl) .nil, rfl⟩,
    fun h => ?_, rfl⟩
  · rcases h.labels with h | ⟨_, h⟩ <;> cases h
  · exact KeyText.no_lineFeed _ (h.requirements _ List.mem_cons_self).key (by decide)

end LabelSelector
end NamespaceOwnership
