import NamespaceOwnership.Proofs.Selector.Acceptance
import NamespaceOwnership.Proofs.Selector.Terms

/-!
# Selectors written as texts

A requirement can be spelled in several ways (`Spelling`), and white space may stand around everything it is made of.
A text whose terms spell requirements, with commas between them, is read as the mapping is that lists the same
requirements as expressions: as these requirements in the same order, with their values as sets. Values are not empty
here, since an empty one cannot be listed between parentheses.
-/
namespace NamespaceOwnership

open Text LabelSyntax

namespace Requirement

/-- Well formed, and without empty values. -/
abbrev Writable : Requirement → Prop := Formed KeyText NameText

/-- The requirement with its values as a set. -/
def settled : Requirement → Requirement
  | .oneOf k vs => .oneOf k (valueSet vs)
  | .noneOf k vs => .noneOf k (valueSet vs)
  | .present k => .present k
  | .absent k => .absent k

theorem settled_holds (r : Requirement) (labels : Labels) : r.settled.holds labels = r.holds labels := by
  cases r with
  | oneOf k vs => cases h : labels.get? k <;> simp [settled, holds, h, mem_valueSet]
  | noneOf k vs => cases h : labels.get? k <;> simp [settled, holds, h, mem_valueSet]
  | present k => rfl
  | absent k => rfl

/-- The requirement that a label is, or is not, among values. -/
def ranged : (excluded : Bool) → String → List String → Requirement
  | false => .oneOf
  | true => .noneOf

variable {excluded : Bool} {k : String} {vs : List String}

@[simp] theorem ranged_key : (ranged excluded k vs).key = k := by cases excluded <;> rfl

@[simp] theorem ranged_values : (ranged excluded k vs).values = vs := by cases excluded <;> rfl

@[simp] theorem ranged_operatorName : (ranged excluded k vs).operatorName = if excluded then "NotIn" else "In" := by
  cases excluded <;> rfl

end Requirement

namespace LabelSelector

/-- A text with white space around it. -/
def Padded (s t : List Char) : Prop := ∃ before after, Blank before ∧ Blank after ∧ t = before ++ s ++ after

/-- A requirement as a term: `k`, `!k`, `k=v`, `k==v`, `k!=v`, `k in (v, w)` or `k notin (v, w)`. -/
inductive Spelling : Requirement → List Char → Prop
  | present (k : String) : Spelling (.present k) k.toList
  | absent (k : String) {gap : List Char} (hgap : Blank gap) : Spelling (.absent k) ('!' :: (gap ++ k.toList))
  | compared {sign : List Char} {excluded : Bool} (hsign : Compares sign excluded) (k v : String) {gap gap' : List Char}
      (hgap : Blank gap) (hgap' : Blank gap') :
      Spelling (.ranged excluded k [v]) (k.toList ++ (gap ++ (sign ++ (gap' ++ v.toList))))
  | listed (excluded : Bool) (k : String) {vs : List String} {padded : List (List Char)} {gap gap' : List Char}
      (hgap : Blank gap) (hne : gap ≠ []) (hgap' : Blank gap')
      (hvalues : List.Forall₂ (fun v t => Padded v.toList t) vs padded) :
      Spelling (.ranged excluded k vs)
        (k.toList ++ (gap ++ (listOperator excluded ++ (gap' ++ '(' :: ([','].intercalate padded ++ [')'])))))

/-- Terms that spell the requirements, with commas between them. -/
def Spelled (rs : List Requirement) (text : List Char) : Prop :=
  ∃ terms, List.Forall₂ (fun r t => ∃ body, Spelling r body ∧ Padded body t) rs terms ∧ text = [','].intercalate terms

/-- An expression with the key, the operator and the values of the requirement. Values may be missing if there are
none. -/
def Expresses (r : Requirement) (item : Value) : Prop :=
  ∃ fields, item = .fields fields ∧ unknownKeys ["key", "operator", "values"] fields = [] ∧
    Value.entry fields "key" = .text r.key ∧ Value.entry fields "operator" = .text r.operatorName ∧
    (Value.entry fields "values" = .null ∧ r.values = [] ∨ Value.entry fields "values" = .list (r.values.map .text))

/-- A mapping that has nothing but expressions, one for each requirement. -/
structure Listed (rs : List Requirement) (entries : List (String × Value)) : Prop where
  known : unknownKeys ["matchLabels", "matchExpressions"] entries = []
  unlabelled : (Value.entry entries "matchLabels").truthy = false
  expressions : ∃ items, Value.entry entries "matchExpressions" = .list items ∧ List.Forall₂ Expresses rs items

/-- The expression with all three fields. -/
def expression (r : Requirement) : Value :=
  .fields [("key", .text r.key), ("operator", .text r.operatorName), ("values", .list (r.values.map .text))]

theorem expresses_expression (r : Requirement) : Expresses r (expression r) :=
  ⟨_, rfl, by simp [unknownKeys], rfl, rfl, .inr rfl⟩

theorem listed_expressions (rs : List Requirement) : Listed rs [("matchExpressions", .list (rs.map expression))] := by
  refine ⟨by simp [unknownKeys], rfl, rs.map expression, rfl, List.forall₂_map_right_iff.mpr ?_⟩
  exact List.forall₂_same.mpr fun r _ => expresses_expression r

variable {r : Requirement} {rs : List Requirement} {entries : List (String × Value)}

/-! ## Reading the requirements one by one -/

theorem readRequirement_settled (h : r.Writable) :
    readRequirement (.text r.key) (.text r.operatorName) (r.values.map .text) = .ok r.settled := by
  have hvalues : ∀ v ∈ r.values, LenientValue v.toList := fun v hv => .plain (.inr (h.values v hv))
  refine readRequirement_eq_ok_iff.mpr ⟨r.key, rfl, KeyText.lenient h.key, ?_⟩
  cases r with
  | oneOf k vs => exact .oneOf (h.some (.inl rfl)) hvalues
  | noneOf k vs => exact .noneOf (h.some (.inr rfl)) hvalues
  | present k => exact .present
  | absent k => exact .absent

theorem Expresses.read {item : Value} (hr : r.Writable) (h : Expresses r item) :
    readExpression item = .ok r.settled := by
  obtain ⟨fields, rfl, hknown, hkey, hoperator, hvalues⟩ := h
  refine readExpression_eq_ok_iff.mpr ⟨fields, r.values.map .text, rfl, hknown, ?_, ?_⟩
  · exact hvalues.imp_left fun ⟨hnull, hnone⟩ => ⟨hnull, by rw [hnone, List.map_nil]⟩
  · rw [hkey, hoperator, readRequirement_settled hr]

theorem Padded.trim {s t : List Char} (hs : Word s) (h : Padded s t) : Text.trim t = s := by
  obtain ⟨before, after, hbefore, hafter, rfl⟩ := h
  exact hs.tight.trim_padded hbefore hafter

theorem Padded.not_mem {s t : List Char} {c : Char} (hs : Word s) (h : Padded s t) (hc : ¬Solid c)
    (hvisible : isBlank c = false) : c ∉ t := by
  obtain ⟨before, after, hbefore, hafter, rfl⟩ := h
  simp [not_mem_of_blank hbefore hvisible, not_mem_of_blank hafter hvisible, hs.not_mem hc]

section Values

variable {vs : List String} {padded : List (List Char)} (hwords : ∀ v ∈ vs, Word v.toList)
  (h : List.Forall₂ (fun v t => Padded v.toList t) vs padded)

include hwords h

theorem not_mem_padded {c : Char} (hc : ¬Solid c) (hvisible : isBlank c = false) : ∀ t ∈ padded, c ∉ t := by
  intro t ht
  obtain ⟨v, hv, hpadded⟩ := exists_of_forall₂ h.flip t ht
  exact Padded.not_mem (hwords v hv) hpadded hc hvisible

/-- What stands between the parentheses opens and closes none. -/
theorem plain_of_padded : ∀ c ∈ [','].intercalate padded, c ≠ '(' ∧ c ≠ ')' := by
  intro c hc
  rcases mem_intercalate hc with rfl | ⟨t, ht, hct⟩
  · decide
  · constructor
    · rintro rfl
      exact not_mem_padded hwords h (fun h => h.opening rfl) rfl t ht hct
    · rintro rfl
      exact not_mem_padded hwords h (fun h => h.closing rfl) rfl t ht hct

theorem map_trim_padded : padded.map trim = vs.map String.toList := by
  induction h with
  | nil => rfl
  | cons ht _ ih =>
    obtain ⟨hv, hvs⟩ := List.forall_mem_cons.mp hwords
    rw [List.map_cons, List.map_cons, ht.trim hv, ih hvs]

/-- What stands between the parentheses is read as the values. -/
theorem values_of_padded (hne : vs ≠ []) :
    ((pieces ',' ([','].intercalate padded)).map trim).filter (!·.isEmpty) = vs.map String.toList := by
  have hnonempty : padded ≠ [] := fun hnil => hne (by simpa [hnil] using h)
  have hcomma := not_mem_padded hwords h (fun h => h.comma rfl) rfl
  rw [pieces_intercalate hnonempty hcomma, map_trim_padded hwords h, List.filter_eq_self]
  simpa using fun v hv => (hwords v hv).ne_nil

end Values

theorem words_of_ranged {excluded : Bool} {k : String} {vs : List String}
    (h : (Requirement.ranged excluded k vs).Writable) : Word k.toList ∧ vs ≠ [] ∧ ∀ v ∈ vs, Word v.toList := by
  obtain ⟨hkey, hvalues, hsome, -⟩ := h
  rw [Requirement.ranged_key] at hkey
  rw [Requirement.ranged_values] at hvalues hsome
  exact ⟨.of_key hkey, hsome (by cases excluded <;> simp), fun v hv => .of_name (hvalues v hv)⟩

variable {body : List Char}

theorem Spelling.read (hr : r.Writable) (h : Spelling r body) (selector : String) :
    readTerm selector body = .ok r.settled := by
  rw [← readRequirement_settled hr]
  cases h with
  | present k =>
    have hk : Word k.toList := .of_key hr.key
    rw [readTerm_word hk, String.ofList_toList]
    rfl
  | absent k hgap =>
    have hk : Word k.toList := .of_key hr.key
    rw [readTerm_absent, hk.tight.trim_gap_append hgap, String.ofList_toList]
    rfl
  | compared hsign k v hgap hgap' =>
    obtain ⟨hk, -, hvalues⟩ := words_of_ranged hr
    rw [readTerm_compared hsign hk hgap hgap' (hvalues v List.mem_cons_self)]
    simp
  | listed excluded k hgap hne hgap' hpadded =>
    obtain ⟨hk, hsome, hvalues⟩ := words_of_ranged hr
    rw [readTerm_listed hk hgap hne excluded hgap' (plain_of_padded hvalues hpadded),
      values_of_padded hvalues hpadded hsome]
    simp [Function.comp_def]

theorem Spelling.tight (hr : r.Writable) (h : Spelling r body) : Tight body := by
  cases h with
  | present k => exact (Word.of_key hr.key).tight
  | absent k hgap =>
    have hbang : Tight ['!'] := ⟨⟨'!', [], rfl, rfl⟩, ⟨[], '!', rfl, rfl⟩⟩
    exact hbang.append (Word.of_key hr.key).tight _
  | @compared sign _ _ k v gap gap' =>
    obtain ⟨hk, -, hvalues⟩ := words_of_ranged hr
    simpa using hk.tight.append (hvalues v List.mem_cons_self).tight (gap ++ (sign ++ gap'))
  | @listed excluded k vs padded gap gap' =>
    have hclosing : Tight [')'] := ⟨⟨')', [], rfl, rfl⟩, ⟨[], ')', rfl, rfl⟩⟩
    simpa using (words_of_ranged hr).1.tight.append hclosing
      (gap ++ (listOperator excluded ++ (gap' ++ '(' :: [','].intercalate padded)))

theorem Spelling.whole (hr : r.Writable) (h : Spelling r body) : Whole body := by
  cases h with
  | present k => exact (Word.of_key hr.key).whole
  | absent k hgap =>
    have hbang : Whole ['!'] := whole_of_plain (by simp)
    exact hbang.append ((whole_of_blank hgap).append (Word.of_key hr.key).whole)
  | compared hsign k v hgap hgap' =>
    obtain ⟨hk, -, hvalues⟩ := words_of_ranged hr
    have hoperator : Whole _ := whole_of_plain hsign.plain
    exact hk.whole.append ((whole_of_blank hgap).append (hoperator.append
      ((whole_of_blank hgap').append (hvalues v List.mem_cons_self).whole)))
  | listed excluded k hgap hne hgap' hpadded =>
    obtain ⟨hk, -, hvalues⟩ := words_of_ranged hr
    have hoperator : Whole (listOperator excluded) := whole_of_plain (by cases excluded <;> simp [listOperator])
    have hvalues := whole_parenthesised (plain_of_padded hvalues hpadded)
    exact hk.whole.append ((whole_of_blank hgap).append (hoperator.append ((whole_of_blank hgap').append hvalues)))

/-! ## Reading all of them -/

theorem mapM_settled {α : Type} {R : Requirement → α → Prop} {f : α → Except Fault Requirement} {as : List α}
    (hrs : ∀ r ∈ rs, r.Writable) (h : List.Forall₂ R rs as) (hf : ∀ r a, r.Writable → R r a → f a = .ok r.settled) :
    as.mapM f = .ok (rs.map Requirement.settled) := by
  rw [mapM_eq_ok_iff, List.forall₂_map_right_iff]
  exact ((List.forall₂_and_left rs as).mpr ⟨hrs, h⟩).flip.imp fun a r hra => hf r a hra.1 hra.2

theorem Spelled.read {text : String} (hne : rs ≠ []) (hrs : ∀ r ∈ rs, r.Writable) (h : Spelled rs text.toList) :
    LabelSelector.read (.text text) = .ok ⟨rs.map Requirement.settled⟩ := by
  obtain ⟨terms, hterms, htext⟩ := h
  have hbody : ∀ t ∈ terms, Whole t ∧ ∃ c ∈ t, isBlank c = false := by
    intro t ht
    obtain ⟨r, hr, body, hbody, before, after, hbefore, hafter, rfl⟩ := exists_of_forall₂ hterms.flip t ht
    obtain ⟨c, rest, rfl, hc⟩ := (hbody.tight (hrs r hr)).first
    exact ⟨((whole_of_blank hbefore).append (hbody.whole (hrs r hr))).append (whole_of_blank hafter), c, by simp, hc⟩
  have hsome : terms ≠ [] := fun hnil => hne (by simpa [hnil] using hterms)
  have hsplit : splitTerms? 0 text.toList = some terms := by
    rw [htext, splitTerms_intercalate hsome fun t ht => (hbody t ht).1]
  have hvisible : trim text.toList ≠ [] := by
    obtain ⟨t, ht⟩ := List.exists_mem_of_ne_nil terms hsome
    obtain ⟨-, c, hct, hc⟩ := hbody t ht
    exact List.ne_nil_of_mem (mem_trim (htext ▸ mem_intercalate_of_mem ht hct) hc)
  have hread : (terms.mapM fun t => readTerm text (trim t)) = .ok (rs.map Requirement.settled) := by
    refine mapM_settled hrs hterms fun r t hr => ?_
    rintro ⟨body, hspelling, before, after, hbefore, hafter, rfl⟩
    rw [(hspelling.tight hr).trim_padded hbefore hafter, hspelling.read hr]
  simp [LabelSelector.read, readText, hvisible, hsplit, hread]

theorem Listed.read (hrs : ∀ r ∈ rs, r.Writable) (h : Listed rs entries) :
    LabelSelector.read (.fields entries) = .ok ⟨rs.map Requirement.settled⟩ := by
  obtain ⟨items, hitems, hexpresses⟩ := h.expressions
  have hread := mapM_settled hrs hexpresses fun _ _ => Expresses.read
  exact readMapping_eq_ok_iff.mpr ⟨h.known, [], [], items, _, labelPairs_eq_ok_iff.mpr (.inl ⟨h.unlabelled, rfl⟩), .nil,
    expressionItems_of_list hitems, mapM_eq_ok_iff.mp hread, rfl⟩

/-- The text and the mapping are read as the same selector, whose requirements are those that were written, in their
order and with their values as sets. -/
theorem text_agrees_with_expressions {text : String} (hne : rs ≠ []) (hrs : ∀ r ∈ rs, r.Writable)
    (htext : Spelled rs text.toList) (hentries : Listed rs entries) :
    ∃ s, LabelSelector.read (.text text) = .ok s ∧ LabelSelector.read (.fields entries) = .ok s ∧
      s.requirements = rs.map Requirement.settled ∧
      ∀ labels, s.selects labels = true ↔ ∀ r ∈ rs, r.holds labels = true := by
  refine ⟨⟨rs.map Requirement.settled⟩, htext.read hne hrs, hentries.read hrs, rfl, fun labels => ?_⟩
  simp [selects_iff, Requirement.settled_holds]

/-- A comparison, a set term whose key is `in`, and the absence of a label. -/
private def mixed : List Requirement := [.oneOf "env" ["prod"], .noneOf "in" ["web", "api"], .absent "legacy"]

private theorem mixed_writable : ∀ r ∈ mixed, r.Writable := by
  have hall : ∀ s ∈ ["env", "prod", "in", "web", "api", "legacy"], isName s.toList = true ∧ '\n' ∉ s.toList := by decide
  have hname (s : String) (hs : s ∈ ["env", "prod", "in", "web", "api", "legacy"]) : NameText s.toList :=
    nameText_of_isName (hall s hs).1 (hall s hs).2
  have hvalues : ∀ r ∈ mixed, ∀ v ∈ r.values, NameText v.toList := fun r hr v hv =>
    hname v (by revert r v; decide)
  have hkeys : ∀ r ∈ mixed, KeyText r.key.toList := fun r hr => .plain (hname r.key (by revert r; decide))
  have hsome : ∀ r ∈ mixed, r.operatorName = "In" ∨ r.operatorName = "NotIn" → r.values ≠ [] := by decide
  exact fun r hr => ⟨hkeys r hr, hvalues r hr, hsome r hr, r.values_eq_nil⟩

private theorem mixed_spelled : Spelled mixed " env = prod,in notin(web, api ) ,!legacy".toList := by
  have hnone : Blank [] := by decide
  have hspace : Blank [' '] := by decide
  refine ⟨[" env = prod".toList, "in notin(web, api ) ".toList, "!legacy".toList],
    .cons ?_ (.cons ?_ (.cons ?_ .nil)), rfl⟩
  · exact ⟨_, .compared .equal "env" "prod" hspace hspace, [' '], [], hspace, hnone, rfl⟩
  · have hvalues : List.Forall₂ (fun v t => Padded v.toList t) ["web", "api"] ["web".toList, " api ".toList] :=
      .cons ⟨[], [], hnone, hnone, rfl⟩ (.cons ⟨[' '], [' '], hspace, hspace, rfl⟩ .nil)
    exact ⟨_, .listed true "in" hspace (List.cons_ne_nil _ _) hnone hvalues, [], [' '], hnone, hspace, rfl⟩
  · exact ⟨_, .absent "legacy" hnone, [], [], hnone, hnone, rfl⟩

/-- A key may be called like an operator. -/
theorem text_agrees_with_expressions_mixed :
    ∃ s, LabelSelector.read (.text " env = prod,in notin(web, api ) ,!legacy") = .ok s ∧
      s.requirements =
        [.oneOf "env" (valueSet ["prod"]), .noneOf "in" (valueSet ["web", "api"]), .absent "legacy"] := by
  obtain ⟨s, hread, -, hrequirements, -⟩ :=
    text_agrees_with_expressions (List.cons_ne_nil _ _) mixed_writable mixed_spelled (listed_expressions mixed)
  exact ⟨s, hread, hrequirements⟩

end LabelSelector
end NamespaceOwnership
