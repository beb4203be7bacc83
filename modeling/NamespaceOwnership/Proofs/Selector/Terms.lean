import Mathlib.Data.List.Basic
import Mathlib.Data.List.TakeDrop
import NamespaceOwnership.Proofs.Selector.Grammar

/-!
# The terms of a selector text

Keys and values that are not empty are words: no character of a word is blank or has a meaning of its own in a selector
text. A text is cut at the commas between terms whose parentheses are closed (`Whole`). A word that begins a term is its
key, and what comes after it decides how the term is read; the word may itself be `in` or `notin`.
-/
namespace NamespaceOwnership.LabelSelector

open Text LabelSyntax

/-- A character that stands for nothing but itself. -/
structure Solid (c : Char) : Prop where
  visible : isBlank c = false
  bang : c ≠ '!'
  equals : c ≠ '='
  opening : c ≠ '('
  closing : c ≠ ')'
  comma : c ≠ ','

structure Word (s : List Char) : Prop where
  ne_nil : s ≠ []
  solid : ∀ c ∈ s, Solid c

theorem not_blank_of_nameEdge {c : Char} (h : NameEdge c) : isBlank c = false := by
  have hrange := toNat_of_isAlphanum h
  simp [isBlank, blankRanges, Ranges.contains]
  omega

theorem solid_of_nameCharacter {c : Char} (h : NameCharacter c) : Solid c := by
  rcases h with h | rfl | rfl | rfl
  · refine ⟨not_blank_of_nameEdge h, ?_, ?_, ?_, ?_, ?_⟩
    all_goals
      rintro rfl
      simp [NameEdge] at h
  all_goals constructor <;> decide

theorem Word.of_name {s : List Char} (h : NameText s) : Word s :=
  ⟨h.framed.ne_nil, fun c hc => solid_of_nameCharacter (h.framed.inside c hc)⟩

theorem Word.of_key {s : List Char} (h : KeyText s) : Word s := by
  refine ⟨?_, fun c hc => ?_⟩
  · cases h with
    | plain hn => exact hn.framed.ne_nil
    | within => simp
  · rcases h.inside c hc with hname | rfl
    · exact solid_of_nameCharacter hname
    · constructor <;> decide

section Words

variable {s : List Char}

theorem Word.first (h : Word s) : ∃ c rest, s = c :: rest ∧ Solid c := by
  obtain ⟨c, rest, rfl⟩ := List.exists_cons_of_ne_nil h.ne_nil
  exact ⟨c, rest, rfl, h.solid c List.mem_cons_self⟩

theorem Word.last (h : Word s) : ∃ before c, s = before ++ [c] ∧ Solid c :=
  ⟨s.dropLast, s.getLast h.ne_nil, (List.dropLast_append_getLast h.ne_nil).symm, h.solid _ (List.getLast_mem h.ne_nil)⟩

theorem Word.tight (h : Word s) : Tight s := by
  obtain ⟨c, rest, hfirst, hc⟩ := h.first
  obtain ⟨before, d, hlast, hd⟩ := h.last
  exact ⟨⟨c, rest, hfirst, hc.visible⟩, ⟨before, d, hlast, hd.visible⟩⟩

end Words

/-! ## Cutting a text into terms -/

variable {t values : List Char}

/-- Characters that neither open nor close a parenthesis, nor end the term, belong to the term that comes after them. -/
theorem splitTerms_append {depth : Nat} {s p : List Char} {ps : List (List Char)}
    (ht : ∀ c ∈ t, c ≠ '(' ∧ c ≠ ')' ∧ (c = ',' → depth ≠ 0)) (h : splitTerms? depth s = some (p :: ps)) :
    splitTerms? depth (t ++ s) = some ((t ++ p) :: ps) := by
  induction t with
  | nil => exact h
  | cons c t ih =>
    obtain ⟨⟨hopening, hclosing, hcomma⟩, ht⟩ := List.forall_mem_cons.mp ht
    have hend : ¬(c = ',' ∧ depth = 0) := fun hc => hcomma hc.1 hc.2
    simp [splitTerms?, hend, hopening, hclosing, ih ht]

/-- Wherever it stands outside parentheses, it belongs to one term. -/
def Whole (t : List Char) : Prop :=
  ∀ s p ps, splitTerms? 0 s = some (p :: ps) → splitTerms? 0 (t ++ s) = some ((t ++ p) :: ps)

theorem whole_of_plain (ht : ∀ c ∈ t, c ≠ '(' ∧ c ≠ ')' ∧ c ≠ ',') : Whole t := fun _ _ _ h =>
  splitTerms_append (fun c hc => ⟨(ht c hc).1, (ht c hc).2.1, fun hcomma => absurd hcomma (ht c hc).2.2⟩) h

theorem Word.whole (h : Word t) : Whole t :=
  whole_of_plain fun c hc => ⟨(h.solid c hc).opening, (h.solid c hc).closing, (h.solid c hc).comma⟩

theorem whole_of_blank (h : Blank t) : Whole t := by
  refine whole_of_plain fun c hc => ⟨?_, ?_, ?_⟩
  all_goals
    rintro rfl
    exact not_mem_of_blank h rfl hc

theorem whole_parenthesised (hvalues : ∀ c ∈ values, c ≠ '(' ∧ c ≠ ')') : Whole ('(' :: (values ++ [')'])) := by
  intro s p ps h
  have hclose : splitTerms? 1 (')' :: s) = some ((')' :: p) :: ps) := by simp [splitTerms?, h]
  have hinside := splitTerms_append (fun c hc => ⟨(hvalues c hc).1, (hvalues c hc).2, fun _ => Nat.one_ne_zero⟩) hclose
  simp [splitTerms?, hinside]

theorem Whole.append {t' : List Char} (h : Whole t) (h' : Whole t') : Whole (t ++ t') := by
  intro s p ps hs
  rw [List.append_assoc, List.append_assoc]
  exact h _ _ _ (h' _ _ _ hs)

theorem splitTerms_intercalate {terms : List (List Char)} (hne : terms ≠ []) (h : ∀ t ∈ terms, Whole t) :
    splitTerms? 0 ([','].intercalate terms) = some terms := by
  induction terms with
  | nil => exact absurd rfl hne
  | cons t ts ih =>
    obtain ⟨ht, hts⟩ := List.forall_mem_cons.mp h
    cases ts with
    | nil => simpa using ht [] [] [] rfl
    | cons u us =>
      have hrest : splitTerms? 0 (',' :: [','].intercalate (u :: us)) = some ([] :: u :: us) := by
        simp [splitTerms?, ih (List.cons_ne_nil u us) hts]
      simpa [List.intercalate_cons_cons] using ht _ _ _ hrest

/-! ## Reading a term -/

/-- What can come directly after a key. -/
def EndsKey (rest : List Char) : Prop := ∀ c, rest.head? = some c → isBlank c = true ∨ c = '!' ∨ c = '='

theorem span_word {k rest : List Char} (hk : Word k) (hrest : EndsKey rest) :
    (k ++ rest).span (fun c => !(isBlank c || c == '!' || c == '=' || c == '(' || c == ')')) = (k, rest) := by
  have hkey : ∀ c ∈ k, (!(isBlank c || c == '!' || c == '=' || c == '(' || c == ')')) = true := by
    intro c hc
    obtain ⟨hvisible, hbang, hequals, hopening, hclosing, -⟩ := hk.solid c hc
    simp [hvisible, hbang, hequals, hopening, hclosing]
  rw [List.span_eq_takeWhile_dropWhile, List.takeWhile_append_of_pos hkey, List.dropWhile_append_of_pos hkey]
  cases rest with
  | nil => simp
  | cons c rest => rcases hrest c rfl with hc | hc | hc <;> simp [hc]

variable {k gap gap' rest : List Char}

/-- White space between a key and what follows it does not make a set term yet. -/
theorem setTerm_eq_none (hk : Word k) (hrest : EndsKey rest)
    (h : rest.head?.any isBlank = true → ∃ c s, trimLeft rest = c :: s ∧ c ≠ 'i' ∧ c ≠ 'n') :
    setTerm? (k ++ rest) = none := by
  unfold setTerm? guard
  rw [span_word hk hrest]
  dsimp only
  cases hblank : rest.head?.any isBlank with
  | false => simp [hk.ne_nil, failure]
  | true =>
    obtain ⟨c, s, htrim, hi, hn⟩ := h hblank
    simp [htrim, hi, hn]

theorem setTerm_word (hk : Word k) : setTerm? k = none := by
  have h : setTerm? (k ++ []) = none := setTerm_eq_none hk nofun nofun
  rwa [List.append_nil] at h

theorem setTerm_compared (hk : Word k) (hgap : Blank gap) {c : Char} (hc : c = '!' ∨ c = '=') (s : List Char) :
    setTerm? (k ++ (gap ++ c :: s)) = none := by
  refine setTerm_eq_none hk ?_ fun _ => ⟨c, s, ?_, ?_, ?_⟩
  · cases gap with
    | nil => simpa [EndsKey] using .inr hc
    | cons d gap => simpa [EndsKey] using .inl (hgap d List.mem_cons_self)
  · rw [trimLeft_append hgap]
    exact trimLeft_of_not_blank s (by rcases hc with rfl | rfl <;> rfl)
  all_goals rcases hc with rfl | rfl <;> decide

/-- The operator of a set term. -/
def listOperator : (excluded : Bool) → List Char
  | false => ['i', 'n']
  | true => ['n', 'o', 't', 'i', 'n']

theorem setTerm_listed (hk : Word k) (hgap : Blank gap) (hne : gap ≠ []) (excluded : Bool) (hgap' : Blank gap')
    (hvalues : ∀ c ∈ values, c ≠ '(' ∧ c ≠ ')') :
    setTerm? (k ++ (gap ++ (listOperator excluded ++ (gap' ++ '(' :: (values ++ [')']))))) =
      some (k, excluded, values) := by
  obtain ⟨d, gap, rfl⟩ := List.exists_cons_of_ne_nil hne
  have hd : isBlank d = true := hgap d List.mem_cons_self
  have hopen : trimLeft (gap' ++ '(' :: (values ++ [')'])) = '(' :: (values ++ [')']) := by
    rw [trimLeft_append hgap']
    exact trimLeft_of_not_blank _ rfl
  have hname (s : List Char) : trimLeft (d :: (gap ++ (listOperator excluded ++ s))) = listOperator excluded ++ s := by
    rw [← List.cons_append, trimLeft_append hgap]
    cases excluded <;> exact trimLeft_of_not_blank _ rfl
  have hends (s : List Char) : EndsKey (d :: s) := by simpa [EndsKey] using .inl hd
  unfold setTerm? guard
  rw [List.cons_append, span_word hk (hends _)]
  dsimp only
  rw [hname]
  cases excluded <;> simp [hd, hk.ne_nil, listOperator, hopen, if_pos hvalues]

theorem readTerm_absent (selector : String) (key : List Char) :
    readTerm selector ('!' :: key) = readRequirement (.text (String.ofList (trim key))) (.text "DoesNotExist") [] := rfl

/-- A term that begins with a word is a set term, a comparison or, without a sign, only a key. -/
theorem readTerm_append (hk : Word k) (rest : List Char) (selector : String) :
    readTerm selector (k ++ rest) =
      let compared (operator : String) (parts : List Char × List Char) :=
        readRequirement (.text (String.ofList (trim parts.1))) (.text operator) [.text (String.ofList (trim parts.2))]
      match setTerm? (k ++ rest) with
      | some (key, excluded, values) =>
        readRequirement (.text (String.ofList key)) (.text (if excluded then "NotIn" else "In"))
          ((((pieces ',' values).map trim).filter (!·.isEmpty)).map fun v => .text (String.ofList v))
      | none =>
        match cutFirst ['!', '='] (k ++ rest), cutFirst ['=', '='] (k ++ rest), cutFirst ['='] (k ++ rest) with
        | some parts, _, _ => compared "NotIn" parts
        | none, some parts, _ | none, none, some parts => compared "In" parts
        | none, none, none => readRequirement (.text (String.ofList (k ++ rest))) (.text "Exists") [] := by
  obtain ⟨c, k, rfl, hc⟩ := hk.first
  unfold readTerm
  split
  · rename_i h
    cases h
  · rename_i h
    cases h
    exact absurd rfl hc.bang
  · cases setTerm? _ <;> rfl

theorem readTerm_listed (hk : Word k) (hgap : Blank gap) (hne : gap ≠ []) (excluded : Bool) (hgap' : Blank gap')
    (hvalues : ∀ c ∈ values, c ≠ '(' ∧ c ≠ ')') (selector : String) :
    readTerm selector (k ++ (gap ++ (listOperator excluded ++ (gap' ++ '(' :: (values ++ [')']))))) =
      readRequirement (.text (String.ofList k)) (.text (if excluded then "NotIn" else "In"))
        ((((pieces ',' values).map trim).filter (!·.isEmpty)).map fun v => .text (String.ofList v)) := by
  rw [readTerm_append hk, setTerm_listed hk hgap hne excluded hgap' hvalues]

theorem cutFirst_eq_none {c : Char} {s : List Char} (h : c ∉ s) (mark : List Char) : cutFirst (c :: mark) s = none :=
  (cutFirst_eq_none_iff (List.cons_ne_nil c mark)).mpr fun hpart => h (hpart.subset List.mem_cons_self)

theorem Word.not_mem {c : Char} {s : List Char} (h : Word s) (hc : ¬Solid c) : c ∉ s := fun hmem => hc (h.solid c hmem)

theorem readTerm_word (hk : Word k) (selector : String) :
    readTerm selector k = readRequirement (.text (String.ofList k)) (.text "Exists") [] := by
  have hbang := hk.not_mem (c := '!') fun h => h.bang rfl
  have hequals := hk.not_mem (c := '=') fun h => h.equals rfl
  have h := readTerm_append hk [] selector
  rw [List.append_nil, setTerm_word hk, cutFirst_eq_none hbang, cutFirst_eq_none hequals,
    cutFirst_eq_none hequals] at h
  exact h

/-- The operator of a comparison. -/
inductive Compares : List Char → (excluded : Bool) → Prop
  | equal : Compares ['='] false
  | same : Compares ['=', '='] false
  | other : Compares ['!', '='] true

theorem Compares.first {sign : List Char} {excluded : Bool} (h : Compares sign excluded) :
    ∃ c s, sign = c :: s ∧ (c = '!' ∨ c = '=') := by
  cases h <;> simp

theorem Compares.plain {sign : List Char} {excluded : Bool} (h : Compares sign excluded) :
    ∀ c ∈ sign, c ≠ '(' ∧ c ≠ ')' ∧ c ≠ ',' := by
  cases h <;> simp

/-- A single sign of equality is not taken for two. -/
theorem cutFirst_single {before after : List Char} (hbefore : '=' ∉ before) (hafter : '=' ∉ after) :
    cutFirst ['=', '='] (before ++ '=' :: after) = none := by
  refine (cutFirst_eq_none_iff (by simp)).mpr fun h => ?_
  have hcount := h.sublist.count_le '='
  simp [List.count_eq_zero_of_not_mem hbefore, List.count_eq_zero_of_not_mem hafter] at hcount

theorem readTerm_compared {sign v : List Char} {excluded : Bool} (hsign : Compares sign excluded) (hk : Word k)
    (hgap : Blank gap) (hgap' : Blank gap') (hv : Word v) (selector : String) :
    readTerm selector (k ++ (gap ++ (sign ++ (gap' ++ v)))) =
      readRequirement (.text (String.ofList k)) (.text (if excluded then "NotIn" else "In"))
        [.text (String.ofList v)] := by
  have hset : setTerm? (k ++ (gap ++ (sign ++ (gap' ++ v)))) = none := by
    obtain ⟨c, s, rfl, hc⟩ := hsign.first
    exact setTerm_compared hk hgap hc _
  have hkey : trim (k ++ gap) = k := hk.tight.trim_append_gap hgap
  have hvalue : trim (gap' ++ v) = v := hv.tight.trim_gap_append hgap'
  have habsent {c : Char} (hc : ¬Solid c) (hvisible : isBlank c = false) : c ∉ k ++ gap ∧ c ∉ gap' ++ v := by
    simp [hk.not_mem hc, hv.not_mem hc, not_mem_of_blank hgap hvisible, not_mem_of_blank hgap' hvisible]
  obtain ⟨hbang, hbang'⟩ := habsent (c := '!') (fun h => h.bang rfl) rfl
  obtain ⟨hequals, hequals'⟩ := habsent (c := '=') (fun h => h.equals rfl) rfl
  rw [readTerm_append hk, hset, ← List.append_assoc]
  generalize k ++ gap = before, gap' ++ v = after at *
  cases hsign with
  | equal =>
    have hother : cutFirst ['!', '='] (before ++ (['='] ++ after)) = none :=
      cutFirst_eq_none (by simp [hbang, hbang']) _
    have hsame : cutFirst ['=', '='] (before ++ (['='] ++ after)) = none := cutFirst_single hequals hequals'
    rw [hother, hsame, cutFirst_append hequals]
    simp only [hkey, hvalue]
    rfl
  | same =>
    have hother : cutFirst ['!', '='] (before ++ (['=', '='] ++ after)) = none :=
      cutFirst_eq_none (by simp [hbang, hbang']) _
    rw [hother, cutFirst_append hequals]
    simp only [hkey, hvalue]
    rfl
  | other =>
    rw [cutFirst_append hbang]
    simp only [hkey, hvalue]
    rfl

end NamespaceOwnership.LabelSelector
