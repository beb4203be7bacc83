import NamespaceOwnership.Selector.Parser

/-!
# The grammar of label keys and label values

A name consists of ASCII letters, digits, `-`, `_` and `.`, with a letter or a digit at both ends. A value is a name or
empty. A key is a name, which may stand behind a domain and a slash. The reader accepts all keys and values of this
grammar, but it overlooks a line feed at the end of a domain, a name or a value (`LabelSyntax.Lenient`), so that what it
accepts is of the grammar exactly if there is no line feed in it.
-/
namespace NamespaceOwnership.LabelSyntax

open Text

variable {s : List Char} {limit : Nat}

/-- A text of `inner` characters, the first and the last of which are `outer` ones. -/
structure Framed (outer inner : Char → Prop) (s : List Char) : Prop where
  first : ∃ c rest, s = c :: rest ∧ outer c
  last : ∃ before c, s = before ++ [c] ∧ outer c
  inside : ∀ c ∈ s, inner c

def NameEdge (c : Char) : Prop := c.isAlphanum = true

def NameCharacter (c : Char) : Prop := NameEdge c ∨ c = '-' ∨ c = '_' ∨ c = '.'

structure NameText (s : List Char) : Prop where
  short : s.length ≤ 63
  framed : Framed NameEdge NameCharacter s

def ValueText (s : List Char) : Prop := s = [] ∨ NameText s

def DomainEdge (c : Char) : Prop := c.isLower = true ∨ c.isDigit = true

def DomainCharacter (c : Char) : Prop := DomainEdge c ∨ c = '-'

/-- Parts with dots between them. -/
structure DomainText (s : List Char) : Prop where
  short : s.length ≤ 253
  parts : ∃ parts, parts ≠ [] ∧ s = ['.'].intercalate parts ∧ ∀ p ∈ parts, Framed DomainEdge DomainCharacter p

/-- A name, or a domain, a slash and a name. -/
inductive Keyed (domain name : List Char → Prop) : List Char → Prop
  | plain {n : List Char} (hn : name n) : Keyed domain name n
  | within {d n : List Char} (hd : domain d) (hn : name n) : Keyed domain name (d ++ '/' :: n)

abbrev KeyText : List Char → Prop := Keyed DomainText NameText

/-- A text of the grammar, or one with a line feed behind it, which counts for the length. -/
inductive Lenient (limit : Nat) (grammar : List Char → Prop) : List Char → Prop
  | plain {s : List Char} (h : grammar s) : Lenient limit grammar s
  | broken {s : List Char} (h : grammar s) (hlimit : s.length < limit) : Lenient limit grammar (s ++ ['\n'])

abbrev LenientKey : List Char → Prop := Keyed (Lenient 253 DomainText) (Lenient 63 NameText)

abbrev LenientValue : List Char → Prop := Lenient 63 ValueText

/-! ## The characters of a text of the grammar -/

theorem DomainCharacter.name {c : Char} (h : DomainCharacter c) : NameCharacter c := by
  rcases h with h | rfl
  · have hedge : (c.isUpper || c.isLower || c.isDigit) = true := by rcases h with h | h <;> simp [h]
    exact .inl hedge
  · exact .inr (.inl rfl)

theorem Framed.ne_nil {outer inner : Char → Prop} (h : Framed outer inner s) : s ≠ [] := by
  obtain ⟨c, rest, rfl, -⟩ := h.first
  exact List.cons_ne_nil c rest

theorem ValueText.inside (h : ValueText s) : ∀ c ∈ s, NameCharacter c := by
  rcases h with rfl | h
  · nofun
  · exact h.framed.inside

/-- A domain is written with characters of names. -/
theorem DomainText.inside (h : DomainText s) : ∀ c ∈ s, NameCharacter c := by
  obtain ⟨-, parts, -, rfl, hparts⟩ := h
  intro c hc
  rcases mem_intercalate hc with rfl | ⟨p, hp, hcp⟩
  · exact .inr (.inr (.inr rfl))
  · exact ((hparts p hp).inside c hcp).name

/-- Only the slash of a key is no character of a name. -/
theorem KeyText.inside (h : KeyText s) : ∀ c ∈ s, NameCharacter c ∨ c = '/' := by
  cases h with
  | plain hn => exact fun c hc => .inl (hn.framed.inside c hc)
  | within hd hn =>
    intro c hc
    rcases List.mem_append.mp hc with hc | hc
    · exact .inl (hd.inside c hc)
    · rcases List.mem_cons.mp hc with rfl | hc
      · exact .inr rfl
      · exact .inl (hn.framed.inside c hc)

theorem not_nameCharacter_lineFeed : ¬NameCharacter '\n' := by
  simp [NameCharacter, NameEdge]

/-! ## Texts with a line feed at their end -/

theorem withoutFinalLineFeed_append (s : List Char) : withoutFinalLineFeed (s ++ ['\n']) = s := by
  simp [withoutFinalLineFeed]

theorem withoutFinalLineFeed_of_not_mem (h : '\n' ∉ s) : withoutFinalLineFeed s = s := by
  refine if_neg fun hlast => h ?_
  exact List.mem_of_getLast? hlast

/-- What is accepted once a final line feed is off. -/
theorem lenient_iff (accepts : List Char → Bool) {grammar : List Char → Prop}
    (hgrammar : ∀ s, grammar s ↔ s.length ≤ limit ∧ accepts s = true) (hplain : ∀ s, grammar s → '\n' ∉ s) :
    s.length ≤ limit ∧ accepts (withoutFinalLineFeed s) = true ↔ Lenient limit grammar s := by
  constructor
  · rintro ⟨hlimit, haccepts⟩
    by_cases hlast : s.getLast? = some '\n'
    · obtain ⟨t, rfl⟩ := List.getLast?_eq_some_iff.mp hlast
      rw [withoutFinalLineFeed_append] at haccepts
      have hshort : t.length < limit := by simpa [Nat.succ_le_iff] using hlimit
      exact .broken ((hgrammar t).mpr ⟨Nat.le_of_lt hshort, haccepts⟩) hshort
    · rw [withoutFinalLineFeed, if_neg hlast] at haccepts
      exact .plain ((hgrammar s).mpr ⟨hlimit, haccepts⟩)
  · rintro (h | ⟨h, hlimit⟩)
    · rw [withoutFinalLineFeed_of_not_mem (hplain s h)]
      exact (hgrammar s).mp h
    · rw [withoutFinalLineFeed_append]
      exact ⟨by simpa [Nat.succ_le_iff] using hlimit, ((hgrammar _).mp h).2⟩

theorem Lenient.exact_iff {grammar : List Char → Prop} (hplain : ∀ s, grammar s → '\n' ∉ s)
    (h : Lenient limit grammar s) : grammar s ↔ '\n' ∉ s := by
  refine ⟨hplain s, fun hnone => ?_⟩
  cases h with
  | plain h => exact h
  | broken h => simp at hnone

theorem NameText.no_lineFeed (s : List Char) (h : NameText s) : '\n' ∉ s :=
  fun hmem => not_nameCharacter_lineFeed (h.framed.inside _ hmem)

theorem ValueText.no_lineFeed (s : List Char) (h : ValueText s) : '\n' ∉ s :=
  fun hmem => not_nameCharacter_lineFeed (h.inside _ hmem)

theorem DomainText.no_lineFeed (s : List Char) (h : DomainText s) : '\n' ∉ s :=
  fun hmem => not_nameCharacter_lineFeed (h.inside _ hmem)

theorem LenientValue.exact_iff (h : LenientValue s) : ValueText s ↔ '\n' ∉ s :=
  Lenient.exact_iff ValueText.no_lineFeed h

theorem KeyText.no_lineFeed (s : List Char) (h : KeyText s) : '\n' ∉ s := by
  intro hmem
  rcases h.inside _ hmem with hname | hslash
  · exact not_nameCharacter_lineFeed hname
  · cases hslash

theorem KeyText.lenient (h : KeyText s) : LenientKey s := by
  cases h with
  | plain hn => exact .plain (.plain hn)
  | within hd hn => exact .within (.plain hd) (.plain hn)

theorem LenientKey.exact_iff (h : LenientKey s) : KeyText s ↔ '\n' ∉ s := by
  refine ⟨KeyText.no_lineFeed s, fun hnone => ?_⟩
  cases h with
  | plain hn => exact .plain ((hn.exact_iff NameText.no_lineFeed).mpr hnone)
  | within hd hn =>
    obtain ⟨hdomain, hname⟩ : '\n' ∉ _ ∧ '\n' ∉ _ := by simpa using hnone
    exact .within ((hd.exact_iff DomainText.no_lineFeed).mpr hdomain) ((hn.exact_iff NameText.no_lineFeed).mpr hname)

/-! ## What is accepted -/

theorem framed_iff {outer inner : Char → Bool} :
    framed outer inner s = true ↔ Framed (outer · = true) (inner · = true) s := by
  simp only [framed, Bool.and_eq_true, List.all_eq_true, Option.any_eq_true, List.head?_eq_some_iff,
    List.getLast?_eq_some_iff]
  constructor
  · rintro ⟨⟨hinside, c, ⟨rest, hfirst⟩, hc⟩, d, ⟨before, hlast⟩, hd⟩
    exact ⟨⟨c, rest, hfirst, hc⟩, ⟨before, d, hlast, hd⟩, hinside⟩
  · rintro ⟨⟨c, rest, hfirst, hc⟩, ⟨before, d, hlast, hd⟩, hinside⟩
    exact ⟨⟨hinside, c, ⟨rest, hfirst⟩, hc⟩, d, ⟨before, hlast⟩, hd⟩

theorem framed_name_iff : framed Char.isAlphanum isNameCharacter s = true ↔ Framed NameEdge NameCharacter s := by
  have hinner (c : Char) : isNameCharacter c = true ↔ NameCharacter c := by
    simp [isNameCharacter, NameCharacter, NameEdge, or_assoc]
  simp only [framed_iff, hinner]
  rfl

theorem framed_domain_iff : framed isDomainEdge isDomainCharacter s = true ↔ Framed DomainEdge DomainCharacter s := by
  have houter (c : Char) : isDomainEdge c = true ↔ DomainEdge c := by simp [isDomainEdge, DomainEdge]
  have hinner (c : Char) : isDomainCharacter c = true ↔ DomainCharacter c := by
    simp [isDomainCharacter, DomainCharacter, houter]
  simp only [framed_iff, houter, hinner]

theorem isName_iff : isName s = true ↔ Lenient 63 NameText s := by
  simp only [isName, Bool.and_eq_true, decide_eq_true_eq]
  refine lenient_iff _ (fun s => ?_) NameText.no_lineFeed
  exact ⟨fun h => ⟨h.short, framed_name_iff.mpr h.framed⟩, fun h => ⟨h.1, framed_name_iff.mp h.2⟩⟩

theorem nameText_of_isName (h : isName s = true) (hplain : '\n' ∉ s) : NameText s :=
  ((isName_iff.mp h).exact_iff NameText.no_lineFeed).mpr hplain

theorem isValue_iff : LabelSyntax.isValue s = true ↔ LenientValue s := by
  simp only [LabelSyntax.isValue, Bool.and_eq_true, decide_eq_true_eq]
  refine lenient_iff (fun s => s.isEmpty || framed Char.isAlphanum isNameCharacter s)
    (fun s => ?_) ValueText.no_lineFeed
  simp only [Bool.or_eq_true, List.isEmpty_iff, framed_name_iff]
  constructor
  · rintro (rfl | h)
    · exact ⟨Nat.zero_le _, .inl rfl⟩
    · exact ⟨h.short, .inr h.framed⟩
  · rintro ⟨hshort, rfl | h⟩
    · exact .inl rfl
    · exact .inr ⟨hshort, h⟩

/-- The parts of a domain are those between its dots. -/
theorem domainText_iff : DomainText s ↔
    s.length ≤ 253 ∧ (pieces '.' s).all (framed isDomainEdge isDomainCharacter) = true := by
  simp only [List.all_eq_true, framed_domain_iff]
  constructor
  · rintro ⟨hshort, parts, hne, rfl, hparts⟩
    have hdot : ∀ p ∈ parts, '.' ∉ p := by
      intro p hp hmem
      have hcharacter := (hparts p hp).inside '.' hmem
      revert hcharacter
      simp [DomainCharacter, DomainEdge]
    rw [pieces_intercalate hne hdot]
    exact ⟨hshort, hparts⟩
  · rintro ⟨hshort, hparts⟩
    exact ⟨hshort, pieces '.' s, pieces_ne_nil '.' s, (intercalate_pieces '.' s).symm, hparts⟩

theorem isSubdomain_iff : isSubdomain s = true ↔ Lenient 253 DomainText s := by
  simp only [isSubdomain, Bool.and_eq_true, decide_eq_true_eq]
  exact lenient_iff (fun s => (pieces '.' s).all (framed isDomainEdge isDomainCharacter))
    (fun s => domainText_iff) DomainText.no_lineFeed

theorem Lenient.slash_not_mem (h : Lenient limit NameText s) : '/' ∉ s := by
  have hslash : ¬NameCharacter '/' := by simp [NameCharacter, NameEdge]
  have hname (t : List Char) (ht : NameText t) : '/' ∉ t := fun hmem => hslash (ht.framed.inside _ hmem)
  cases h with
  | plain h => exact hname _ h
  | broken h => simpa using hname _ h

/-- The last slash of a key, if there is one, stands between its domain and its name. -/
theorem lenientKey_iff : LenientKey s ↔
    (∃ domain name, cutLast '/' s = some (domain, name) ∧ isSubdomain domain = true ∧ isName name = true) ∨
      cutLast '/' s = none ∧ isName s = true := by
  simp only [isSubdomain_iff, isName_iff]
  constructor
  · rintro (hn | ⟨hd, hn⟩)
    · exact .inr ⟨cutLast_eq_none_iff.mpr hn.slash_not_mem, hn⟩
    · exact .inl ⟨_, _, cutLast_append hn.slash_not_mem _, hd, hn⟩
  · rintro (⟨domain, name, hcut, hd, hn⟩ | ⟨-, hn⟩)
    · obtain ⟨rfl, -⟩ := cutLast_eq_some_iff.mp hcut
      exact .within hd hn
    · exact .plain hn

theorem LenientKey.ne_nil (h : LenientKey s) : s ≠ [] := by
  cases h with
  | plain hn =>
    cases hn with
    | plain h => exact h.framed.ne_nil
    | broken => simp
  | within => simp

end NamespaceOwnership.LabelSyntax

