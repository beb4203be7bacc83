import NamespaceOwnership.Proofs.Redaction.Scanning

/-!
# No credential is left

After redaction no text has the form of a bearer token, and none at a word boundary that of an access token. The first
rule leaves no bearer token of its own, and the later rules do not make one out of what they hide, because a bearer
token has no bracket. The last rule may move a word boundary: behind a mark begins a word that did not begin there
before. But such a word does not begin with a character of a token, or the rule would have hidden that as well.
-/
namespace NamespaceOwnership.Redaction

open Text

variable {rule : Rule} {before before' : Option Char} {text place u : List Char} {s : Span}

/-- The word "bearer" in any case, white space, and characters of a token. -/
def BearerToken (u : List Char) : Prop :=
  ∃ lead value, u = lead ++ value ∧ BearerLead lead ∧ value ≠ [] ∧ ∀ c ∈ value, isBearerCharacter c = true

/-- The text "dt0", a small letter, two digits, a point, and characters of a token. -/
def AccessToken (u : List Char) : Prop :=
  ∃ lead value, u = lead ++ value ∧ AccessLead lead ∧ value ≠ [] ∧ ∀ c ∈ value, isTokenCharacter c = true

/-! ## Bearer tokens -/

namespace BearerToken

theorem exists_gap (h : BearerToken u) : ∃ word gap value, u = word ++ (gap ++ value) ∧
    word.map fold = "bearer".toList ∧ gap ≠ [] ∧ Blank gap ∧ value ≠ [] ∧ ∀ c ∈ value, isBearerCharacter c = true := by
  obtain ⟨_, value, rfl, ⟨word, gap, rfl, hword, hne, hgap⟩, hvalue⟩ := h
  exact ⟨word, gap, value, List.append_assoc .., hword, hne, hgap, hvalue⟩

theorem not_mem (h : BearerToken u) {c : Char} (hfold : fold c ∉ "bearer".toList) (hblank : isBlank c = false)
    (hclass : isBearerCharacter c = false) : c ∉ u := by
  obtain ⟨word, gap, value, rfl, hword, -, hgap, -, hvalue⟩ := h.exists_gap
  intro hmem
  rcases List.mem_append.mp hmem with hmem | hmem
  · exact hfold (hword ▸ List.mem_map_of_mem hmem)
  rcases List.mem_append.mp hmem with hmem | hmem
  · simp [hgap c hmem] at hblank
  · simp [hvalue c hmem] at hclass

theorem unbracketed (h : BearerToken u) : Unbracketed u where
  ne_nil := by
    obtain ⟨word, gap, value, rfl, -, hne, -⟩ := h.exists_gap
    simp [hne]
  opening := h.not_mem (by decide) (by decide +kernel) (by decide)
  closing := h.not_mem (by decide) (by decide +kernel) (by decide)

theorem exists_blank (h : BearerToken u) : ∃ c ∈ u, isBlank c = true := by
  obtain ⟨word, gap, value, rfl, -, hne, hgap, -⟩ := h.exists_gap
  obtain ⟨c, gap, rfl⟩ := List.exists_cons_of_ne_nil hne
  exact ⟨c, by simp, hgap c List.mem_cons_self⟩

theorem not_inside_mark (h : BearerToken u) : ¬u <:+: markWord := by
  intro hstands
  obtain ⟨c, hc, hblank⟩ := h.exists_blank
  have hplain : ∀ c ∈ markWord, isBlank c = false := forall_mem_of_all (by decide +kernel)
  simp [hplain c (hstands.mem hc)] at hblank

/-- No bearer token stands in what the first rule keeps. -/
theorem not_kept (h : BearerToken u) (hsome : bearer before place = some s) : ¬u <:+: place.take s.kept := by
  intro hstands
  obtain ⟨lead, value, rest, rfl, hlead, -, hkept, -⟩ := bearer_eq_some_iff.mp hsome
  rw [hkept, List.take_left] at hstands
  have hpairs := hlead.pairwise.sublist hstands.sublist
  obtain ⟨word, gap, value, rfl, -, hgapne, hgap, hne, hvalue⟩ := h.exists_gap
  obtain ⟨c, gap, rfl⟩ := List.exists_cons_of_ne_nil hgapne
  obtain ⟨d, value, rfl⟩ := List.exists_cons_of_ne_nil hne
  have hcross := (List.pairwise_append.mp (List.pairwise_append.mp hpairs).2.1).2.2 c List.mem_cons_self d
    List.mem_cons_self (hgap c List.mem_cons_self)
  simp [not_blank_of_isBearerCharacter (hvalue d List.mem_cons_self)] at hcross

theorem not_infix_apply (h : BearerToken u) : ¬u <:+: apply bearer before text := by
  rintro ⟨front, y, hout⟩
  rw [List.append_assoc] at hout
  rcases h.unbracketed.exists_place hout.symm with
    ⟨_, place, -, hnone, hbegins⟩ | hmark | ⟨_, place, s, -, hsome, hkept⟩
  · obtain ⟨lead, value, rfl, hlead, hne, hvalue⟩ := h
    exact bearerShape.ne_none hlead hne hvalue hbegins hnone
  · exact h.not_inside_mark hmark
  · exact h.not_kept hsome hkept

end BearerToken

/-! ## Access tokens -/

namespace AccessToken

theorem isTokenCharacter (h : AccessToken u) : ∀ c ∈ u, isTokenCharacter c = true := by
  obtain ⟨lead, value, rfl, hlead, -, hvalue⟩ := h
  exact List.forall_mem_append.mpr ⟨hlead.isTokenCharacter, hvalue⟩

theorem unbracketed (h : AccessToken u) : Unbracketed u where
  ne_nil := by
    obtain ⟨_, value, rfl, hlead, -⟩ := h
    simp [hlead.ne_nil]
  opening hmem := absurd (h.isTokenCharacter _ hmem) (by decide)
  closing hmem := absurd (h.isTokenCharacter _ hmem) (by decide)

theorem not_inside_mark (h : AccessToken u) : ¬u <:+: markWord := by
  obtain ⟨_, value, rfl, ⟨kind, tens, ones, rfl, -⟩, -⟩ := h
  intro hstands
  have hd : 'd' ∉ markWord := by decide
  exact hd (hstands.mem (by simp))

end AccessToken

/-- A rule that has written nothing has not moved. -/
theorem Scan.eq_of_nil (h : Scan rule before text [] before' place) : before' = before ∧ place = text := by
  generalize hout : ([] : List Char) = out at h
  cases h with
  | here => exact ⟨rfl, rfl⟩
  | pass => cases hout
  | skip => simp [mark_eq] at hout

/-- Where the last rule gets, the character before is the last that it has written, or it has just hidden a token and
no character of a token follows. -/
theorem Scan.before_eq {front : List Char} (h : Scan accessToken before text front before' place) :
    before' = front.getLast?.or before ∨ ∀ c ∈ place.head?, isTokenCharacter c = false := by
  induction h with
  | here => exact .inl rfl
  | @pass before before' c text out rest idle later ih =>
    refine ih.imp_left fun h => ?_
    rw [h, List.getLast?_cons]
    cases out.getLast? <;> rfl
  | @skip before before' c text out rest s applies later ih =>
    obtain ⟨lead, value, rest', htext, -, hmax, -, hend⟩ := accessToken_eq_some_iff.mp applies
    rcases List.eq_nil_or_concat' out with rfl | ⟨init, d, rfl⟩
    · right
      rw [later.eq_of_nil.2, hend, htext, ← List.append_assoc, List.drop_left]
      exact hmax.outside
    · refine ih.imp_left fun h => ?_
      simp [h]

namespace AccessToken

theorem not_at_boundary (h : AccessToken u) {front y : List Char}
    (hout : apply accessToken none text = front ++ (u ++ y)) : wordBoundary front.getLast? u = false := by
  rcases h.unbracketed.exists_place hout with ⟨before', place, hscan, hnone, hbegins⟩ | hmark |
    ⟨before', place, s, -, hsome, hkept⟩
  · rcases hscan.before_eq with hbefore | hhead
    · obtain ⟨lead, value, rfl, hlead, hne, hvalue⟩ := h
      refine Bool.eq_false_iff.mpr fun hboundary => accessTokenShape.ne_none ⟨?_, hlead⟩ hne hvalue hbegins hnone
      rw [hbefore, Option.or_none, ← wordBoundary_append hlead.ne_nil value]
      exact hboundary
    · obtain ⟨rest, rfl⟩ := hbegins
      obtain ⟨c, u, rfl⟩ := List.exists_cons_of_ne_nil h.unbracketed.ne_nil
      have hc := hhead c rfl
      simp [h.isTokenCharacter c List.mem_cons_self] at hc
  · exact absurd hmark h.not_inside_mark
  · obtain ⟨_, _, _, -, -, -, hkept', -⟩ := accessToken_eq_some_iff.mp hsome
    rw [hkept', List.take_zero, List.infix_nil] at hkept
    exact absurd hkept h.unbracketed.ne_nil

end AccessToken

/-! ## All rules -/

theorem redact_eq (text : List Char) :
    redact text = apply accessToken none (apply assignment none (apply bearer none text)) := rfl

/-- No bearer token stands in a text after redaction, and no access token at a word boundary. -/
theorem redact_leaves_no_credential (text : List Char) : ¬∃ front u rest, redact text = front ++ (u ++ rest) ∧
    (BearerToken u ∨ wordBoundary front.getLast? (u ++ rest) = true ∧ AccessToken u) := by
  rintro ⟨front, u, rest, hout, h | ⟨hboundary, h⟩⟩
  · have hlast : u <:+: apply accessToken none (apply assignment none (apply bearer none text)) :=
      ⟨front, rest, by rw [← redact_eq, hout, List.append_assoc]⟩
    have hmiddle := (h.unbracketed.infix_of_infix_apply hlast).resolve_right h.not_inside_mark
    have hfirst := (h.unbracketed.infix_of_infix_apply hmiddle).resolve_right h.not_inside_mark
    exact h.not_infix_apply hfirst
  · rw [wordBoundary_append h.unbracketed.ne_nil, h.not_at_boundary (redact_eq text ▸ hout)] at hboundary
    cases hboundary

end NamespaceOwnership.Redaction
