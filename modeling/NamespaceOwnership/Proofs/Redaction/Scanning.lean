import NamespaceOwnership.Proofs.Redaction.Rules

/-!
# How a rule goes through a text

A rule gets from one place of a text to a later one (`Scan`) by passing over characters and by replacing values by the
mark. What it writes is made of characters of the text and of marks. So a stretch of the output without a bracket
stands in the text as well, and the rule has come by where it begins, unless it is part of what was kept.
-/
namespace NamespaceOwnership.Redaction

variable {rule : Rule} {before before' : Option Char} {text rest out front u y : List Char} {c : Char} {s : Span}

/-- The word between the brackets of the mark. -/
def markWord : List Char := "REDACTED".toList

theorem mark_eq : mark = '[' :: (markWord ++ [']']) := by decide

@[simp] theorem apply_nil : apply rule before [] = [] := by rw [apply]

theorem apply_cons_of_none (h : rule before (c :: text) = none) :
    apply rule before (c :: text) = c :: apply rule (some c) text := by rw [apply, h]

theorem apply_cons_of_some (h : rule before (c :: text) = some s) : apply rule before (c :: text) =
    (c :: text).take s.kept ++ mark ++ apply rule ((c :: text).take (s.kept + s.hidden)).getLast?
      ((c :: text).drop (s.kept + s.hidden)) := by rw [apply, h]

/-- From one place of a text the rule gets to a later one, and what lies between is rewritten on the way. -/
inductive Scan (rule : Rule) : Option Char → List Char → List Char → Option Char → List Char → Prop where
  | here (before : Option Char) (text : List Char) : Scan rule before text [] before text
  | pass {before before' : Option Char} {c : Char} {text out rest : List Char} (idle : rule before (c :: text) = none)
      (later : Scan rule (some c) text out before' rest) : Scan rule before (c :: text) (c :: out) before' rest
  | skip {before before' : Option Char} {c : Char} {text out rest : List Char} {s : Span}
      (applies : rule before (c :: text) = some s)
      (later : Scan rule ((c :: text).take (s.kept + s.hidden)).getLast? ((c :: text).drop (s.kept + s.hidden)) out
        before' rest) : Scan rule before (c :: text) ((c :: text).take s.kept ++ mark ++ out) before' rest

namespace Scan

theorem apply_eq (h : Scan rule before text out before' rest) :
    apply rule before text = out ++ apply rule before' rest := by
  induction h with
  | here => rfl
  | pass idle _ ih => rw [apply_cons_of_none idle, ih, List.cons_append]
  | skip applies _ ih => rw [apply_cons_of_some applies, ih, List.append_assoc, List.append_assoc, List.append_assoc]

theorem trans {before'' : Option Char} {out' rest' : List Char} (h : Scan rule before text out before' rest)
    (h' : Scan rule before' rest out' before'' rest') : Scan rule before text (out ++ out') before'' rest' := by
  induction h with
  | here => exact h'
  | pass idle _ ih => exact .pass idle (ih h')
  | skip applies _ ih =>
    rw [List.append_assoc]
    exact .skip applies (ih h')

/-- What lies between the two places, and how what is written there ends. -/
theorem exists_behind (h : Scan rule before text out before' rest) : ∃ p, text = p ++ rest ∧
    before' = p.getLast?.or before ∧ (out.getLast? = some ']' ∨ out.getLast? = p.getLast?) := by
  induction h with
  | here => exact ⟨[], rfl, rfl, .inr rfl⟩
  | @pass before before' c text out rest _ _ ih =>
    obtain ⟨p, rfl, rfl, hout⟩ := ih
    refine ⟨c :: p, rfl, ?_, ?_⟩
    · cases p <;> simp [List.getLast?_cons]
    · exact hout.imp (fun h => by simp [List.getLast?_cons, h]) fun h => by simp [List.getLast?_cons, h]
  | @skip before before' c text out rest s _ _ ih =>
    obtain ⟨p, htext, rfl, hout⟩ := ih
    obtain ⟨d, hd⟩ : ∃ d, ((c :: text).take (s.kept + s.hidden)).getLast? = some d := by
      refine Option.isSome_iff_exists.mp (List.getLast?_isSome.mpr ?_)
      have hpos := s.hidden_pos
      simp only [ne_eq, List.take_eq_nil_iff, reduceCtorEq, or_false]
      omega
    refine ⟨(c :: text).take (s.kept + s.hidden) ++ p, ?_, ?_, ?_⟩
    · rw [List.append_assoc, ← htext, List.take_append_drop]
    · rw [List.getLast?_append, hd, Option.or_assoc]
      rfl
    · rw [List.getLast?_append, List.getLast?_append, List.getLast?_append, hd]
      rcases hout with hout | hout
      · exact .inl (by simp [hout])
      · rw [hout]
        cases p.getLast? with
        | none => exact .inl rfl
        | some e => exact .inr rfl

theorem suffix (h : Scan rule before text out before' rest) : rest <:+ text := by
  obtain ⟨p, rfl, -⟩ := h.exists_behind
  exact List.suffix_append p rest

end Scan

theorem Shape.exists_some (shape : Shape rule) {lead value : List Char} (hlead : shape.Lead before lead)
    (hmax : Maximal shape.inClass value rest) : ∃ s, rule before (lead ++ (value ++ rest)) = some s ∧
      s.kept = (shape.kept lead).length ∧ s.kept + s.hidden = (lead ++ value).length := by
  have hkept := (shape.kept_begins lead).length_le
  have hpos := List.length_pos_of_ne_nil hmax.ne_nil
  refine ⟨⟨(shape.kept lead).length, (lead ++ value).length - (shape.kept lead).length, ?_⟩,
    shape.eq_some_iff.mpr ⟨lead, value, rest, rfl, hlead, hmax, rfl, ?_⟩, rfl, ?_⟩ <;>
    simp only [List.length_append] <;> omega

/-- A lead and its value are replaced in one step. -/
theorem Shape.scan (shape : Shape rule) {lead value : List Char} (hlead : shape.Lead before lead)
    (hmax : Maximal shape.inClass value rest) : Scan rule before (lead ++ (value ++ rest)) (shape.kept lead ++ mark)
      (lead ++ value).getLast? rest := by
  obtain ⟨s, hsome, hkept, hend⟩ := shape.exists_some hlead hmax
  obtain ⟨c, later, hfirst, -⟩ := shape.first_letter hlead
  have hscan : Scan rule before (lead ++ (value ++ rest)) ((lead ++ (value ++ rest)).take s.kept ++ mark ++ [])
      ((lead ++ (value ++ rest)).take (s.kept + s.hidden)).getLast?
      ((lead ++ (value ++ rest)).drop (s.kept + s.hidden)) := by
    rw [hfirst, List.cons_append] at hsome ⊢
    exact .skip hsome (.here _ _)
  rw [hend, ← List.append_assoc lead, List.take_left, List.drop_left] at hscan
  have hbegins : shape.kept lead <+: lead ++ value ++ rest :=
    (shape.kept_begins lead).trans ((List.prefix_append lead value).trans (List.prefix_append _ rest))
  have htake : (lead ++ value ++ rest).take s.kept = shape.kept lead := by
    rw [hkept, ← List.prefix_iff_eq_take.mp hbegins]
  rwa [htake, List.append_nil, List.append_assoc] at hscan

/-- The rule does not pass over a lead with characters of a value behind it. -/
theorem Shape.ne_none (shape : Shape rule) {lead value : List Char} (hlead : shape.Lead before lead) (hne : value ≠ [])
    (hvalue : ∀ c ∈ value, shape.inClass c = true) (h : lead ++ value <+: text) : rule before text ≠ none := by
  obtain ⟨rest, rfl⟩ := h
  have hpos : 0 < ((value ++ rest).takeWhile shape.inClass).length := by
    rw [List.takeWhile_append_of_pos hvalue, List.length_append]
    have hlength := List.length_pos_of_ne_nil hne
    omega
  obtain ⟨s, hsome, -⟩ := shape.exists_some hlead (.of_takeWhile hpos)
  rw [List.takeWhile_append_dropWhile] at hsome
  simp [hsome]

/-- The rule passes over a character that is not for a letter. -/
theorem Shape.eq_none (shape : Shape rule) (hc : (fold c).isAlpha = false) : rule before (c :: text) = none := by
  refine Option.eq_none_iff_forall_ne_some.mpr fun s hsome => ?_
  obtain ⟨lead, value, rest, htext, hlead, -⟩ := shape.eq_some_iff.mp hsome
  obtain ⟨d, later, rfl, hd⟩ := shape.first_letter hlead
  obtain ⟨rfl, -⟩ := List.cons.inj htext
  simp [hc] at hd

/-! ## Where a stretch of the output comes from -/

theorem prefix_of_prefix_append_cons {x a b : List Char} {d : Char} (h : x <+: a ++ d :: b) (hd : d ∉ x) :
    x <+: a := by
  obtain ⟨z, hz⟩ := h
  rcases List.append_eq_append_iff.mp hz with ⟨z', rfl, -⟩ | ⟨z', rfl, hz'⟩
  · exact List.prefix_append x z'
  · rcases List.cons_eq_append_iff.mp hz' with ⟨rfl, -⟩ | ⟨z'', rfl, -⟩
    · exact (List.append_nil a).symm ▸ List.prefix_rfl
    · simp at hd

/-- A stretch without brackets. -/
structure Unbracketed (u : List Char) : Prop where
  ne_nil : u ≠ []
  opening : '[' ∉ u
  closing : ']' ∉ u

namespace Unbracketed

theorem infix_of_append_mark (hu : Unbracketed u) {kept : List Char} (h : u <:+: kept ++ mark) :
    u <:+: kept ∨ u <:+: markWord := by
  rw [mark_eq] at h
  rcases List.infix_append_iff.mp h with h | h | ⟨u₁, u₂, rfl, hleft, hright⟩
  · exact .inl h
  · rcases List.infix_cons_iff.mp h with h | h
    · exact absurd (prefix_of_prefix_append_cons (a := []) h hu.opening) (by simpa using hu.ne_nil)
    · rcases List.infix_concat_iff.mp h with h | h
      · rcases List.suffix_concat_iff.mp h with rfl | ⟨_, rfl, -⟩
        · exact absurd rfl hu.ne_nil
        · exact absurd hu.closing (by simp)
      · exact .inr h
  · have hnone := prefix_of_prefix_append_cons (a := []) hright fun hmem => hu.opening (List.mem_append_right u₁ hmem)
    obtain rfl := List.prefix_nil.mp hnone
    exact .inl (by simpa using hleft.isInfix)

/-- The stretch comes behind a mark, or it ends before its closing bracket. -/
theorem behind_mark (hu : Unbracketed u) {kept : List Char} (h : kept ++ mark ++ out = front ++ (u ++ y)) :
    (∃ front', front = kept ++ mark ++ front' ∧ out = front' ++ (u ++ y)) ∨ u <:+: kept ++ mark := by
  rcases List.append_eq_append_iff.mp h with ⟨front', rfl, hout⟩ | ⟨back, hback, hout⟩
  · exact .inl ⟨front', rfl, hout⟩
  rcases List.append_eq_append_iff.mp hout with ⟨later, rfl, -⟩ | ⟨later, rfl, rfl⟩
  · exact .inr ⟨front, later, by rw [hback, List.append_assoc]⟩
  rcases List.eq_nil_or_concat' back with rfl | ⟨init, d, rfl⟩
  · exact .inl ⟨[], by simpa using hback.symm, by simp⟩
  · have hends : (kept ++ '[' :: markWord) ++ [']'] = (front ++ init) ++ [d] := by simpa [mark_eq] using hback
    obtain rfl : ']' = d := by simpa using (List.append_inj' hends rfl).2
    exact absurd hu.closing (by simp)

theorem prefix_of_prefix_apply {x : List Char} (h : x <+: apply rule before text) (hx : '[' ∉ x) : x <+: text := by
  fun_induction apply rule before text generalizing x with
  | case1 => exact h
  | case2 before c text hnone ih =>
    cases x with
    | nil => exact List.nil_prefix
    | cons d x =>
      obtain ⟨rfl, hrest⟩ := List.cons_prefix_cons.mp h
      exact List.cons_prefix_cons.mpr ⟨rfl, ih hrest fun hmem => hx (List.mem_cons_of_mem d hmem)⟩
  | case3 before c text s hsome ih =>
    rw [List.append_assoc, mark_eq] at h
    have hkept : (c :: text).take s.kept <+: c :: text := List.take_prefix _ _
    exact (prefix_of_prefix_append_cons h hx).trans hkept

/-- Where a stretch of the output begins, if it is not inside a mark: the rule has come by there and passed on, or what
stands there was kept. -/
theorem exists_place (hu : Unbracketed u) (h : apply rule before text = front ++ (u ++ y)) :
    (∃ before' place, Scan rule before text front before' place ∧ rule before' place = none ∧ u <+: place) ∨
      u <:+: markWord ∨
      ∃ before' place s, place <:+ text ∧ rule before' place = some s ∧ u <:+: place.take s.kept := by
  fun_induction apply rule before text generalizing front with
  | case1 => simp [hu.ne_nil] at h
  | case2 before c text hnone ih =>
    cases front with
    | nil =>
      have hbegins : u <+: apply rule before (c :: text) := ⟨y, by rw [apply_cons_of_none hnone]; exact h.symm⟩
      exact .inl ⟨before, c :: text, .here _ _, hnone, prefix_of_prefix_apply hbegins hu.opening⟩
    | cons d front =>
      obtain ⟨rfl, hrest⟩ := List.cons.inj h
      rcases ih hrest with ⟨before', place, hscan, hplace⟩ | hmark | ⟨before', place, s, hsuffix, hplace⟩
      · exact .inl ⟨before', place, .pass hnone hscan, hplace⟩
      · exact .inr (.inl hmark)
      · exact .inr (.inr ⟨before', place, s, hsuffix.trans (List.suffix_cons c text), hplace⟩)
  | case3 before c text s hsome ih =>
    rcases hu.behind_mark h with ⟨front', rfl, hrest⟩ | hkept
    · rcases ih hrest with ⟨before', place, hscan, hplace⟩ | hmark | ⟨before', place, s', hsuffix, hplace⟩
      · exact .inl ⟨before', place, .skip hsome hscan, hplace⟩
      · exact .inr (.inl hmark)
      · exact .inr (.inr ⟨before', place, s', hsuffix.trans (List.drop_suffix _ _), hplace⟩)
    · rcases hu.infix_of_append_mark hkept with hkept | hmark
      · exact .inr (.inr ⟨before, c :: text, s, List.suffix_rfl, hsome, hkept⟩)
      · exact .inr (.inl hmark)

/-- A stretch of the output stands in the text, or inside a mark. -/
theorem infix_of_infix_apply (hu : Unbracketed u) (h : u <:+: apply rule before text) :
    u <:+: text ∨ u <:+: markWord := by
  obtain ⟨front, y, hout⟩ := h
  rw [List.append_assoc] at hout
  rcases hu.exists_place hout.symm with ⟨_, place, hscan, -, hbegins⟩ | hmark | ⟨_, place, s, hsuffix, -, hkept⟩
  · exact .inl (hbegins.isInfix.trans hscan.suffix.isInfix)
  · exact .inr hmark
  · have htake : place.take s.kept <+: place := List.take_prefix _ _
    exact .inl (hkept.trans (htake.isInfix.trans hsuffix.isInfix))

end Unbracketed

end NamespaceOwnership.Redaction
