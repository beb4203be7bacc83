/-!
# Cutting a text at a mark

`pieces` cuts at every occurrence of a character, `cutFirst` at the first occurrence of a text and
`cutLast` at the last occurrence of a character. Putting the mark back joins the parts again.
-/
namespace NamespaceOwnership.Text

/-- The parts between the occurrences of `mark`: one more than there are marks. -/
def pieces (mark : Char) : List Char → List (List Char)
  | [] => [[]]
  | c :: s =>
    if c = mark then [] :: pieces mark s
    else match pieces mark s with
      | [] => [[c]]
      | p :: ps => (c :: p) :: ps

/-- What stands before and after the first occurrence of `mark`. -/
def cutFirst (mark : List Char) : List Char → Option (List Char × List Char)
  | [] => if mark.isEmpty then some ([], []) else none
  | c :: s =>
    if mark.isPrefixOf (c :: s) then some ([], (c :: s).drop mark.length)
    else (cutFirst mark s).map fun r => (c :: r.1, r.2)

/-- What stands before and after the last occurrence of `mark`. -/
def cutLast (mark : Char) : List Char → Option (List Char × List Char)
  | [] => none
  | c :: s =>
    match cutLast mark s with
    | some r => some (c :: r.1, r.2)
    | none => if c = mark then some ([], s) else none

theorem pieces_ne_nil (mark : Char) (s : List Char) : pieces mark s ≠ [] := by
  cases s with
  | nil => simp [pieces]
  | cons c s =>
    unfold pieces
    split
    · simp
    · split <;> simp

@[simp] theorem pieces_mark (mark : Char) (s : List Char) : pieces mark (mark :: s) = [] :: pieces mark s := by
  simp [pieces]

/-- Another character belongs to the first part. -/
theorem exists_pieces_cons {mark c : Char} (h : c ≠ mark) (s : List Char) :
    ∃ p ps, pieces mark s = p :: ps ∧ pieces mark (c :: s) = (c :: p) :: ps := by
  cases hs : pieces mark s with
  | nil => exact absurd hs (pieces_ne_nil mark s)
  | cons p ps => exact ⟨p, ps, rfl, by simp [pieces, h, hs]⟩

theorem intercalate_pieces (mark : Char) (s : List Char) : [mark].intercalate (pieces mark s) = s := by
  induction s with
  | nil => rfl
  | cons c s ih =>
    by_cases h : c = mark
    · subst h
      rw [pieces_mark, List.intercalate_cons_of_ne_nil (pieces_ne_nil c s), ih]
      rfl
    · obtain ⟨p, ps, hs, hcs⟩ := exists_pieces_cons h s
      rw [hs] at ih
      rw [hcs, ← ih]
      cases ps <;> simp

theorem mem_intercalate_of_mem {mark c : Char} {parts : List (List Char)} {p : List Char} (hp : p ∈ parts)
    (hc : c ∈ p) : c ∈ [mark].intercalate parts := by
  induction parts with
  | nil => cases hp
  | cons q qs ih =>
    cases qs with
    | nil => simpa [List.mem_singleton.mp hp] using hc
    | cons r rs =>
      rw [List.intercalate_cons_cons, List.append_assoc, List.mem_append, List.mem_append]
      rcases List.mem_cons.mp hp with rfl | hp
      · exact .inl hc
      · exact .inr (.inr (ih hp))

/-- Joined parts have no characters but their own and the mark. -/
theorem mem_intercalate {mark c : Char} {parts : List (List Char)} (h : c ∈ [mark].intercalate parts) :
    c = mark ∨ ∃ p ∈ parts, c ∈ p := by
  induction parts with
  | nil => cases h
  | cons p ps ih =>
    cases ps with
    | nil => exact .inr ⟨p, List.mem_cons_self, by simpa using h⟩
    | cons q qs =>
      rw [List.intercalate_cons_cons, List.append_assoc, List.singleton_append, List.mem_append, List.mem_cons] at h
      rcases h with h | h | h
      · exact .inr ⟨p, List.mem_cons_self, h⟩
      · exact .inl h
      · exact (ih h).imp_right fun ⟨r, hr, hc⟩ => ⟨r, List.mem_cons_of_mem p hr, hc⟩

/-- A text without a mark is a part of its own. -/
theorem pieces_of_not_mem {mark : Char} {s : List Char} (h : mark ∉ s) : pieces mark s = [s] := by
  induction s with
  | nil => rfl
  | cons c s ih =>
    obtain ⟨hc, hs⟩ : mark ≠ c ∧ mark ∉ s := by simpa using h
    simp [pieces, Ne.symm hc, ih hs]

theorem pieces_append_mark {mark : Char} {s : List Char} (h : mark ∉ s) (rest : List Char) :
    pieces mark (s ++ mark :: rest) = s :: pieces mark rest := by
  induction s with
  | nil => simp
  | cons c s ih =>
    obtain ⟨hc, hs⟩ : mark ≠ c ∧ mark ∉ s := by simpa using h
    simp [pieces, Ne.symm hc, ih hs]

theorem pieces_intercalate {mark : Char} {parts : List (List Char)} (hne : parts ≠ [])
    (h : ∀ p ∈ parts, mark ∉ p) : pieces mark ([mark].intercalate parts) = parts := by
  induction parts with
  | nil => exact absurd rfl hne
  | cons p ps ih =>
    obtain ⟨hp, hps⟩ := List.forall_mem_cons.mp h
    cases ps with
    | nil => simpa using pieces_of_not_mem hp
    | cons q qs =>
      rw [List.intercalate_cons_cons, List.append_assoc, List.singleton_append, pieces_append_mark hp,
        ih (List.cons_ne_nil q qs) hps]

theorem cutFirst_eq_none_iff {mark s : List Char} (hmark : mark ≠ []) : cutFirst mark s = none ↔ ¬mark <:+: s := by
  induction s with
  | nil => simp [cutFirst, hmark]
  | cons c s ih =>
    by_cases hstart : mark <+: c :: s
    · simp [cutFirst, hstart, List.infix_cons_iff]
    · simp [cutFirst, hstart, List.infix_cons_iff, ih]

theorem cutFirst_append {c : Char} {mark a : List Char} (h : c ∉ a) (b : List Char) :
    cutFirst (c :: mark) (a ++ (c :: mark ++ b)) = some (a, b) := by
  induction a with
  | nil => simp [cutFirst]
  | cons d a ih =>
    obtain ⟨hd, ha⟩ : c ≠ d ∧ c ∉ a := by simpa using h
    have hstart : ¬c :: mark <+: d :: (a ++ (c :: mark ++ b)) := fun h => hd (List.cons_prefix_cons.mp h).1
    rw [List.cons_append, cutFirst, if_neg (by simpa using hstart), ih ha]
    rfl

theorem cutLast_eq_none_iff {mark : Char} {s : List Char} : cutLast mark s = none ↔ mark ∉ s := by
  induction s with
  | nil => simp [cutLast]
  | cons c s ih =>
    cases hs : cutLast mark s with
    | some r => simp [cutLast, hs, ← ih]
    | none =>
      have hmem : mark ∉ s := ih.mp hs
      by_cases hc : c = mark
      · simp [cutLast, hs, hc]
      · simp [cutLast, hs, hc, hmem, Ne.symm hc]

theorem cutLast_append {mark : Char} {b : List Char} (h : mark ∉ b) (a : List Char) :
    cutLast mark (a ++ mark :: b) = some (a, b) := by
  induction a with
  | nil => simp [cutLast, cutLast_eq_none_iff.mpr h]
  | cons c a ih => simp [cutLast, ih]

theorem cutLast_eq_some_iff {mark : Char} {s a b : List Char} :
    cutLast mark s = some (a, b) ↔ s = a ++ mark :: b ∧ mark ∉ b := by
  constructor
  · intro h
    induction s generalizing a with
    | nil => cases h
    | cons c s ih =>
      cases hs : cutLast mark s with
      | some r =>
        obtain ⟨a', b'⟩ := r
        simp only [cutLast, hs, Option.some.injEq, Prod.mk.injEq] at h
        obtain ⟨rfl, rfl⟩ := h
        obtain ⟨rfl, hb⟩ := ih hs
        exact ⟨rfl, hb⟩
      | none =>
        by_cases hc : c = mark
        · simp only [cutLast, hs, hc, if_true, Option.some.injEq, Prod.mk.injEq] at h
          obtain ⟨rfl, rfl⟩ := h
          exact ⟨by rw [hc, List.nil_append], cutLast_eq_none_iff.mp hs⟩
        · simp [cutLast, hs, hc] at h
  · rintro ⟨rfl, hb⟩
    exact cutLast_append hb a

end NamespaceOwnership.Text
