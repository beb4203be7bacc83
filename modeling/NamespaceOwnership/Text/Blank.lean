import NamespaceOwnership.Text.Ranges

/-!
# White space

Twenty-nine characters are blank: those with the Unicode property White_Space and the four
separators U+001C to U+001F. `trim` drops them at both ends of a text.
-/
namespace NamespaceOwnership.Text

def blankRanges : Ranges :=
  [(0x09, 0x0D), (0x1C, 0x20), (0x85, 0x85), (0xA0, 0xA0), (0x1680, 0x1680), (0x2000, 0x200A),
   (0x2028, 0x2029), (0x202F, 0x202F), (0x205F, 0x205F), (0x3000, 0x3000)]

def isBlank (c : Char) : Bool := blankRanges.contains c.toNat

def trimLeft (s : List Char) : List Char := s.dropWhile isBlank

def trimRight (s : List Char) : List Char := (s.reverse.dropWhile isBlank).reverse

def trim (s : List Char) : List Char := trimRight (trimLeft s)

theorem isBlank_of_isWhitespace (c : Char) (h : c.isWhitespace = true) : isBlank c = true := by
  simp [Char.isWhitespace] at h
  rcases h with ((h | h) | h) | h <;> subst h <;> decide

theorem trimLeft_of_not_blank {c : Char} (s : List Char) (h : isBlank c = false) :
    trimLeft (c :: s) = c :: s := by
  simp [trimLeft, h]

def Blank (s : List Char) : Prop := ∀ c ∈ s, isBlank c = true

instance (s : List Char) : Decidable (Blank s) := List.decidableBAll (fun c => isBlank c = true) s

/-- It begins and ends with characters that are not blank. -/
structure Tight (s : List Char) : Prop where
  first : ∃ c rest, s = c :: rest ∧ isBlank c = false
  last : ∃ before c, s = before ++ [c] ∧ isBlank c = false

theorem Tight.append {s t : List Char} (hs : Tight s) (ht : Tight t) (between : List Char) :
    Tight (s ++ (between ++ t)) := by
  obtain ⟨c, rest, rfl, hc⟩ := hs.first
  obtain ⟨before, d, rfl, hd⟩ := ht.last
  exact ⟨⟨c, _, rfl, hc⟩, ⟨c :: (rest ++ (between ++ before)), d, by simp, hd⟩⟩

theorem trimLeft_append {gap s : List Char} (h : Blank gap) : trimLeft (gap ++ s) = trimLeft s :=
  List.dropWhile_append_of_pos h

theorem trimRight_append {gap s : List Char} (h : Blank gap) : trimRight (s ++ gap) = trimRight s := by
  have hreverse : ∀ c ∈ gap.reverse, isBlank c = true := fun c hc => h c (List.mem_reverse.mp hc)
  rw [trimRight, List.reverse_append, List.dropWhile_append_of_pos hreverse, trimRight]

theorem Tight.trimLeft_append {s : List Char} (h : Tight s) (rest : List Char) : trimLeft (s ++ rest) = s ++ rest := by
  obtain ⟨c, s, rfl, hc⟩ := h.first
  exact trimLeft_of_not_blank _ hc

theorem Tight.trimRight {s : List Char} (h : Tight s) : trimRight s = s := by
  obtain ⟨before, c, rfl, hc⟩ := h.last
  simp [Text.trimRight, hc]

theorem Tight.trim_append_gap {s gap : List Char} (h : Tight s) (hgap : Blank gap) : trim (s ++ gap) = s := by
  rw [trim, h.trimLeft_append, trimRight_append hgap, h.trimRight]

theorem Tight.trim_gap_append {s gap : List Char} (h : Tight s) (hgap : Blank gap) : trim (gap ++ s) = s := by
  rw [trim, Text.trimLeft_append hgap, ← List.append_nil s, h.trimLeft_append, List.append_nil, h.trimRight]

theorem Tight.trim_padded {s before after : List Char} (h : Tight s) (hbefore : Blank before) (hafter : Blank after) :
    trim (before ++ s ++ after) = s := by
  rw [trim, List.append_assoc, Text.trimLeft_append hbefore, ← trim, h.trim_append_gap hafter]

theorem not_mem_of_blank {c : Char} {gap : List Char} (h : Blank gap) (hc : isBlank c = false) : c ∉ gap :=
  fun hmem => by simp [h c hmem] at hc

theorem mem_dropWhile {p : Char → Bool} {c : Char} {s : List Char} (hmem : c ∈ s) (hc : p c = false) :
    c ∈ s.dropWhile p := by
  rw [← List.takeWhile_append_dropWhile (p := p) (l := s)] at hmem
  rcases List.mem_append.mp hmem with h | h
  · simp [List.all_eq_true.mp List.all_takeWhile c h] at hc
  · exact h

/-- What is not blank is not trimmed off. -/
theorem mem_trim {c : Char} {s : List Char} (hmem : c ∈ s) (hc : isBlank c = false) : c ∈ trim s :=
  List.mem_reverse.mpr (mem_dropWhile (List.mem_reverse.mpr (mem_dropWhile hmem hc)) hc)

end NamespaceOwnership.Text
