import NamespaceOwnership.Proofs.Redaction.Approach

/-!
# The rules at a keyword

A keyword to which something is assigned either goes with a value that began before it, or the first rule gets to it
and leaves it, and the second rule gets to it or to a longer keyword that ends in it.
-/
namespace NamespaceOwnership.Redaction

open Text

variable {before b : Option Char} {p k s y lead next rest : List Char} {c : Char}

/-! ## Characters -/

theorem not_letter_of_isBlank (h : isBlank c = true) : (fold c).isAlpha = false := by
  cases hletter : (fold c).isAlpha with
  | false => rfl
  | true =>
    have hword : isWord c = true := isWord_of_fold (by simp [Char.isAlphanum, hletter])
    simp [isWord_of_isBlank h] at hword

theorem not_token_of_isBlank (h : isBlank c = true) : isTokenCharacter c = false := by
  have hsigns : isBlank '_' = false ∧ isBlank '.' = false ∧ isBlank '-' = false := by decide +kernel
  cases htoken : isTokenCharacter c with
  | false => rfl
  | true =>
    simp only [isTokenCharacter, Bool.or_eq_true, beq_iff_eq] at htoken
    rcases htoken with ((hword | rfl) | rfl) | rfl
    · simp [not_blank_of_isWord (isWord_of_isAlphanum c hword)] at h
    · simp [hsigns] at h
    · simp [hsigns] at h
    · simp [hsigns] at h

theorem Separator.mem (hs : Separator s) (hc : c ∈ s) : isBlank c = true ∨ c = ':' ∨ c = '=' := by
  obtain ⟨gap, sign, gap', rfl, hgap, hsign, hgap'⟩ := hs
  rcases List.mem_append.mp hc with hc | hc
  · exact .inl (hgap c hc)
  rcases List.mem_cons.mp hc with rfl | hc
  · exact .inr hsign
  · exact .inl (hgap' c hc)

theorem Separator.not_letter (hs : Separator s) : ∀ c ∈ s, (fold c).isAlpha = false := by
  intro c hc
  rcases hs.mem hc with hblank | rfl | rfl
  · exact not_letter_of_isBlank hblank
  · decide
  · decide

theorem Separator.not_token (hs : Separator s) : ∀ c ∈ s, isTokenCharacter c = false := by
  intro c hc
  rcases hs.mem hc with hblank | rfl | rfl
  · exact not_token_of_isBlank hblank
  · decide
  · decide

/-- The characters of the words to which something is assigned. -/
theorem mem_of_assigned (hk : k.map fold ∈ assignedWords) :
    ∀ c ∈ k, ((fold c).isAlpha = true ∧ fold c ≠ 'b') ∨ c = '_' ∨ c = '-' := by
  have hwords : ∀ d ∈ assignedWords.flatten, (d.isAlpha = true ∧ d ≠ 'b') ∨ d = '_' ∨ d = '-' :=
    forall_mem_of_all (by decide)
  intro c hc
  exact (hwords (fold c) (List.mem_flatten.mpr ⟨_, hk, List.mem_map_of_mem hc⟩)).imp_right
    (Or.imp (eq_of_fold · (by decide)) (eq_of_fold · (by decide)))

/-- What stands for a letter or digit is part of whatever value a rule hides. -/
theorem class_of_isAlphanum (h : (fold c).isAlphanum = true) :
    isBearerCharacter c = true ∧ isAssignedCharacter c = true := by
  refine ⟨by simp [isBearerCharacter, h], ?_⟩
  have hne : c ≠ ',' ∧ c ≠ ';' := ⟨by rintro rfl; revert h; decide, by rintro rfl; revert h; decide⟩
  simp [isAssignedCharacter, not_blank_of_isWord (isWord_of_fold h), hne]

theorem class_of_assigned (hk : k.map fold ∈ assignedWords) :
    ∀ c ∈ k, isBearerCharacter c = true ∧ isAssignedCharacter c = true := by
  have hsigns : ∀ c, c = '_' ∨ c = '-' → isBearerCharacter c = true ∧ isAssignedCharacter c = true := by
    rintro c (rfl | rfl) <;> decide +kernel
  intro c hc
  exact (mem_of_assigned hk c hc).elim (fun h => class_of_isAlphanum (by simp [Char.isAlphanum, h.1])) (hsigns c)

/-! ## Where a lead ends -/

/-- The first rule does not look for leads across the end of a text whose last character is not of a word. -/
theorem BearerLead.begins (h : BearerLead lead) (hne : y ≠ []) (hlast : ∀ c ∈ y.getLast?, isWord c = false)
    (hnext : ∀ c ∈ next.head?, isBlank c = false) (htext : y ++ next = lead ++ rest) : lead <+: y := by
  rcases List.append_eq_append_iff.mp htext with ⟨m, rfl, rfl⟩ | ⟨m, rfl, -⟩
  · cases m with
    | nil => simp
    | cons d m =>
      obtain ⟨init, c, rfl⟩ := (List.eq_nil_or_concat' y).resolve_left hne
      have hblank : isBlank c = true := (h.mem (by simp)).resolve_left (by simp [hlast c (by simp)])
      have hcross := (List.pairwise_append.mp h.pairwise).2.2 c (by simp) d List.mem_cons_self hblank
      simp [hnext d rfl] at hcross
  · exact List.prefix_append lead m

/-- A keyword with a sign in it ends in a keyword. -/
theorem assigned_of_append {u v : List Char} {d : Char} (h : u ++ [d] ++ v ∈ assignedWords)
    (hsign : d.isAlphanum = false) (hne : d ≠ '_') : v ∈ assignedWords := by
  have hwords : ∀ w ∈ assignedWords, ∀ n < w.length,
      (w.drop n).head?.any (fun d => !d.isAlphanum && d != '_') = true → w.drop (n + 1) ∈ assignedWords := by decide
  have hdrop := hwords _ h u.length (by simp) (by simp [hsign, hne])
  simpa [← List.drop_drop] using hdrop

/-- Nor does the second rule, but for where it finds a keyword that ends in the one that follows. -/
theorem AssignmentLead.begins (h : AssignmentLead b lead) (hne : y ≠ []) (hlast : ∀ c ∈ y.getLast?, isWord c = false)
    (hk : k.map fold ∈ assignedWords) (hnext : k <+: next) (htext : y ++ next = lead ++ rest)
    (hstop : ¬(wordBoundary b (y ++ k) = true ∧ (y ++ k).map fold ∈ assignedWords)) : lead <+: y := by
  obtain ⟨hboundary, word, separator, rfl, hword, hseparator⟩ := h
  obtain ⟨after, rfl⟩ := hnext
  rw [List.append_assoc] at htext
  rcases List.append_eq_append_iff.mp htext with ⟨m, rfl, hafter⟩ | ⟨m, rfl, hafter⟩
  · -- the word goes on behind `y`, so it ends in the keyword
    obtain ⟨init, c, rfl⟩ := (List.eq_nil_or_concat' y).resolve_left hne
    have hc : isWord c = false := hlast c (by simp)
    have hm : m.map fold ∈ assignedWords := by
      rw [List.map_append, List.map_append] at hword
      refine assigned_of_append hword ?_ fun hfold => ?_
      · exact Bool.eq_false_iff.mpr fun hfold => by simp [isWord_of_fold hfold] at hc
      · rw [eq_of_fold hfold (by decide)] at hc
        revert hc
        decide +kernel
    obtain ⟨rfl, -⟩ := assigned_unique hk hm hafter
    rw [wordBoundary_append (by simp)] at hboundary
    exact absurd ⟨hboundary, hword⟩ hstop
  · -- the separator does not go on behind `y`, where a letter comes
    obtain ⟨c, k, rfl, hletter⟩ := letter_of_assigned hk
    have hc : c ∉ separator := fun hc => by simp [hseparator.not_letter c hc] at hletter
    exact (List.prefix_append_right_inj word).mpr (prefix_of_prefix_append_cons ⟨rest, hafter⟩ hc)

/-! ## The rules at a keyword -/

theorem closing_not_mem (hk : k.map fold ∈ assignedWords) : ']' ∉ k := by
  intro hmem
  rcases mem_of_assigned hk _ hmem with ⟨hletter, -⟩ | h | h
  · revert hletter; decide
  · revert h; decide
  · revert h; decide

theorem ne_nil_of_assigned (hk : k.map fold ∈ assignedWords) : k ≠ [] := by
  obtain ⟨c, k, rfl, -⟩ := letter_of_assigned hk
  exact List.cons_ne_nil c k

theorem class_of_head {inClass : Char → Bool} (hk : k.map fold ∈ assignedWords)
    (hclass : ∀ c ∈ k, inClass c = true) : ∀ next, k <+: next → ∃ c ∈ next.head?, inClass c = true := by
  obtain ⟨c, k, rfl, -⟩ := letter_of_assigned hk
  rintro _ ⟨later, rfl⟩
  exact ⟨c, rfl, hclass c List.mem_cons_self⟩

theorem bearer_idle (hc : fold c ≠ 'b') : bearer before (c :: next) = none := by
  refine Option.eq_none_iff_forall_ne_some.mpr fun s hsome => hc ?_
  obtain ⟨_, value, rest, htext, ⟨word, gap, rfl, hword, -⟩, -⟩ := bearer_eq_some_iff.mp hsome
  cases word with
  | nil => simp at hword
  | cons d word =>
    obtain ⟨rfl, -⟩ := List.cons.inj htext
    exact (List.cons.inj hword).1

theorem apply_eq_self {rule : Rule} (h : ∃ b, Scan rule before (k ++ []) k b []) : apply rule before k = k := by
  obtain ⟨b, hscan⟩ := h
  simpa using hscan.apply_eq

theorem scan_bearer (hk : ∀ c ∈ k, fold c ≠ 'b') (before : Option Char) (next : List Char) :
    ∃ b, Scan bearer before (k ++ next) k b next := by
  refine Scan.of_idle fun b y hy hne => ?_
  obtain ⟨c, y, rfl⟩ := List.exists_cons_of_ne_nil hne
  exact bearer_idle (hk c (hy.mem List.mem_cons_self))

theorem not_b_of_assigned (hk : k.map fold ∈ assignedWords) : ∀ c ∈ k, fold c ≠ 'b' := by
  intro c hc
  rcases mem_of_assigned hk c hc with ⟨-, h⟩ | rfl | rfl
  · exact h
  · decide
  · decide

/-- Nothing is assigned to a keyword by itself. -/
theorem scan_assignment (hk : k.map fold ∈ assignedWords) : ∃ b, Scan assignment before (k ++ []) k b [] := by
  refine Scan.of_idle fun b y hy _ => Option.eq_none_iff_forall_ne_some.mpr fun s hsome => ?_
  rw [List.append_nil] at hsome
  obtain ⟨_, value, rest, rfl, ⟨-, word, _, rfl, -, gap, sign, gap', rfl, -, hsign, -⟩, -⟩ :=
    assignment_eq_some_iff.mp hsome
  have hmem : sign ∈ k := hy.mem (by simp)
  have hletters : ∀ c ∈ k, c ≠ ':' ∧ c ≠ '=' := by
    intro c hc
    rcases mem_of_assigned hk c hc with ⟨hletter, -⟩ | rfl | rfl
    · exact ⟨by rintro rfl; revert hletter; decide, by rintro rfl; revert hletter; decide⟩
    · decide
    · decide
  exact hsign.elim (hletters sign hmem).1 (hletters sign hmem).2

theorem getLast?_of_suffix (h : y <:+ p) (hne : y ≠ []) : y.getLast? = p.getLast? := by
  obtain ⟨z, rfl⟩ := h
  obtain ⟨init, c, rfl⟩ := (List.eq_nil_or_concat' y).resolve_left hne
  simp

/-- Either the first rule hides the keyword, whatever follows it, or it leaves it and goes on with what follows. -/
theorem bearer_at_keyword (hp : ∀ c ∈ p.getLast?, isWord c = false) (hk : k.map fold ∈ assignedWords) :
    (¬k <:+ apply bearer none (p ++ k) ∧ bearerShape.Swallows none p (k <+: ·)) ∨
      ∃ out b, (∀ c ∈ out.getLast?, isWord c = false) ∧ apply bearer none (p ++ k) = out ++ k ∧
        ∀ next, k <+: next → Scan bearer none (p ++ next) out b next := by
  have hclass : ∀ c ∈ k, isBearerCharacter c = true := fun c hc => (class_of_assigned hk c hc).1
  have hcases : bearerShape.Swallows none p (k <+: ·) ∨ Reaches bearer none p (k <+: ·) fun _ _ => False := by
    refine bearerShape.swallows_or_reaches (class_of_head hk hclass) fun b y next lead rest hy hne _ hnext hlead => ?_
    refine BearerLead.begins hlead hne (getLast?_of_suffix hy hne ▸ hp) fun c hc => ?_
    obtain ⟨d, hd, hclass⟩ := class_of_head hk hclass next hnext
    obtain rfl := Option.mem_unique hd hc
    exact not_blank_of_isBearerCharacter hclass
  rcases hcases with h | ⟨out, b, y, -, hy, hscan⟩
  · exact .inl ⟨h.not_suffix (ne_nil_of_assigned hk) (closing_not_mem hk) hclass, h⟩
  obtain rfl : y = [] := hy.resolve_right id
  obtain ⟨q, hq, -, hout⟩ := (hscan k List.prefix_rfl).exists_behind
  obtain rfl := List.append_cancel_right hq
  refine .inr ⟨out, b, fun c hc => ?_, ?_, hscan⟩
  · rcases hout with hout | hout
    · obtain rfl : ']' = c := by simpa [hout] using hc
      decide +kernel
    · exact hp c (hout ▸ hc)
  · rw [(hscan k List.prefix_rfl).apply_eq, List.nil_append, apply_eq_self (scan_bearer (not_b_of_assigned hk) b [])]

theorem wordBoundary_keyword (hp : ∀ c ∈ p.getLast?, isWord c = false) (hk : k.map fold ∈ assignedWords) :
    wordBoundary (p.getLast?.or none) ([] ++ k) = true := by
  obtain ⟨c, k, rfl, hletter⟩ := letter_of_assigned hk
  have hc : isWord c = true := isWord_of_fold (by simp [Char.isAlphanum, hletter])
  cases hlast : p.getLast? with
  | none => simp [wordBoundary, hc]
  | some d => simp [wordBoundary, hc, hp d hlast]

/-- The same for the second rule, only that it may take the keyword for the end of a longer one. -/
theorem assignment_at_keyword (hp : ∀ c ∈ p.getLast?, isWord c = false) (hk : k.map fold ∈ assignedWords) :
    (¬k <:+ apply assignment none (p ++ k) ∧ assignmentShape.Swallows none p (k <+: ·)) ∨
      k <:+ apply assignment none (p ++ k) ∧ ∃ out b y, wordBoundary b (y ++ k) = true ∧
        (y ++ k).map fold ∈ assignedWords ∧
          ∀ next, k <+: next → Scan assignment none (p ++ next) out b (y ++ next) := by
  have hclass : ∀ c ∈ k, isAssignedCharacter c = true := fun c hc => (class_of_assigned hk c hc).2
  have hcases : assignmentShape.Swallows none p (k <+: ·) ∨ Reaches assignment none p (k <+: ·)
      fun b y => wordBoundary b (y ++ k) = true ∧ (y ++ k).map fold ∈ assignedWords :=
    assignmentShape.swallows_or_reaches (class_of_head hk hclass)
      fun b y next lead rest hy hne hstop hnext hlead htext =>
        AssignmentLead.begins hlead hne (getLast?_of_suffix hy hne ▸ hp) hk hnext htext hstop
  rcases hcases with h | ⟨out, b, y, -, hy, hscan⟩
  · exact .inl ⟨h.not_suffix (ne_nil_of_assigned hk) (closing_not_mem hk) hclass, h⟩
  have hword : wordBoundary b (y ++ k) = true ∧ (y ++ k).map fold ∈ assignedWords := by
    refine hy.elim ?_ id
    rintro rfl
    refine ⟨?_, hk⟩
    obtain ⟨q, hq, rfl, -⟩ := (hscan k List.prefix_rfl).exists_behind
    obtain rfl := List.append_cancel_right hq
    exact wordBoundary_keyword hp hk
  refine .inr ⟨?_, out, b, y, hword.1, hword.2, hscan⟩
  rw [(hscan k List.prefix_rfl).apply_eq, apply_eq_self (scan_assignment hword.2), ← List.append_assoc]
  exact List.suffix_append _ k

end NamespaceOwnership.Redaction
