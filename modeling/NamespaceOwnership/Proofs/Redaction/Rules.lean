import Mathlib
import NamespaceOwnership.Log.Redaction

/-!
# What the rules of redaction look for

Each rule looks for a lead and for as many characters of a class as follow it. The first two keep the lead and hide the
value behind it, the third hides both. `Shape` says so of a rule: it applies just where there is such a lead with a
value behind it.
-/
namespace NamespaceOwnership.Redaction

open Text

/-! ## Characters -/

private def blankPoints : List Nat :=
  [9, 10, 11, 12, 13, 28, 29, 30, 31, 32, 0x85, 0xA0, 0x1680, 0x2000, 0x2001, 0x2002, 0x2003, 0x2004, 0x2005, 0x2006,
   0x2007, 0x2008, 0x2009, 0x200A, 0x2028, 0x2029, 0x202F, 0x205F, 0x3000]

/-- Only the characters of a list need to be checked. -/
theorem forall_mem_of_all {p : Char → Prop} [DecidablePred p] {l : List Char}
    (h : l.all (fun c => decide (p c)) = true) : ∀ c ∈ l, p c :=
  fun c hc => of_decide_eq_true (List.all_eq_true.mp h c hc)

theorem isWord_of_isBlank {c : Char} (h : isBlank c = true) : isWord c = false := by
  have hpoints : ∀ n ∈ blankPoints, isWord (Char.ofNat n) = false := by decide +kernel
  have hmem : c.toNat ∈ blankPoints := by
    simp only [isBlank, blankRanges, Ranges.contains, List.any_cons, List.any_nil, Bool.or_false, Bool.or_eq_true,
      Bool.and_eq_true, decide_eq_true_eq] at h
    simp only [blankPoints, List.mem_cons, List.not_mem_nil, or_false]
    omega
  simpa using hpoints c.toNat hmem

theorem not_blank_of_isWord {c : Char} (h : isWord c = true) : isBlank c = false := by
  cases hblank : isBlank c with
  | false => rfl
  | true => simp [isWord_of_isBlank hblank] at h

theorem isAlphanum_toLower (c : Char) : c.toLower.isAlphanum = c.isAlphanum := by
  by_cases hupper : c.isUpper = true
  · simp [Char.isAlphanum, Char.isAlpha, hupper]
  · rw [Char.toLower_eq_of_not_isUpper hupper]

/-- A character that folds to a letter or digit belongs to words. -/
theorem isWord_of_fold {c : Char} (h : (fold c).isAlphanum = true) : isWord c = true := by
  have hspecial : ∀ n ∈ [0x17F, 0x212A, 0x130, 0x131], isWord (Char.ofNat n) = true := by decide +kernel
  have hlisted (n : Nat) (hn : n ∈ [0x17F, 0x212A, 0x130, 0x131]) (hc : c.toNat = n) : isWord c = true := by
    simpa [← hc] using hspecial n hn
  unfold fold at h
  split at h
  · exact hlisted 0x17F (by simp) ‹_›
  split at h
  · exact hlisted 0x212A (by simp) ‹_›
  split at h
  · rename_i hc
    rcases hc with hc | hc
    · exact hlisted 0x130 (by simp) hc
    · exact hlisted 0x131 (by simp) hc
  · exact isWord_of_isAlphanum c (isAlphanum_toLower c ▸ h)

/-- Only letters are changed. -/
theorem eq_of_fold {c d : Char} (h : fold c = d) (hd : d.isAlpha = false) : c = d := by
  subst h
  unfold fold at hd ⊢
  split at hd
  · simp at hd
  split at hd
  · simp at hd
  split at hd
  · simp at hd
  · rename_i hlong hkelvin hdotted
    rw [if_neg hlong, if_neg hkelvin, if_neg hdotted]
    rw [Char.isAlpha_toLower_eq_isAlpha] at hd
    have hupper : ¬c.isUpper = true := fun hupper => by simp [Char.isAlpha, hupper] at hd
    exact (Char.toLower_eq_of_not_isUpper hupper).symm

theorem not_blank_of_isBearerCharacter {c : Char} (h : isBearerCharacter c = true) : isBlank c = false := by
  rcases Bool.or_eq_true_iff.mp h with hletter | hsign
  · exact not_blank_of_isWord (isWord_of_fold hletter)
  · have hsigns : ∀ d ∈ "._~+/=-".toList, isBlank d = false := forall_mem_of_all (by decide +kernel)
    exact hsigns c (List.contains_iff_mem.mp hsign)

theorem not_blank_of_isAssignedCharacter {c : Char} (h : isAssignedCharacter c = true) : isBlank c = false := by
  simp only [isAssignedCharacter, Bool.not_eq_true', Bool.or_eq_false_iff] at h
  exact h.1.1

/-! ## Values -/

/-- As many characters of a class as there are. -/
structure Maximal (inClass : Char → Bool) (value rest : List Char) : Prop where
  ne_nil : value ≠ []
  inside : ∀ c ∈ value, inClass c = true
  outside : ∀ c ∈ rest.head?, inClass c = false

namespace Maximal

variable {inClass : Char → Bool} {value rest : List Char}

theorem takeWhile_eq (h : Maximal inClass value rest) : (value ++ rest).takeWhile inClass = value := by
  rw [List.takeWhile_append_of_pos h.inside]
  cases rest with
  | nil => simp
  | cons c rest => simp [h.outside c rfl]

theorem of_takeWhile {text : List Char} (h : 0 < (text.takeWhile inClass).length) :
    Maximal inClass (text.takeWhile inClass) (text.dropWhile inClass) where
  ne_nil := List.ne_nil_of_length_pos h
  inside _ hc := List.all_eq_true.mp List.all_takeWhile _ hc
  outside c hc := by
    have hhead := List.head?_dropWhile_not inClass text
    rw [Option.mem_def.mp hc] at hhead
    simpa using hhead

theorem of_head {text : List Char} {c : Char} (hhead : c ∈ text.head?) (hc : inClass c = true) :
    Maximal inClass (text.takeWhile inClass) (text.dropWhile inClass) := by
  obtain ⟨later, rfl⟩ := List.head?_eq_some_iff.mp hhead
  refine of_takeWhile ?_
  rw [List.takeWhile_cons_of_pos hc]
  exact Nat.succ_pos _

theorem first (h : Maximal inClass value rest) : ∃ c later, value = c :: later ∧ inClass c = true := by
  obtain ⟨c, later, rfl⟩ := List.exists_cons_of_ne_nil h.ne_nil
  exact ⟨c, later, rfl, h.inside c List.mem_cons_self⟩

end Maximal

theorem afterWord?_eq_some_iff {word text rest : List Char} :
    afterWord? word text = some rest ↔ ∃ w, text = w ++ rest ∧ w.map fold = word := by
  unfold afterWord?
  constructor
  · intro h
    obtain ⟨hword, hrest⟩ := Option.ite_none_right_eq_some.mp h
    cases hrest
    exact ⟨text.take word.length, (List.take_append_drop _ _).symm, hword⟩
  · rintro ⟨w, rfl, rfl⟩
    simp

/-- What is hidden behind a lead. -/
theorem hide?_eq_some_iff {inClass : Char → Bool} {lead tail : List Char} {s : Span} :
    hide? (lead ++ tail) tail inClass = some s ↔ ∃ value rest, tail = value ++ rest ∧ Maximal inClass value rest ∧
      s.kept = lead.length ∧ s.hidden = value.length := by
  unfold hide?
  constructor
  · intro h
    split at h
    · rename_i hpos
      cases h
      exact ⟨_, _, List.takeWhile_append_dropWhile.symm, .of_takeWhile hpos, by simp, rfl⟩
    · cases h
  · rintro ⟨value, rest, rfl, hmax, hkept, hhidden⟩
    rw [dif_pos (by rw [hmax.takeWhile_eq]; exact List.length_pos_of_ne_nil hmax.ne_nil)]
    obtain ⟨kept, hidden, hpos⟩ := s
    obtain rfl : kept = lead.length := hkept
    obtain rfl : hidden = value.length := hhidden
    simp [hmax.takeWhile_eq]

theorem trimLeft_gap {gap tail : List Char} (hgap : Blank gap) (htail : ∀ c ∈ tail.head?, isBlank c = false) :
    trimLeft (gap ++ tail) = tail := by
  rw [trimLeft_append hgap]
  cases tail with
  | nil => rfl
  | cons c tail => exact trimLeft_of_not_blank _ (htail c rfl)

theorem exists_gap (text : List Char) : ∃ gap, Blank gap ∧ text = gap ++ trimLeft text :=
  ⟨text.takeWhile isBlank, fun _ hc => List.all_eq_true.mp List.all_takeWhile _ hc,
    List.takeWhile_append_dropWhile.symm⟩

/-! ## Leads -/

/-- A rule that looks for a lead with a value behind it. -/
structure Shape (rule : Rule) where
  Lead : Option Char → List Char → Prop
  kept : List Char → List Char
  inClass : Char → Bool
  kept_begins (lead : List Char) : kept lead <+: lead
  first_letter : ∀ {before lead}, Lead before lead → ∃ c later, lead = c :: later ∧ (fold c).isAlpha = true
  eq_some_iff : ∀ {before text s}, rule before text = some s ↔ ∃ lead value rest, text = lead ++ (value ++ rest) ∧
    Lead before lead ∧ Maximal inClass value rest ∧ s.kept = (kept lead).length ∧
      s.kept + s.hidden = (lead ++ value).length

/-- The word "bearer" and white space. -/
def BearerLead (lead : List Char) : Prop :=
  ∃ word gap, lead = word ++ gap ∧ word.map fold = "bearer".toList ∧ gap ≠ [] ∧ Blank gap

theorem isWord_of_bearer {word : List Char} (h : word.map fold = "bearer".toList) : ∀ c ∈ word, isWord c = true := by
  have hletters : ∀ d ∈ "bearer".toList, d.isAlphanum = true := forall_mem_of_all (by decide)
  exact fun c hc => isWord_of_fold (hletters _ (h ▸ List.mem_map_of_mem hc))

theorem BearerLead.mem {lead : List Char} {c : Char} (h : BearerLead lead) (hc : c ∈ lead) :
    isWord c = true ∨ isBlank c = true := by
  obtain ⟨word, gap, rfl, hword, -, hgap⟩ := h
  exact (List.mem_append.mp hc).imp (isWord_of_bearer hword c) (hgap c)

/-- Once there is white space in a lead, there is nothing else. -/
theorem BearerLead.pairwise {lead : List Char} (h : BearerLead lead) :
    lead.Pairwise fun c d => isBlank c = true → isBlank d = true := by
  obtain ⟨word, gap, rfl, hword, -, hgap⟩ := h
  have hplain : ∀ c ∈ word, isBlank c = false := fun c hc => not_blank_of_isWord (isWord_of_bearer hword c hc)
  refine List.pairwise_append.mpr ⟨?_, ?_, ?_⟩
  · exact List.pairwise_of_forall_mem_list fun c hc _ _ hblank => by simp [hplain c hc] at hblank
  · exact List.pairwise_of_forall_mem_list fun _ _ d hd _ => hgap d hd
  · exact fun c hc _ _ hblank => by simp [hplain c hc] at hblank

theorem guard_eq_some_iff {p : Prop} [Decidable p] {u : Unit} : (guard p : Option Unit) = some u ↔ p := by
  by_cases hp : p
  · simp [guard, hp]
  · rw [guard, if_neg hp]
    exact iff_of_false nofun hp

theorem bearer_eq_some_iff {before : Option Char} {text : List Char} {s : Span} :
    bearer before text = some s ↔ ∃ lead value rest, text = lead ++ (value ++ rest) ∧ BearerLead lead ∧
      Maximal isBearerCharacter value rest ∧ s.kept = lead.length ∧ s.hidden = value.length := by
  simp only [bearer, Option.bind_eq_bind, Option.bind_eq_some_iff, guard_eq_some_iff, afterWord?_eq_some_iff,
    exists_const]
  constructor
  · rintro ⟨tail, ⟨word, rfl, hword⟩, hblank, hhide⟩
    obtain ⟨gap, hgap, htail⟩ := exists_gap tail
    generalize trimLeft tail = behind at htail hhide
    subst htail
    rw [← List.append_assoc] at hhide
    obtain ⟨value, rest, rfl, hmax, hspan⟩ := hide?_eq_some_iff.mp hhide
    refine ⟨word ++ gap, value, rest, (List.append_assoc ..).symm, ⟨word, gap, rfl, hword, ?_, hgap⟩, hmax, hspan⟩
    rintro rfl
    obtain ⟨c, later, rfl, hc⟩ := hmax.first
    simp [not_blank_of_isBearerCharacter hc] at hblank
  · rintro ⟨_, value, rest, rfl, ⟨word, gap, rfl, hword, hne, hgap⟩, hmax, hspan⟩
    obtain ⟨c, later, rfl, hc⟩ := hmax.first
    obtain ⟨d, gap, rfl⟩ := List.exists_cons_of_ne_nil hne
    refine ⟨_, ⟨word, List.append_assoc .., hword⟩, ?_, ?_⟩
    · simp [hgap d List.mem_cons_self]
    · have hbehind : ∀ e ∈ ((c :: later) ++ rest).head?, isBlank e = false := by
        rintro _ ⟨⟩
        exact not_blank_of_isBearerCharacter hc
      rw [trimLeft_gap hgap hbehind]
      exact hide?_eq_some_iff.mpr ⟨_, _, rfl, hmax, hspan⟩

def bearerShape : Shape bearer where
  Lead _ := BearerLead
  kept := id
  inClass := isBearerCharacter
  kept_begins _ := List.prefix_rfl
  first_letter := by
    rintro _ _ ⟨word, gap, rfl, hword, -⟩
    obtain ⟨c, word, rfl⟩ := List.exists_cons_of_ne_nil (show word ≠ [] by rintro rfl; simp at hword)
    obtain ⟨hc, -⟩ : fold c = 'b' ∧ _ := by simpa using hword
    exact ⟨c, word ++ gap, rfl, by rw [hc]; decide⟩
  eq_some_iff := by
    simp only [bearer_eq_some_iff, List.length_append, id]
    grind

/-- White space, a colon or an equals sign, and white space. -/
def Separator (text : List Char) : Prop :=
  ∃ gap sign gap', text = gap ++ sign :: gap' ∧ Blank gap ∧ (sign = ':' ∨ sign = '=') ∧ Blank gap'

/-- One of the words to which something is assigned, and a separator. -/
def AssignmentLead (before : Option Char) (lead : List Char) : Prop :=
  wordBoundary before lead = true ∧
    ∃ word separator, lead = word ++ separator ∧ word.map fold ∈ assignedWords ∧ Separator separator

theorem assignedWords_prefix_free : ∀ v ∈ assignedWords, ∀ w ∈ assignedWords, v <+: w → v = w := by decide

/-- At most one of the words stands at the beginning of a text. -/
theorem assigned_unique {w w' tail tail' : List Char} (hw : w.map fold ∈ assignedWords)
    (hw' : w'.map fold ∈ assignedWords) (h : w ++ tail = w' ++ tail') : w = w' ∧ tail = tail' := by
  have hlength : w.length = w'.length := by
    rcases List.prefix_or_prefix_of_prefix (List.prefix_append w tail) (h ▸ List.prefix_append w' tail') with hp | hp
    · simpa using congrArg List.length (assignedWords_prefix_free _ hw _ hw' (hp.map fold))
    · simpa using (congrArg List.length (assignedWords_prefix_free _ hw' _ hw (hp.map fold))).symm
  exact List.append_inj h hlength

private theorem findSome?_of_unique {α β : Type} {f : α → Option β} {l : List α} {a : α} {b : β} (ha : a ∈ l)
    (hb : f a = some b) (hunique : ∀ a' ∈ l, ∀ b', f a' = some b' → b' = b) : l.findSome? f = some b := by
  cases h : l.findSome? f with
  | none => simp [List.findSome?_eq_none_iff.mp h a ha] at hb
  | some b' =>
    obtain ⟨a', ha', hb'⟩ := List.exists_of_findSome?_eq_some h
    rw [hunique a' ha' b' hb']

/-- Looks for the word that is assigned to at the beginning of a text. -/
private theorem findSome?_eq_some_iff {text tail : List Char} :
    (assignedWords.findSome? fun word => (afterWord? word text).bind fun rest =>
      (guard ((!rest.head?.any isWord) = true) : Option Unit).bind fun _ => pure rest) = some tail ↔
      ∃ w, text = w ++ tail ∧ w.map fold ∈ assignedWords ∧ tail.head?.any isWord = false := by
  have hfound (word tail : List Char) : ((afterWord? word text).bind fun rest =>
      (guard ((!rest.head?.any isWord) = true) : Option Unit).bind fun _ => pure rest) = some tail ↔
      (∃ w, text = w ++ tail ∧ w.map fold = word) ∧ tail.head?.any isWord = false := by
    simp [Option.bind_eq_some_iff, afterWord?_eq_some_iff]
  constructor
  · intro h
    obtain ⟨word, hmem, hword⟩ := List.exists_of_findSome?_eq_some h
    obtain ⟨⟨w, htext, rfl⟩, hend⟩ := (hfound word tail).mp hword
    exact ⟨w, htext, hmem, hend⟩
  · rintro ⟨w, htext, hmem, hend⟩
    refine findSome?_of_unique hmem ((hfound _ _).mpr ⟨⟨w, htext, rfl⟩, hend⟩) fun word hmem' tail' hword => ?_
    obtain ⟨⟨w', htext', rfl⟩, -⟩ := (hfound word tail').mp hword
    exact (assigned_unique hmem' hmem (htext'.symm.trans htext)).2

theorem wordBoundary_append {before : Option Char} {lead : List Char} (hne : lead ≠ []) (tail : List Char) :
    wordBoundary before (lead ++ tail) = wordBoundary before lead := by
  obtain ⟨c, lead, rfl⟩ := List.exists_cons_of_ne_nil hne
  rfl

theorem not_blank_of_sign {sign : Char} (h : sign = ':' ∨ sign = '=') : isBlank sign = false := by
  rcases h with rfl | rfl <;> decide +kernel

theorem assignment_eq_some_iff {before : Option Char} {text : List Char} {s : Span} :
    assignment before text = some s ↔ ∃ lead value rest, text = lead ++ (value ++ rest) ∧
      AssignmentLead before lead ∧ Maximal isAssignedCharacter value rest ∧ s.kept = lead.length ∧
        s.hidden = value.length := by
  simp only [assignment, Option.bind_eq_bind, Option.bind_eq_some_iff, guard_eq_some_iff, exists_const,
    findSome?_eq_some_iff]
  constructor
  · rintro ⟨hboundary, behind, ⟨word, rfl, hword, hend⟩, hmatch⟩
    obtain ⟨gap, hgap, hbehind⟩ := exists_gap behind
    generalize trimLeft behind = assigned at hbehind hmatch
    subst hbehind
    cases assigned with
    | nil => cases hmatch
    | cons sign tail =>
      obtain ⟨_, hsign, hhide⟩ := Option.bind_eq_some_iff.mp hmatch
      obtain ⟨gap', hgap', htail⟩ := exists_gap tail
      generalize trimLeft tail = hidden at htail hhide
      subst htail
      have htext : word ++ (gap ++ sign :: (gap' ++ hidden)) = word ++ (gap ++ sign :: gap') ++ hidden := by simp
      rw [htext] at hhide hboundary ⊢
      obtain ⟨value, rest, rfl, hmax, hspan⟩ := hide?_eq_some_iff.mp hhide
      rw [wordBoundary_append (by simp)] at hboundary
      have hsign : sign = ':' ∨ sign = '=' := by simpa [guard_eq_some_iff] using hsign
      exact ⟨_, value, rest, rfl, ⟨hboundary, word, _, rfl, hword, gap, sign, gap', rfl, hgap, hsign, hgap'⟩, hmax,
        hspan⟩
  · rintro ⟨_, value, rest, rfl, ⟨hboundary, word, _, rfl, hword, gap, sign, gap', rfl, hgap, hsign, hgap'⟩, hmax,
      hspan⟩
    have hbehind : ∀ c ∈ (sign :: (gap' ++ (value ++ rest))).head?, isBlank c = false := by
      rintro _ ⟨⟩
      exact not_blank_of_sign hsign
    have hvalue : ∀ c ∈ (value ++ rest).head?, isBlank c = false := by
      obtain ⟨c, later, rfl, hc⟩ := hmax.first
      rintro _ ⟨⟩
      exact not_blank_of_isAssignedCharacter hc
    have hend : (gap ++ sign :: (gap' ++ (value ++ rest))).head?.any isWord = false := by
      cases gap with
      | nil => rcases hsign with rfl | rfl <;> rfl
      | cons c gap => exact isWord_of_isBlank (hgap c List.mem_cons_self)
    refine ⟨by rwa [wordBoundary_append (by simp)], gap ++ sign :: (gap' ++ (value ++ rest)),
      ⟨word, by simp, hword, hend⟩, ?_⟩
    rw [trimLeft_gap hgap hbehind]
    refine Option.bind_eq_some_iff.mpr ⟨(), guard_eq_some_iff.mpr (by simpa using hsign), ?_⟩
    rw [trimLeft_gap hgap' hvalue]
    exact hide?_eq_some_iff.mpr ⟨value, rest, rfl, hmax, hspan⟩

theorem letter_of_assigned {w : List Char} (h : w.map fold ∈ assignedWords) :
    ∃ c later, w = c :: later ∧ (fold c).isAlpha = true := by
  have hwords : ∀ v ∈ assignedWords, v.head?.any Char.isAlpha = true := by decide
  obtain ⟨d, hd, hletter⟩ := (Option.any_eq_true _ _).mp (hwords _ h)
  cases w with
  | nil => cases hd
  | cons c w =>
    obtain rfl : fold c = d := by simpa using hd
    exact ⟨c, w, rfl, hletter⟩

def assignmentShape : Shape assignment where
  Lead := AssignmentLead
  kept := id
  inClass := isAssignedCharacter
  kept_begins _ := List.prefix_rfl
  first_letter := by
    rintro _ _ ⟨-, word, separator, rfl, hword, -⟩
    obtain ⟨c, word, rfl, hletter⟩ := letter_of_assigned hword
    exact ⟨c, word ++ separator, rfl, hletter⟩
  eq_some_iff := by
    simp only [assignment_eq_some_iff, List.length_append, id]
    grind

/-- The text "dt0", a small letter, two digits and a point. -/
def AccessLead (lead : List Char) : Prop :=
  ∃ kind tens ones, lead = ['d', 't', '0', kind, tens, ones, '.'] ∧ kind.isLower = true ∧ tens.isDigit = true ∧
    ones.isDigit = true

theorem isTokenCharacter_of_isAlphanum {c : Char} (h : c.isAlphanum = true) : isTokenCharacter c = true := by
  simp [isTokenCharacter, h]

theorem AccessLead.ne_nil {lead : List Char} (h : AccessLead lead) : lead ≠ [] := by
  obtain ⟨kind, tens, ones, rfl, -⟩ := h
  simp

theorem AccessLead.isTokenCharacter {lead : List Char} (h : AccessLead lead) :
    ∀ c ∈ lead, isTokenCharacter c = true := by
  obtain ⟨kind, tens, ones, rfl, hkind, htens, hones⟩ := h
  have hletter : kind.isAlphanum = true := by simp [Char.isAlphanum, Char.isAlpha, hkind]
  have hdigits : ∀ c : Char, c.isDigit = true → c.isAlphanum = true := by simp +contextual [Char.isAlphanum]
  intro c hc
  simp only [List.mem_cons, List.not_mem_nil, or_false] at hc
  rcases hc with rfl | rfl | rfl | rfl | rfl | rfl | rfl
  · decide
  · decide
  · decide
  · exact isTokenCharacter_of_isAlphanum hletter
  · exact isTokenCharacter_of_isAlphanum (hdigits _ htens)
  · exact isTokenCharacter_of_isAlphanum (hdigits _ hones)
  · decide

theorem accessToken_eq_some_iff {before : Option Char} {text : List Char} {s : Span} :
    accessToken before text = some s ↔ ∃ lead value rest, text = lead ++ (value ++ rest) ∧
      (wordBoundary before lead = true ∧ AccessLead lead) ∧ Maximal isTokenCharacter value rest ∧
        s.kept = 0 ∧ s.kept + s.hidden = (lead ++ value).length := by
  simp only [accessToken, Option.bind_eq_bind, Option.bind_eq_some_iff, guard_eq_some_iff, exists_const]
  constructor
  · rintro ⟨hboundary, h⟩
    split at h
    · rename_i kind tens ones tail
      simp only [Option.bind_eq_some_iff, guard_eq_some_iff, exists_const, Bool.and_eq_true] at h
      obtain ⟨⟨⟨hkind, htens⟩, hones⟩, hhead, hspan⟩ := h
      cases hspan
      have hpos : 0 < (tail.takeWhile isTokenCharacter).length := by
        cases tail with
        | nil => cases hhead
        | cons c tail => simp [List.takeWhile_cons_of_pos (show isTokenCharacter c = true from hhead)]
      refine ⟨['d', 't', '0', kind, tens, ones, '.'], _, _, ?_, ⟨hboundary, kind, tens, ones, rfl, hkind, htens, hones⟩,
        .of_takeWhile hpos, rfl, ?_⟩
      · simp [List.takeWhile_append_dropWhile]
      · simp only [List.length_append, List.length_cons, List.length_nil, Nat.zero_add]
    · cases h
  · rintro ⟨_, value, rest, rfl, ⟨hboundary, kind, tens, ones, rfl, hkind, htens, hones⟩, hmax, hkept, hend⟩
    obtain ⟨c, later, hvalue, hc⟩ := hmax.first
    have hhead : (value ++ rest).head?.any isTokenCharacter = true := by simp [hvalue, hc]
    refine ⟨hboundary, Option.bind_eq_some_iff.mpr ⟨(), guard_eq_some_iff.mpr (by simp [hkind, htens, hones]), ?_⟩⟩
    refine Option.bind_eq_some_iff.mpr ⟨(), guard_eq_some_iff.mpr hhead, ?_⟩
    obtain ⟨kept, hidden, hpos⟩ := s
    obtain rfl : kept = 0 := hkept
    obtain rfl : hidden = _ := (Nat.zero_add _).symm.trans hend
    simp only [List.append_eq, List.nil_append, hmax.takeWhile_eq, List.length_append, List.length_cons,
      List.length_nil, Option.pure_def]

def accessTokenShape : Shape accessToken where
  Lead before lead := wordBoundary before lead = true ∧ AccessLead lead
  kept _ := []
  inClass := isTokenCharacter
  kept_begins lead := List.nil_prefix
  first_letter := by
    rintro _ _ ⟨-, kind, tens, ones, rfl, -⟩
    exact ⟨'d', _, rfl, by decide⟩
  eq_some_iff := accessToken_eq_some_iff

end NamespaceOwnership.Redaction
