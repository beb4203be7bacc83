import NamespaceOwnership.Proofs.Redaction.Credentials
import NamespaceOwnership.Proofs.Redaction.Keywords

/-!
# When redaction does not show what is assigned

Two texts that differ in what is assigned to a keyword look the same after redaction just if the keyword is still there
when the second rule comes to it, or all of the separator is hidden together with the keyword. A value that an earlier
match hides can end between the keyword and what is assigned to it. Then nothing hides the rest.
-/
namespace NamespaceOwnership.Redaction

open Text

variable {before b : Option Char} {p k s v r lead : List Char} {c : Char}

/-! ## Secrets -/

/-- Letters and digits that do not end in the word "bearer". -/
structure Plain (v : List Char) : Prop where
  ne_nil : v ≠ []
  alphanum : ∀ c ∈ v, c.isAlphanum = true
  not_bearer : ¬"bearer".toList <:+ v.map fold

theorem fold_isAlphanum (h : c.isAlphanum = true) : (fold c).isAlphanum = true := by
  have hrange := toNat_of_isAlphanum h
  have hfold : fold c = c.toLower := by
    unfold fold
    rw [if_neg (by omega), if_neg (by omega), if_neg (by omega)]
  rw [hfold, isAlphanum_toLower, h]

theorem Plain.class (hv : Plain v) : ∀ c ∈ v, isBearerCharacter c = true ∧ isAssignedCharacter c = true :=
  fun c hc => class_of_isAlphanum (fold_isAlphanum (hv.alphanum c hc))

theorem plain_digit (hc : c = '0' ∨ c = '1') : Plain [c] := by
  rcases hc with rfl | rfl <;> exact ⟨by decide, forall_mem_of_all (by decide), by decide⟩

/-- What may follow: nothing, or white space, a comma or a semicolon. -/
theorem head_class (h : isBlank c = true ∨ c = ',' ∨ c = ';') :
    (fold c).isAlpha = false ∧ isBearerCharacter c = false ∧ isAssignedCharacter c = false := by
  rcases h with h | rfl | rfl
  · refine ⟨not_letter_of_isBlank h, ?_, by simp [isAssignedCharacter, h]⟩
    exact Bool.eq_false_iff.mpr fun hclass => by simp [not_blank_of_isBearerCharacter hclass] at h
  · decide
  · decide

/-- The first rule passes over the separator and the secret. -/
theorem scan_bearer_secret (hs : Separator s) (hv : Plain v)
    (hr : ∀ c ∈ r.head?, isBlank c = true ∨ c = ',' ∨ c = ';') (before : Option Char) :
    ∃ b, Scan bearer before (s ++ (v ++ r)) (s ++ v) b r := by
  have hletters : ∀ d ∈ "bearer".toList, d.isAlpha = true := forall_mem_of_all (by decide)
  have hs' : ∀ c ∈ s, fold c ≠ 'b' := by
    intro c hc hb
    have hletter := hs.not_letter c hc
    rw [hb] at hletter
    cases hletter
  obtain ⟨b, hseparator⟩ := scan_bearer hs' before (v ++ r)
  suffices hsecret : ∃ b', Scan bearer b (v ++ r) v b' r from hsecret.imp fun _ h => hseparator.trans h
  refine Scan.of_idle fun b y hy hne => Option.eq_none_iff_forall_ne_some.mpr fun span hsome => ?_
  obtain ⟨_, value, rest, htext, ⟨word, gap, rfl, hword, hgapne, hgap⟩, -⟩ := bearer_eq_some_iff.mp hsome
  have hwhole : y ≠ word := fun h => hv.not_bearer (hword ▸ h ▸ hy.map fold)
  rw [List.append_assoc] at htext
  rcases List.append_eq_append_iff.mp htext with ⟨m, rfl, hm⟩ | ⟨m, rfl, hm⟩
  · -- the word would go on behind the secret
    cases m with
    | nil => exact hwhole (List.append_nil y).symm
    | cons c m =>
      have hletter : (fold c).isAlpha = true := hletters _ (hword ▸ List.mem_map_of_mem (by simp))
      have hhead := (head_class (hr c (by rw [hm]; rfl))).1
      simp [hletter] at hhead
  · -- the secret would have white space in it
    obtain ⟨c, gap, rfl⟩ := List.exists_cons_of_ne_nil hgapne
    cases m with
    | nil => exact hwhole (List.append_nil word)
    | cons d m =>
      obtain ⟨rfl, -⟩ := List.cons.inj hm
      have hblank := hgap c List.mem_cons_self
      have halphanum := hv.alphanum c (hy.mem (by simp))
      simp [not_blank_of_isWord (isWord_of_isAlphanum c halphanum)] at hblank

/-! ## What a hidden keyword takes with it -/

section Swallowed

variable {rule : Rule} {shape : Shape rule} (h : shape.Swallows before p (k <+: ·))
  (hk : ∀ c ∈ k, shape.inClass c = true)
include h hk

/-- A value that goes on up to the end of the secret hides it. -/
theorem Shape.Swallows.same (hs : ∀ c ∈ s, shape.inClass c = true)
    (hr : ∀ c ∈ r.head?, (fold c).isAlpha = false ∧ shape.inClass c = false) :
    ∃ t, ∀ v, (∀ c ∈ v, shape.inClass c = true) → apply rule before (p ++ (k ++ (s ++ (v ++ r)))) = t := by
  obtain ⟨_, lead, _, -, -, -, out, hout⟩ := h
  obtain ⟨t, -, ht⟩ := shape.apply_eq_of_head fun c hc => (hr c hc).1
  refine ⟨out ++ (shape.kept lead ++ mark) ++ t, fun v hv => ?_⟩
  obtain ⟨b, hscan⟩ := hout (k ++ (s ++ (v ++ r))) (List.prefix_append k _)
  have hrest : r.dropWhile shape.inClass = r := by
    cases r with
    | nil => rfl
    | cons c r => simp [(hr c rfl).2]
  rw [hscan.apply_eq, List.dropWhile_append_of_pos hk, List.dropWhile_append_of_pos hs, List.dropWhile_append_of_pos hv,
    hrest, ht]

/-- A value that ends before the secret does not hide it. -/
theorem Shape.Swallows.shows (hs : ∀ c ∈ s, (fold c).isAlpha = false) (hne : s.dropWhile shape.inClass ≠ []) :
    ∃ out lead, (∃ b, shape.Lead b lead) ∧ ∀ c rest, (fold c).isAlpha = false → ∃ rest',
      apply rule before (p ++ (k ++ (s ++ c :: rest))) =
        out ++ (shape.kept lead ++ mark) ++ s.dropWhile shape.inClass ++ c :: rest' := by
  obtain ⟨_, lead, _, -, hlead, -, out, hout⟩ := h
  refine ⟨out, lead, hlead, fun c rest hc => ?_⟩
  obtain ⟨b, hscan⟩ := hout (k ++ (s ++ c :: rest)) (List.prefix_append k _)
  have hleft : s.dropWhile shape.inClass <:+ s := List.dropWhile_suffix _
  obtain ⟨b', hsigns⟩ := shape.scan_signs (fun d hd => hs d (hleft.mem hd)) b (c :: rest)
  refine ⟨apply rule (some c) rest, ?_⟩
  rw [hscan.apply_eq, List.dropWhile_append_of_pos hk, List.dropWhile_append, if_neg (by simpa using hne),
    hsigns.apply_eq, apply_cons_of_none (shape.eq_none hc)]
  simp only [List.append_assoc]

end Swallowed

/-- A separator that belongs to a value as a whole is a sign without white space. -/
theorem Separator.all_iff {inClass : Char → Bool} (hs : Separator s)
    (hblank : ∀ c, inClass c = true → isBlank c = false) :
    (∀ c ∈ s, inClass c = true) ↔ (s = ['='] ∧ inClass '=' = true) ∨ s = [':'] ∧ inClass ':' = true := by
  constructor
  · intro hall
    obtain ⟨gap, sign, gap', rfl, hgap, hsign, hgap'⟩ := hs
    have hnone {g : List Char} (hg : Blank g) (hmem : ∀ c ∈ g, inClass c = true) : g = [] :=
      List.eq_nil_iff_forall_not_mem.mpr fun c hc => by simpa [hg c hc] using hblank c (hmem c hc)
    obtain rfl := hnone hgap fun c hc => hall c (by simp [hc])
    obtain rfl := hnone hgap' fun c hc => hall c (by simp [hc])
    have hin := hall sign (by simp)
    rcases hsign with rfl | rfl
    · exact .inr ⟨rfl, hin⟩
    · exact .inl ⟨rfl, hin⟩
  · rintro (⟨rfl, h⟩ | ⟨rfl, h⟩) <;> simpa using h

theorem Separator.all_bearer (hs : Separator s) : (∀ c ∈ s, isBearerCharacter c = true) ↔ s = ['='] := by
  have hequals : isBearerCharacter '=' = true ∧ isBearerCharacter ':' = false := by decide
  simp [hs.all_iff fun _ => not_blank_of_isBearerCharacter, hequals]

theorem Separator.all_assigned (hs : Separator s) :
    (∀ c ∈ s, isAssignedCharacter c = true) ↔ s = ['='] ∨ s = [':'] := by
  have hsigns : isAssignedCharacter '=' = true ∧ isAssignedCharacter ':' = true := by decide +kernel
  simp [hs.all_iff fun _ => not_blank_of_isAssignedCharacter, hsigns]

/-! ## What is shown -/

/-- A text that begins with one of two digits. -/
def Digit (next : List Char) : Prop := ∃ c rest, next = c :: rest ∧ (c = '0' ∨ c = '1')

theorem Digit.class {inClass : Char → Bool} (h0 : inClass '0' = true) (h1 : inClass '1' = true) :
    ∀ next, Digit next → ∃ c ∈ next.head?, inClass c = true := by
  rintro _ ⟨c, rest, rfl, rfl | rfl⟩
  · exact ⟨_, rfl, h0⟩
  · exact ⟨_, rfl, h1⟩

/-- Behind a text that does not end with a character of a token, the last rule hides nothing that begins with a
digit. -/
theorem accessToken_shows {a x y : List Char} (ha : ∀ c ∈ a.getLast?, isTokenCharacter c = false) :
    apply accessToken none (a ++ '0' :: x) ≠ apply accessToken none (a ++ '1' :: y) := by
  have hends {z lead : List Char} (hlead : AccessLead lead) (hz : ∀ c ∈ z, c ∈ lead ∨ isTokenCharacter c = true)
      (hne : z ≠ []) (hlast : ∀ c ∈ z.getLast?, isTokenCharacter c = false) : False := by
    obtain ⟨init, c, rfl⟩ := (List.eq_nil_or_concat' z).resolve_left hne
    have hc := hlast c (by simp)
    rcases hz c (by simp) with h | h
    · simp [hlead.isTokenCharacter c h] at hc
    · simp [h] at hc
  have hcases : accessTokenShape.Swallows none a Digit ∨ Reaches accessToken none a Digit fun _ _ => False := by
    refine accessTokenShape.swallows_or_reaches (Digit.class (by decide) (by decide))
      fun b y next lead rest hy hne _ _ hlead htext => ?_
    rcases List.append_eq_append_iff.mp htext with ⟨m, rfl, -⟩ | ⟨m, rfl, -⟩
    · exact (hends hlead.2 (fun c hc => .inl (List.mem_append_left m hc)) hne (getLast?_of_suffix hy hne ▸ ha)).elim
    · exact List.prefix_append lead m
  rcases hcases with ⟨front, lead, value, rfl, ⟨b, hlead⟩, hvalue, -⟩ | ⟨out, b, y, -, hy, hscan⟩
  · have hne : lead ++ value ≠ [] := by simp [hlead.2.ne_nil]
    exact (hends hlead.2 (fun c hc => (List.mem_append.mp hc).imp_right (hvalue c)) hne
      (getLast?_of_suffix (List.suffix_append front _) hne ▸ ha)).elim
  · obtain rfl : y = [] := hy.resolve_right id
    have hzero := (hscan _ ⟨'0', x, rfl, .inl rfl⟩).apply_eq
    have hone := (hscan _ ⟨'1', y, rfl, .inr rfl⟩).apply_eq
    rw [List.nil_append, apply_cons_of_none (accessTokenShape.eq_none (by decide))] at hzero hone
    rw [hzero, hone]
    simp

theorem AssignmentLead.mem (h : AssignmentLead b lead) (hc : c ∈ lead) :
    (fold c).isAlpha = true ∨ c = '_' ∨ c = '-' ∨ isBlank c = true ∨ c = ':' ∨ c = '=' := by
  obtain ⟨-, word, separator, rfl, hword, hseparator⟩ := h
  rcases List.mem_append.mp hc with hc | hc
  · rcases mem_of_assigned hword c hc with ⟨hletter, -⟩ | h | h
    · exact .inl hletter
    · exact .inr (.inl h)
    · exact .inr (.inr (.inl h))
  · exact .inr (.inr (.inr (hseparator.mem hc)))

theorem AssignmentLead.not_mem (h : AssignmentLead b lead) (hc : c ∈ ['0', '1', '[', ']']) : c ∉ lead := by
  intro hmem
  have hchars : ∀ c ∈ ['0', '1', '[', ']'],
      ¬((fold c).isAlpha = true ∨ c = '_' ∨ c = '-' ∨ isBlank c = true ∨ c = ':' ∨ c = '=') :=
    forall_mem_of_all (by decide +kernel)
  exact hchars c hc (h.mem hmem)

/-- A stretch without a character lies before or behind it. -/
theorem before_or_behind {a d u l z : List Char} {e : Char} (h : a ++ e :: d = u ++ (l ++ z)) (he : e ∉ l) :
    (∃ z', a = u ++ (l ++ z') ∧ z = z' ++ e :: d) ∨ ∃ u', u = a ++ e :: u' ∧ d = u' ++ (l ++ z) := by
  rcases List.append_eq_append_iff.mp h with ⟨m, rfl, hm⟩ | ⟨m, rfl, hm⟩
  · rcases List.cons_eq_append_iff.mp hm with ⟨rfl, hl⟩ | ⟨m, rfl, hd⟩
    · rcases List.append_eq_cons_iff.mp hl with ⟨rfl, hz⟩ | ⟨l, rfl, -⟩
      · exact .inl ⟨[], by simp, hz⟩
      · simp at he
    · exact .inr ⟨m, rfl, hd⟩
  · rcases List.append_eq_append_iff.mp hm with ⟨m', rfl, hz⟩ | ⟨m', rfl, hz⟩
    · exact .inl ⟨m', rfl, hz⟩
    · rcases List.cons_eq_append_iff.mp hz with ⟨rfl, rfl⟩ | ⟨m', rfl, -⟩
      · exact .inl ⟨[], by simp, rfl⟩
      · simp at he

/-- The last character of a text that is not white space. -/
theorem last_before_blank {u u' g g' : List Char} {d d' : Char} (h : u ++ [d] ++ g = u' ++ [d'] ++ g') (hg : Blank g)
    (hg' : Blank g') (hd : isBlank d = false) (hd' : isBlank d' = false) : d = d' := by
  have hone {u u' m : List Char} {d d' : Char} (h : u' ++ [d'] = u ++ [d] ++ m) (hm : Blank m)
      (hd' : isBlank d' = false) : d = d' := by
    rcases List.eq_nil_or_concat' m with rfl | ⟨init, e, rfl⟩
    · exact (List.append_singleton_inj.mp (by simpa using h)).2.symm
    · have hlast : d' = e := (List.append_inj' (h.trans (List.append_assoc ..).symm) rfl).2 |> List.singleton_inj.mp
      simp [hlast, hm e (by simp)] at hd'
  rcases List.append_eq_append_iff.mp h with ⟨m, hm, rfl⟩ | ⟨m, hm, rfl⟩
  · exact hone hm (fun c hc => hg c (by simp [hc])) hd'
  · exact (hone hm (fun c hc => hg' c (by simp [hc])) hd).symm

/-- No value of the second rule goes on behind the mark: the white space before the mark ends it, and that is the
separator of no lead. -/
theorem not_swallowed {out lead x front lead' value : List Char} (hlead : BearerLead lead)
    (hx : ∀ c ∈ x, (fold c).isAlpha = false) (hlead' : AssignmentLead b lead')
    (hvalue : ∀ c ∈ value, isAssignedCharacter c = true) : out ++ (lead ++ mark) ++ x ≠ front ++ (lead' ++ value) := by
  intro htext
  have hbrackets : '[' ∉ lead' ∧ ']' ∉ lead' := ⟨hlead'.not_mem (by simp), hlead'.not_mem (by simp)⟩
  have hmark : out ++ lead ++ '[' :: (markWord ++ ']' :: x) = front ++ (lead' ++ value) := by
    simpa [mark_eq] using htext
  obtain ⟨c, later, hfirst, hletter⟩ := assignmentShape.first_letter hlead'
  obtain ⟨-, word', separator, rfl, hword', gap', sign, gap'', rfl, hgap', hsign, hgap''⟩ := hlead'
  rcases before_or_behind hmark hbrackets.1 with ⟨value', hbefore, rfl⟩ | ⟨front', -, hbehind⟩
  · -- the lead ends at the mark, so it ends in white space and that is preceded by a sign
    obtain ⟨word, gap, rfl, hword, hgapne, hgap⟩ := hlead
    have hnone : value' = [] := by
      obtain ⟨init, d, rfl⟩ := (List.eq_nil_or_concat' gap).resolve_left hgapne
      by_contra hne
      obtain ⟨init', e, rfl⟩ := (List.eq_nil_or_concat' value').resolve_left hne
      have hends :
          (out ++ (word ++ init)) ++ [d] = (front ++ (word' ++ (gap' ++ sign :: (gap'' ++ init')))) ++ [e] := by
        simpa using hbefore
      obtain rfl : d = e := by simpa using (List.append_inj' hends rfl).2
      simpa [hgap d (by simp)] using not_blank_of_isAssignedCharacter (hvalue d (by simp))
    obtain ⟨init, d, rfl⟩ := (List.eq_nil_or_concat' word).resolve_left (by rintro rfl; simp at hword)
    have hd : (fold d).isAlpha = true := by
      have hletters : ∀ e ∈ "bearer".toList, e.isAlpha = true := forall_mem_of_all (by decide)
      exact hletters _ (hword ▸ List.mem_map_of_mem (by simp))
    have hends : (out ++ init) ++ [d] ++ gap = (front ++ (word' ++ gap')) ++ [sign] ++ gap'' := by
      simpa [hnone] using hbefore
    have hword : isWord d = true := isWord_of_fold (by simp [Char.isAlphanum, hd])
    obtain rfl := last_before_blank hends hgap hgap'' (not_blank_of_isWord hword) (not_blank_of_sign hsign)
    rcases hsign with rfl | rfl <;> revert hd <;> decide
  · rcases before_or_behind hbehind hbrackets.2 with ⟨value', hword, -⟩ | ⟨front'', -, hrest⟩
    · -- the mark has no sign in it
      have hmem : sign ∈ markWord := by simp [hword]
      rcases hsign with rfl | rfl <;> revert hmem <;> decide
    · -- the rest of the separator has no letter in it
      have hmem : c ∈ x := by simp [hrest, hfirst]
      simp [hx c hmem] at hletter

theorem Separator.not_token_at_end {x : List Char} (hs : Separator s) (hx : x <:+ s) (hne : x ≠ [])
    (front : List Char) :
    ∀ c ∈ (front ++ x).getLast?, isTokenCharacter c = false := by
  rw [← getLast?_of_suffix (List.suffix_append front x) hne, getLast?_of_suffix hx hne]
  exact fun c hc => hs.not_token c (List.mem_of_getLast? hc)

/-- Behind a mark and the rest of a separator, the second rule hides nothing that begins with a digit. -/
theorem assignment_shows {lead x : List Char} (out : List Char) (hlead : BearerLead lead) (hx : x <:+ s)
    (hs : Separator s) (hne : x ≠ []) :
    ∃ a, (∀ c ∈ a.getLast?, isTokenCharacter c = false) ∧ ∀ c rest, c = '0' ∨ c = '1' →
      ∃ rest', apply assignment none (out ++ (lead ++ mark) ++ x ++ c :: rest) = a ++ c :: rest' := by
  have hcases : assignmentShape.Swallows none (out ++ (lead ++ mark) ++ x) Digit ∨
      Reaches assignment none (out ++ (lead ++ mark) ++ x) Digit fun _ _ => False := by
    refine assignmentShape.swallows_or_reaches (Digit.class (by decide +kernel) (by decide +kernel)) ?_
    rintro b y _ lead' rest - - - ⟨c, next, rfl, hc⟩ hlead' htext
    exact prefix_of_prefix_append_cons ⟨rest, htext.symm⟩ (hlead'.not_mem (by rcases hc with rfl | rfl <;> simp))
  have hletter : ∀ c ∈ x, (fold c).isAlpha = false := fun c hc => hs.not_letter c (hx.mem hc)
  rcases hcases with ⟨front, lead', value, htext, ⟨b, hlead'⟩, hvalue, -⟩ | ⟨a, b, y, -, hy, hscan⟩
  · exact absurd htext (not_swallowed hlead hletter hlead' hvalue)
  obtain rfl : y = [] := hy.resolve_right id
  refine ⟨a, fun c hc => ?_, fun c rest hc => ⟨apply assignment (some c) rest, ?_⟩⟩
  · obtain ⟨q, hq, -, hout⟩ := (hscan _ ⟨'0', [], rfl, .inl rfl⟩).exists_behind
    obtain rfl := List.append_cancel_right hq
    rcases hout with hout | hout
    · obtain rfl : ']' = c := by simpa [hout] using hc
      decide
    · exact hs.not_token_at_end hx hne _ c (hout ▸ hc)
  · have hnone : assignment b (c :: rest) = none := by
      rcases hc with rfl | rfl <;> exact assignmentShape.eq_none (by decide)
    rw [(hscan _ ⟨c, rest, rfl, hc⟩).apply_eq, List.nil_append, apply_cons_of_none hnone]

/-! ## The main result -/

section Rules

variable (hs : Separator s) (hr : ∀ c ∈ r.head?, isBlank c = true ∨ c = ',' ∨ c = ';')
include hs hr

theorem bearer_kept (hk : k.map fold ∈ assignedWords) {out : List Char}
    (h : ∀ next, k <+: next → Scan bearer none (p ++ next) out b next) :
    ∃ t, t.head? = r.head? ∧ ∀ v, Plain v →
      apply bearer none (p ++ (k ++ (s ++ (v ++ r)))) = out ++ (k ++ (s ++ (v ++ t))) := by
  obtain ⟨t, hhead, ht⟩ := bearerShape.apply_eq_of_head fun c hc => (head_class (hr c hc)).1
  refine ⟨t, hhead, fun v hv => ?_⟩
  obtain ⟨b', hkeyword⟩ := scan_bearer (not_b_of_assigned hk) b (s ++ (v ++ r))
  obtain ⟨b'', hsecret⟩ := scan_bearer_secret hs hv hr b'
  rw [(h _ (List.prefix_append k _)).apply_eq, hkeyword.apply_eq, hsecret.apply_eq, ht]
  simp only [List.append_assoc]

theorem assignment_hides {out y : List Char} (hboundary : wordBoundary b (y ++ k) = true)
    (hword : (y ++ k).map fold ∈ assignedWords)
    (h : ∀ next, k <+: next → Scan assignment none (p ++ next) out b (y ++ next)) :
    ∃ t, ∀ v, Plain v → apply assignment none (p ++ (k ++ (s ++ (v ++ r)))) = t := by
  obtain ⟨t, -, ht⟩ := assignmentShape.apply_eq_of_head fun c hc => (head_class (hr c hc)).1
  refine ⟨out ++ (y ++ k ++ s ++ mark ++ t), fun v hv => ?_⟩
  have hlead : AssignmentLead b (y ++ k ++ s) := by
    refine ⟨?_, y ++ k, s, rfl, hword, hs⟩
    rwa [wordBoundary_append (ne_nil_of_assigned hword)]
  have hmax : Maximal isAssignedCharacter v r :=
    ⟨hv.ne_nil, fun c hc => (hv.class c hc).2, fun c hc => (head_class (hr c hc)).2.2⟩
  have hscan := (assignmentShape.scan hlead hmax).apply_eq
  rw [ht, List.append_assoc, List.append_assoc] at hscan
  rw [(h _ (List.prefix_append k _)).apply_eq, hscan]
  rfl

end Rules

/-- Redaction does not show what is assigned to a keyword just if the keyword is still there when the second rule comes
to it, or the sign of assignment is hidden together with it. -/
theorem redact_same_iff (hp : ∀ c ∈ p.getLast?, isWord c = false) (hk : k.map fold ∈ assignedWords)
    (hs : Separator s) (hr : ∀ c ∈ r.head?, isBlank c = true ∨ c = ',' ∨ c = ';') :
    (∀ v v', Plain v → Plain v' → redact (p ++ k ++ s ++ v ++ r) = redact (p ++ k ++ s ++ v' ++ r)) ↔
      s = ['='] ∨ k <:+ apply bearer none (p ++ k) ∧
        (s = [':'] ∨ k <:+ apply assignment none (apply bearer none (p ++ k))) := by
  simp only [List.append_assoc, redact_eq]
  have hclass := class_of_assigned hk
  rcases bearer_at_keyword hp hk with ⟨hgone, hswallows⟩ | ⟨out, b, hout, hkept, hscan⟩
  · by_cases heq : s = ['=']
    · refine iff_of_true (fun v v' hv hv' => ?_) (.inl heq)
      obtain ⟨t, ht⟩ := hswallows.same (fun c hc => (hclass c hc).1) (hs.all_bearer.mpr heq)
        fun c hc => ⟨(head_class (hr c hc)).1, (head_class (hr c hc)).2.1⟩
      rw [ht v fun c hc => (hv.class c hc).1, ht v' fun c hc => (hv'.class c hc).1]
    · refine iff_of_false (fun hall => ?_) fun h => h.elim heq fun h => hgone h.1
      have hne : s.dropWhile isBearerCharacter ≠ [] := mt List.dropWhile_eq_nil_iff.mp (mt hs.all_bearer.mp heq)
      obtain ⟨out, lead, ⟨_, hlead⟩, hshows⟩ := hswallows.shows (fun c hc => (hclass c hc).1) hs.not_letter hne
      obtain ⟨zeros, hzero⟩ := hshows '0' r (by decide)
      obtain ⟨ones, hone⟩ := hshows '1' r (by decide)
      obtain ⟨a, ha, hassigned⟩ := assignment_shows out hlead (List.dropWhile_suffix _) hs hne
      obtain ⟨zeros', hzero'⟩ := hassigned '0' zeros (.inl rfl)
      obtain ⟨ones', hone'⟩ := hassigned '1' ones (.inr rfl)
      have hsame := hall ['0'] ['1'] (plain_digit (.inl rfl)) (plain_digit (.inr rfl))
      rw [List.singleton_append, hzero, List.singleton_append, hone] at hsame
      exact accessToken_shows ha (hzero' ▸ hone' ▸ hsame)
  have hstays : k <:+ apply bearer none (p ++ k) := hkept ▸ List.suffix_append out k
  obtain ⟨r', hhead, hfirst⟩ := bearer_kept hs hr hk hscan
  have hr' : ∀ c ∈ r'.head?, isBlank c = true ∨ c = ',' ∨ c = ';' := hhead ▸ hr
  rw [hkept]
  rcases assignment_at_keyword hout hk with ⟨hgone, hswallows⟩ | ⟨hstays', out', b', y, hboundary, hword, hscan'⟩
  · by_cases heq : s = ['='] ∨ s = [':']
    · refine iff_of_true (fun v v' hv hv' => ?_) (heq.imp_right fun h => ⟨hkept ▸ hstays, .inl h⟩)
      obtain ⟨t, ht⟩ := hswallows.same (fun c hc => (hclass c hc).2) (hs.all_assigned.mpr heq)
        fun c hc => ⟨(head_class (hr' c hc)).1, (head_class (hr' c hc)).2.2⟩
      rw [hfirst v hv, hfirst v' hv', ht v fun c hc => (hv.class c hc).2, ht v' fun c hc => (hv'.class c hc).2]
    · refine iff_of_false (fun hall => ?_) (by tauto)
      have hne : s.dropWhile isAssignedCharacter ≠ [] := mt List.dropWhile_eq_nil_iff.mp (mt hs.all_assigned.mp heq)
      obtain ⟨out', lead, -, hshows⟩ := hswallows.shows (fun c hc => (hclass c hc).2) hs.not_letter hne
      obtain ⟨zeros, hzero⟩ := hshows '0' r' (by decide)
      obtain ⟨ones, hone⟩ := hshows '1' r' (by decide)
      have hsame := hall ['0'] ['1'] (plain_digit (.inl rfl)) (plain_digit (.inr rfl))
      rw [hfirst _ (plain_digit (.inl rfl)), hfirst _ (plain_digit (.inr rfl)), List.singleton_append, hzero,
        List.singleton_append, hone] at hsame
      exact accessToken_shows (hs.not_token_at_end (List.dropWhile_suffix _) hne _) hsame
  · refine iff_of_true (fun v v' hv hv' => ?_) (.inr ⟨hkept ▸ hstays, .inr hstays'⟩)
    obtain ⟨t, ht⟩ := assignment_hides hs hr' hboundary hword hscan'
    rw [hfirst v hv, hfirst v' hv', ht v hv, ht v' hv']

private theorem forall_mem_option {p : Char → Prop} [DecidablePred p] {o : Option Char}
    (h : o.toList.all (fun c => decide (p c)) = true) : ∀ c ∈ o, p c :=
  fun c hc => forall_mem_of_all h c (Option.mem_toList.mpr hc)

/-- In the usual case the keyword is still there. -/
theorem redact_same_usual : (∀ c ∈ "login failed, ".toList.getLast?, isWord c = false) ∧
    "Password".toList.map fold ∈ assignedWords ∧ Separator ": ".toList ∧
    (∀ c ∈ "; retrying".toList.head?, isBlank c = true ∨ c = ',' ∨ c = ';') ∧
    ∀ v v', Plain v → Plain v' →
      redact ("login failed, ".toList ++ "Password".toList ++ ": ".toList ++ v ++ "; retrying".toList) =
      redact ("login failed, ".toList ++ "Password".toList ++ ": ".toList ++ v' ++ "; retrying".toList) := by
  have hp : ∀ c ∈ "login failed, ".toList.getLast?, isWord c = false := forall_mem_option (by decide +kernel)
  have hk : "Password".toList.map fold ∈ assignedWords := by decide +kernel
  have hs : Separator ": ".toList := ⟨[], ':', [' '], rfl, by decide, .inl rfl, by decide +kernel⟩
  have hr : ∀ c ∈ "; retrying".toList.head?, isBlank c = true ∨ c = ',' ∨ c = ';' :=
    forall_mem_option (by decide +kernel)
  exact ⟨hp, hk, hs, hr, (redact_same_iff hp hk hs hr).mpr (.inr ⟨by decide +kernel, .inr (by decide +kernel)⟩)⟩

/-- Where an earlier match has hidden the keyword and not the colon, what is assigned to it is shown. -/
theorem secret_shown : (∀ c ∈ "bearer ".toList.getLast?, isWord c = false) ∧ "token".toList.map fold ∈ assignedWords ∧
    Separator [':'] ∧ Plain "abc".toList ∧ Plain "xyz".toList ∧
    redact ("bearer ".toList ++ "token".toList ++ [':'] ++ "abc".toList ++ []) = "bearer [REDACTED]:abc".toList ∧
    redact ("bearer ".toList ++ "token".toList ++ [':'] ++ "xyz".toList ++ []) = "bearer [REDACTED]:xyz".toList :=
  ⟨forall_mem_option (by decide +kernel), by decide +kernel, ⟨[], ':', [], rfl, by decide, .inl rfl, by decide⟩,
    ⟨by decide, forall_mem_of_all (by decide), by decide⟩, ⟨by decide, forall_mem_of_all (by decide), by decide⟩,
    by decide +kernel, by decide +kernel⟩

end NamespaceOwnership.Redaction
