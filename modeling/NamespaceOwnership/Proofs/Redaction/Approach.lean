import NamespaceOwnership.Proofs.Redaction.Scanning

/-!
# How a rule comes to the end of a text that goes on

A rule goes through a text `p` in the same way whatever follows, as long as no lead that begins in `p` reaches beyond
it. Then there are two possibilities. Either a value begins in `p` that is still going on where `p` ends, and it takes
with it the characters of its class that follow (`Swallows`), or the rule gets to where `p` ends (`Reaches`). Where
leads can reach beyond `p`, it gets at least to the place where the first of them could begin.
-/
namespace NamespaceOwnership.Redaction

variable {rule : Rule} {before b : Option Char} {p p' u out : List Char} {Next : List Char → Prop}
  {Stop : Option Char → List Char → Prop}

/-- A value that begins in `p` takes with it what follows: a lead stands in `p`, and the rest of `p` is of its class. -/
def Shape.Swallows (shape : Shape rule) (before : Option Char) (p : List Char) (Next : List Char → Prop) : Prop :=
  ∃ front lead value, p = front ++ (lead ++ value) ∧ (∃ b, shape.Lead b lead) ∧
    (∀ c ∈ value, shape.inClass c = true) ∧ ∃ out, ∀ next, Next next → ∃ b,
      Scan rule before (p ++ next) (out ++ (shape.kept lead ++ mark)) b (next.dropWhile shape.inClass)

/-- The rule gets to where `p` ends, or to an earlier place at which it is to stop. -/
def Reaches (rule : Rule) (before : Option Char) (p : List Char) (Next : List Char → Prop)
    (Stop : Option Char → List Char → Prop) : Prop :=
  ∃ out b y, y <:+ p ∧ (y = [] ∨ Stop b y) ∧ ∀ next, Next next → Scan rule before (p ++ next) out b (y ++ next)

theorem Shape.Swallows.after {shape : Shape rule} (h : shape.Swallows b p' Next)
    (hscan : ∀ next, Next next → Scan rule before (u ++ p' ++ next) out b (p' ++ next)) :
    shape.Swallows before (u ++ p') Next := by
  obtain ⟨front, lead, value, rfl, hlead, hvalue, out', hout⟩ := h
  refine ⟨u ++ front, lead, value, (List.append_assoc ..).symm, hlead, hvalue, out ++ out', fun next hnext => ?_⟩
  obtain ⟨b', hlater⟩ := hout next hnext
  exact ⟨b', List.append_assoc out .. ▸ (hscan next hnext).trans hlater⟩

theorem Reaches.after (h : Reaches rule b p' Next Stop)
    (hscan : ∀ next, Next next → Scan rule before (u ++ p' ++ next) out b (p' ++ next)) :
    Reaches rule before (u ++ p') Next Stop := by
  obtain ⟨out', b', y, hy, hstop, hout⟩ := h
  exact ⟨out ++ out', b', y, hy.trans (List.suffix_append u p'), hstop,
    fun next hnext => (hscan next hnext).trans (hout next hnext)⟩

theorem Shape.swallows_of_lead (shape : Shape rule) {lead value : List Char} (hlead : shape.Lead before lead)
    (hvalue : ∀ c ∈ value, shape.inClass c = true)
    (hnext : ∀ next, Next next → ∃ c ∈ next.head?, shape.inClass c = true) :
    shape.Swallows before (lead ++ value) Next := by
  refine ⟨[], lead, value, rfl, ⟨before, hlead⟩, hvalue, [], fun next h =>
    ⟨(lead ++ (value ++ next.takeWhile shape.inClass)).getLast?, ?_⟩⟩
  have hmax : Maximal shape.inClass (value ++ next.takeWhile shape.inClass) (next.dropWhile shape.inClass) := by
    obtain ⟨c, hc, hclass⟩ := hnext next h
    obtain ⟨hne, hinside, houtside⟩ := Maximal.of_head hc hclass
    exact ⟨by simp [hne], List.forall_mem_append.mpr ⟨hvalue, hinside⟩, houtside⟩
  have hscan := shape.scan hlead hmax
  rw [List.append_assoc value, List.takeWhile_append_dropWhile, ← List.append_assoc lead value] at hscan
  exact hscan

private theorem exists_maximal {inClass : Char → Bool} {tail : List Char} (hhead : ∀ c ∈ tail.head?, inClass c = true)
    (hall : ¬∀ c ∈ tail, inClass c = true) :
    ∃ value rest, tail = value ++ rest ∧ ∀ next, Maximal inClass value (rest ++ next) := by
  obtain ⟨c, later, rfl⟩ : ∃ c later, tail = c :: later := List.exists_cons_of_ne_nil (by rintro rfl; simp at hall)
  obtain ⟨d, rest, hrest⟩ := List.exists_cons_of_ne_nil (mt List.dropWhile_eq_nil_iff.mp hall)
  have hc : c ∈ (c :: later).head? := rfl
  obtain ⟨hne, hinside, houtside⟩ := Maximal.of_head hc (hhead c hc)
  refine ⟨_, _, List.takeWhile_append_dropWhile.symm, fun next => ⟨hne, hinside, ?_⟩⟩
  rw [hrest] at houtside ⊢
  exact houtside

/-- Whatever follows `p`, its beginning is hidden, or the rule gets to where `p` ends. -/
theorem Shape.swallows_or_reaches (shape : Shape rule)
    (hnext : ∀ next, Next next → ∃ c ∈ next.head?, shape.inClass c = true)
    (hwithin : ∀ b y next lead rest, y <:+ p → y ≠ [] → ¬Stop b y → Next next → shape.Lead b lead →
      y ++ next = lead ++ rest → lead <+: y) :
    shape.Swallows before p Next ∨ Reaches rule before p Next Stop := by
  induction hlength : p.length using Nat.strong_induction_on generalizing p before with
  | _ n ih =>
  subst hlength
  -- what holds behind a beginning of the text holds of the whole
  have hbehind (u p' out : List Char) (b : Option Char) (hp : p = u ++ p') (hu : u ≠ [])
      (hscan : ∀ next, Next next → Scan rule before (u ++ p' ++ next) out b (p' ++ next)) :
      shape.Swallows before p Next ∨ Reaches rule before p Next Stop := by
    subst hp
    have hshorter : p'.length < (u ++ p').length := by
      have hpos := List.length_pos_of_ne_nil hu
      rw [List.length_append]
      omega
    exact (ih _ hshorter (fun b y next lead rest hy => hwithin b y next lead rest (hy.trans (List.suffix_append u p')))
      rfl).imp (fun h => h.after hscan) fun h => h.after hscan
  by_cases hstop : p = [] ∨ Stop before p
  · exact .inr ⟨[], before, p, List.suffix_rfl, hstop, fun next _ => .here _ _⟩
  obtain ⟨hne, hstop⟩ := not_or.mp hstop
  by_cases hlead : ∃ lead tail, p = lead ++ tail ∧ shape.Lead before lead ∧ ∀ c ∈ tail.head?, shape.inClass c = true
  · obtain ⟨lead, tail, rfl, hlead, htail⟩ := hlead
    by_cases hall : ∀ c ∈ tail, shape.inClass c = true
    · exact .inl (shape.swallows_of_lead hlead hall hnext)
    · -- the value ends before the text does
      obtain ⟨value, rest, rfl, hmax⟩ := exists_maximal htail hall
      refine hbehind (lead ++ value) rest (shape.kept lead ++ mark) (lead ++ value).getLast?
        (List.append_assoc ..).symm ?_ fun next _ => ?_
      · simp [(hmax []).ne_nil]
      · simpa only [List.append_assoc] using shape.scan hlead (hmax next)
  · -- no lead, so the rule passes over the first character
    obtain ⟨c, p', rfl⟩ := List.exists_cons_of_ne_nil hne
    refine hbehind [c] p' [c] (some c) rfl (List.cons_ne_nil c []) fun next h => .pass ?_ (.here _ _)
    change rule before (c :: p' ++ next) = none
    refine Option.eq_none_iff_forall_ne_some.mpr fun s hsome => hlead ?_
    obtain ⟨lead, value, rest, htext, hlead, hmax, -⟩ := shape.eq_some_iff.mp hsome
    obtain ⟨tail, htail⟩ := hwithin before _ next lead (value ++ rest) List.suffix_rfl hne hstop h hlead htext
    refine ⟨lead, tail, htail.symm, hlead, fun d hd => ?_⟩
    obtain ⟨later, rfl⟩ := List.head?_eq_some_iff.mp hd
    rw [← htail, List.append_assoc, List.append_cancel_left_eq] at htext
    obtain ⟨e, more, rfl, he⟩ := hmax.first
    obtain ⟨rfl, -⟩ := List.cons.inj htext
    exact he

theorem Scan.of_idle {t next : List Char} (h : ∀ b y, y <:+ t → y ≠ [] → rule b (y ++ next) = none) :
    ∃ b, Scan rule before (t ++ next) t b next := by
  induction t generalizing before with
  | nil => exact ⟨before, .here _ _⟩
  | cons c t ih =>
    obtain ⟨b, hscan⟩ := @ih (some c) fun b y hy => h b y (hy.trans (List.suffix_cons c t))
    exact ⟨b, .pass (h before (c :: t) List.suffix_rfl (List.cons_ne_nil c t)) hscan⟩

/-- A text without letters is passed over. -/
theorem Shape.scan_signs (shape : Shape rule) {t : List Char} (ht : ∀ c ∈ t, (fold c).isAlpha = false)
    (before : Option Char) (next : List Char) : ∃ b, Scan rule before (t ++ next) t b next := by
  refine Scan.of_idle fun b y hy hne => ?_
  obtain ⟨c, y, rfl⟩ := List.exists_cons_of_ne_nil hne
  exact shape.eq_none (ht c (hy.mem List.mem_cons_self))

/-- What comes before a text that begins without a letter does not matter. -/
theorem Shape.apply_eq_of_head (shape : Shape rule) {t : List Char} (ht : ∀ c ∈ t.head?, (fold c).isAlpha = false) :
    ∃ t', t'.head? = t.head? ∧ ∀ b, apply rule b t = t' := by
  cases t with
  | nil => exact ⟨[], rfl, fun b => apply_nil⟩
  | cons c t => exact ⟨c :: apply rule (some c) t, rfl, fun b => apply_cons_of_none (shape.eq_none (ht c rfl))⟩

/-- The beginning of what follows is gone. -/
theorem Shape.Swallows.not_suffix {shape : Shape rule} {k : List Char} (h : shape.Swallows before p (k <+: ·))
    (hk : k ≠ []) (hbracket : ']' ∉ k) (hclass : ∀ c ∈ k, shape.inClass c = true) :
    ¬k <:+ apply rule before (p ++ k) := by
  obtain ⟨_, lead, _, -, -, -, out, hout⟩ := h
  obtain ⟨b, hscan⟩ := hout k List.prefix_rfl
  obtain ⟨init, c, rfl⟩ := (List.eq_nil_or_concat' k).resolve_left hk
  rw [hscan.apply_eq, List.dropWhile_eq_nil_iff.mpr hclass, apply_nil, mark_eq]
  rintro ⟨front, hfront⟩
  have hends : (front ++ init) ++ [c] = (out ++ (shape.kept lead ++ '[' :: markWord)) ++ [']'] := by simpa using hfront
  obtain rfl : c = ']' := by simpa using (List.append_inj' hends rfl).2
  exact hbracket (by simp)

end NamespaceOwnership.Redaction
