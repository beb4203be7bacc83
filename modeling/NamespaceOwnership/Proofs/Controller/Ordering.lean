import NamespaceOwnership.Proofs.Controller.Account

/-!
# Which specification is mapped

The specification of a DynaKube that is never deleted has generations that only grow. A listing and the reading before
a repetition show the present one, an event the one that it tells of, which may be past. So the generations at which
the DynaKube is reconciled never decrease if and only if none that was given is behind one that was reconciled before
(`Controller.generations_never_decrease_iff`).
-/
namespace NamespaceOwnership

open Session (Course)

variable {k : Controller} {b b' : Books} {acts : List Act} {log : List Entry} {entry : Entry}
  {stage stage' : ResyncStage} {name : String}

/-- Each entry stands in this relation to those before it. -/
def Throughout (P : List Entry → Entry → Prop) (log : List Entry) : Prop :=
  ∀ pre entry post, log = pre ++ entry :: post → P pre entry

theorem throughout_snoc {P : List Entry → Entry → Prop} :
    Throughout P (log ++ [entry]) ↔ Throughout P log ∧ P log entry := by
  constructor
  · intro h
    exact ⟨fun pre other post hlog => h pre other (post ++ [entry]) (by simp [hlog]), h log entry [] rfl⟩
  · rintro ⟨hlog, hentry⟩ pre other post heq
    rcases cases_of_snoc heq with ⟨rfl, rfl⟩ | ⟨rest, hrest⟩
    · exact hentry
    · exact hlog pre other rest hrest

/-- The generation at which the DynaKube of this name is reconciled. -/
def Deed.generation? (name : String) : Deed → Option Int
  | .reconciled _ d _ => if d.name = name then d.generation else none
  | _ => none

/-- The generations at which the DynaKube is reconciled, in their order. -/
def generationsOf (log : List Entry) (name : String) : List Int :=
  log.filterMap fun entry => entry.deed.generation? name

theorem generationsOf_snoc : generationsOf (log ++ [entry]) name =
    generationsOf log name ++ (entry.deed.generation? name).toList := by
  cases h : entry.deed.generation? name <;> simp [generationsOf, h]

/-- The generations of a DynaKube while the entries of an account are made. An event that comes with one of them may
have been sent with an earlier one, but events come in the order in which they were sent. -/
structure Timeline where
  generation : Nat → Int
  sent : Nat → Nat
  grows : ∀ ⦃i j⦄, i ≤ j → generation i ≤ generation j
  late : ∀ i, sent i ≤ i
  ordered : ∀ ⦃i j⦄, i ≤ j → sent i ≤ sent j

/-- What is done at this time is shown a generation of the timeline: the present one, or that of the event. -/
def Deed.Shows (t : Timeline) (name : String) (i : Nat) : Deed → Prop
  | .listed ds => ∀ d ∈ ds, d.name = name → d.generation = some (t.generation i)
  | .reconciled .found d _ => d.name = name → d.generation = some (t.generation i)
  | .reconciled .given d _ => d.name = name → d.generation = some (t.generation (t.sent i))
  | _ => True

/-- Throughout the account, what is shown of the DynaKube follows the timeline. -/
def Shown (t : Timeline) (name : String) : List Entry → Prop :=
  Throughout fun pre entry => entry.deed.Shows t name pre.length

/-- No DynaKube of this name is given with a generation below one that was reconciled before. -/
def NoneBehind (name : String) : List Entry → Prop :=
  Throughout fun pre entry => ∀ d v generation, entry.deed = .reconciled .given d v → d.name = name →
    d.generation = some generation → ∀ former ∈ generationsOf pre name, former ≤ generation

/-- What a resync has still to reconcile it listed at a time whose generation none has exceeded. -/
def ResyncStage.Shows (t : Timeline) (name : String) (log : List Entry) : ResyncStage → Prop
  | .mapping _ todo => ∃ i ≤ log.length, (∀ d ∈ todo, d.name = name → d.generation = some (t.generation i)) ∧
      ∀ former ∈ generationsOf log name, former ≤ t.generation i
  | _ => True

variable {t : Timeline}

theorem noneBehind_of_pairwise (h : (generationsOf log name).Pairwise (· ≤ ·)) : NoneBehind name log := by
  rintro pre ⟨own, deed⟩ post rfl d v generation rfl hname hgeneration former hformer
  have hsplit : generationsOf (pre ++ ⟨own, .reconciled .given d v⟩ :: post) name =
      generationsOf pre name ++ generation :: generationsOf post name := by
    simp [generationsOf, Deed.generation?, hname, hgeneration]
  rw [hsplit, List.pairwise_append] at h
  exact h.2.2 former hformer generation List.mem_cons_self

/-- So far the generations never decreased, and none of them is ahead of the timeline. -/
structure Rising (t : Timeline) (name : String) (log : List Entry) (stage : ResyncStage) : Prop where
  sorted : (generationsOf log name).Pairwise (· ≤ ·)
  past : ∀ former ∈ generationsOf log name, former ≤ t.generation log.length
  stage : stage.Shows t name log

namespace Rising

variable {generation : Int}

/-- What a stretch reconciles is neither behind what was reconciled before nor ahead of the timeline. -/
theorem generation_between (h : Rising t name log stage) (hstretch : Stretch k b stage entry b' stage')
    (hshows : entry.deed.Shows t name log.length) (hbehind : ∀ d v generation, entry.deed = .reconciled .given d v →
      d.name = name → d.generation = some generation → ∀ former ∈ generationsOf log name, former ≤ generation)
    (hgeneration : entry.deed.generation? name = some generation) :
    (∀ former ∈ generationsOf log name, former ≤ generation) ∧ generation ≤ t.generation log.length := by
  cases hstretch with
  | @reconciled _ _ _ _ _ d v _ comes _ =>
    simp only [Deed.generation?, Option.ite_none_right_eq_some] at hgeneration
    obtain ⟨hname, hgeneration⟩ := hgeneration
    cases comes with
    | given =>
      have hsent : d.generation = some (t.generation (t.sent log.length)) := hshows hname
      obtain rfl := Option.some.inj (hsent.symm.trans hgeneration)
      exact ⟨hbehind d v _ rfl hname hgeneration, t.grows (t.late log.length)⟩
    | found _ =>
      have hpresent : d.generation = some (t.generation log.length) := hshows hname
      obtain rfl := Option.some.inj (hpresent.symm.trans hgeneration)
      exact ⟨h.past, le_refl _⟩
    | listed =>
      obtain ⟨i, hi, hlisted, hformer⟩ := h.stage
      have hthen : d.generation = some (t.generation i) := hlisted d List.mem_cons_self hname
      obtain rfl := Option.some.inj (hthen.symm.trans hgeneration)
      exact ⟨hformer, t.grows hi⟩
  | aside | unmapped | released | missed | deleted | unread | listed | surveyed | resynced => cases hgeneration

theorem shows (h : Rising t name log stage) (hstretch : Stretch k b stage entry b' stage')
    (hshows : entry.deed.Shows t name log.length) : stage'.Shows t name (log ++ [entry]) := by
  cases hstretch with
  | aside _ _ =>
    cases stage with
    | mapping ds todo =>
      obtain ⟨i, hi, hlisted, hformer⟩ := h.stage
      exact ⟨i, hi.trans (by simp), hlisted, by simpa [generationsOf_snoc, Deed.generation?] using hformer⟩
    | _ => trivial
  | @reconciled _ _ _ _ _ d _ _ comes _ =>
    cases comes with
    | given => trivial
    | found _ => trivial
    | listed =>
      obtain ⟨i, hi, hlisted, hformer⟩ := h.stage
      have hrest := fun other hmem => hlisted other (List.mem_cons_of_mem d hmem)
      refine ⟨i, hi.trans (by simp), hrest, fun former hmem => ?_⟩
      rw [generationsOf_snoc, List.mem_append, Option.mem_toList] at hmem
      rcases hmem with hmem | hnew
      · exact hformer former hmem
      · simp only [Deed.generation?, Option.ite_none_right_eq_some] at hnew
        have hthen : d.generation = some (t.generation i) := hlisted d List.mem_cons_self hnew.1
        exact (Option.some.inj (hnew.2.symm.trans hthen)).le
  | listed _ => exact ⟨log.length, by simp, hshows, by simpa [generationsOf_snoc, Deed.generation?] using h.past⟩
  | unmapped | released | missed | deleted | unread | surveyed | resynced => trivial

theorem snoc (h : Rising t name log stage) (hstretch : Stretch k b stage entry b' stage')
    (hshows : entry.deed.Shows t name log.length) (hbehind : ∀ d v generation, entry.deed = .reconciled .given d v →
      d.name = name → d.generation = some generation → ∀ former ∈ generationsOf log name, former ≤ generation) :
    Rising t name (log ++ [entry]) stage' := by
  have hbetween {generation : Int} (hnew : entry.deed.generation? name = some generation) :=
    h.generation_between hstretch hshows hbehind hnew
  have hlater : t.generation log.length ≤ t.generation (log ++ [entry]).length := t.grows (by simp)
  refine ⟨?_, fun former hformer => ?_, ?_⟩
  · rw [generationsOf_snoc, List.pairwise_append]
    refine ⟨h.sorted, ?_, fun former hformer generation hgeneration => ?_⟩
    · cases entry.deed.generation? name <;> simp
    · exact (hbetween (Option.mem_toList.mp hgeneration)).1 former hformer
  · rw [generationsOf_snoc, List.mem_append, Option.mem_toList] at hformer
    rcases hformer with hformer | hnew
    · exact (h.past former hformer).trans hlater
    · exact (hbetween hnew).2.trans hlater
  · exact h.shows hstretch hshows

end Rising

theorem Account.rising (h : Account k b .free log b' stage) (hshown : Shown t name log)
    (hbehind : NoneBehind name log) : Rising t name log stage := by
  induction h with
  | start => exact ⟨.nil, by simp [generationsOf], trivial⟩
  | snoc _ last ih =>
    obtain ⟨hshown, hshows⟩ := throughout_snoc.mp hshown
    obtain ⟨hnone, hnext⟩ := throughout_snoc.mp hbehind
    exact (ih hshown hnone).snoc last hshows hnext

/-- Whatever the controller does and whatever its requests are answered, as long as what is shown of a DynaKube follows
a timeline: the generations at which it is reconciled never decrease if and only if no event is acted on that comes with
a generation below one that was reconciled before. -/
theorem Controller.generations_never_decrease_iff (h : k.Proceeds b acts b') :
    (∃ log stage, Account k b .free log b' stage ∧ performed log = acts) ∧
    ∀ log stage, Account k b .free log b' stage → performed log = acts → ∀ name t, Shown t name log →
      ((generationsOf log name).Pairwise (· ≤ ·) ↔ NoneBehind name log) :=
  ⟨h.exists_account, fun _ _ haccount _ _ _ hshown =>
    ⟨noneBehind_of_pairwise, fun hbehind => (haccount.rising hshown hbehind).sorted⟩⟩

namespace Controller

section Behind

private def eager : Controller := ⟨⟨⟨2, Nat.two_pos⟩, "operator"⟩, 30, 300⟩

private def edition (generation : Int) : DynaKube := ⟨"a", .null, [], some generation⟩

private def editionObject (generation : Int) : Value :=
  .fields [("metadata", .fields [("name", .text "a"), ("generation", .int generation)])]

/-- Nothing is accepted; a DynaKube that is read has generation 3. -/
private def latest : (request : Request) → request.Answer
  | .clock => (1000 : Int)
  | .api (.getDynaKube _) => .ok (editionObject 3)
  | request => Session.refusing request

private def reconciledFrom (generation : Int) (b : Books) : List Act × Except Fault (Option MappingResult) × Books :=
  ((eager.reconcile (edition generation)).run.run b).answeredBy latest

private theorem reconciledFrom_exists (generation : Int) (b : Books) : ∃ v, eager.Reconciles (edition generation) b
    (reconciledFrom generation b).1 v (reconciledFrom generation b).2.2 :=
  exists_reconciles (Session.course_answeredBy latest ((eager.reconcile (edition generation)).run.run b))

private def afterFirst : Books := (reconciledFrom 1 {}).2.2

private def afterThird : Books := (reconciledFrom 3 afterFirst).2.2

private def lateRun : List Act × Except Fault Unit × Books := ((eager.performAll
  [.event "ADDED" (editionObject 1), .drain (.ofInt 2), .event "MODIFIED" (editionObject 2)]).run.run {}).answeredBy latest

private theorem lateRun_proceeds : eager.Proceeds {} lateRun.1 lateRun.2.2 :=
  .tasks (Session.course_answeredBy latest _)

private def lateTimeline : Timeline where
  generation i := i + 1
  sent i := if i < 3 then 0 else 1
  grows i j h := by simpa using h
  late i := by split <;> omega
  ordered i j h := by split <;> split <;> omega

private def lateLog (v₁ v₃ v₂ : Except Fault MappingResult) : List Entry :=
  [] ++ [⟨[] ++ (reconciledFrom 1 {}).1, .reconciled .given (edition 1) v₁⟩] ++
    [⟨[.told (.log .info "Retrying reconciliation of dynakube a")], .aside⟩] ++
    [⟨[.asked (.api (.getDynaKube (.text "a"))) (.ok (editionObject 3))] ++ (reconciledFrom 3 afterFirst).1,
      .reconciled .found (edition 3) v₃⟩] ++
    [⟨[] ++ (reconciledFrom 2 afterThird).1, .reconciled .given (edition 2) v₂⟩]

/-- Generation 1 comes in an event, generation 3 is read for a repetition, and then generation 2 comes in an event. -/
private theorem lateRun_account : ∃ v₁ v₃ v₂, Account eager {} .free (lateLog v₁ v₃ v₂) lateRun.2.2 .free ∧
    performed (lateLog v₁ v₃ v₂) = lateRun.1 := by
  obtain ⟨v₁, h₁⟩ := reconciledFrom_exists 1 {}
  obtain ⟨v₃, h₃⟩ := reconciledFrom_exists 3 afterFirst
  obtain ⟨v₂, h₂⟩ := reconciledFrom_exists 2 afterThird
  refine ⟨v₁, v₃, v₂, ?_, by rfl⟩
  have hlast : lateRun.2.2 = (reconciledFrom 2 afterThird).2.2 := by rfl
  rw [hlast]
  have hretry : Stretch eager afterFirst .free
      ⟨[.told (.log .info "Retrying reconciliation of dynakube a")], .aside⟩ afterFirst .free :=
    .aside ⟨rfl, rfl, by simp [Aside, Note.Aside]⟩ ⟨rfl, rfl, by simp [Unreported]⟩
  have hfound : Comes (edition 3) .found [.asked (.api (.getDynaKube (.text "a"))) (.ok (editionObject 3))]
      .free .free := .found rfl
  exact .snoc (.snoc (.snoc (.snoc .start (.reconciled .given h₁)) hretry) (.reconciled hfound h₃))
    (.reconciled .given h₂)

private theorem lateLog_shown (v₁ v₃ v₂ : Except Fault MappingResult) :
    Shown lateTimeline "a" (lateLog v₁ v₃ v₂) := by
  have hnone : Shown lateTimeline "a" [] := fun pre entry post hlog => by simp at hlog
  refine throughout_snoc.mpr ⟨throughout_snoc.mpr ⟨throughout_snoc.mpr ⟨throughout_snoc.mpr ⟨hnone, ?_⟩, trivial⟩,
    ?_⟩, ?_⟩
  all_goals exact fun _ => rfl

private theorem lateLog_generations (v₁ v₃ v₂ : Except Fault MappingResult) :
    generationsOf (lateLog v₁ v₃ v₂) "a" = [1, 3, 2] := by rfl

/-- There the theorem says that an event is acted on that comes too late. -/
theorem generations_never_decrease_iff_late : ∃ (k : Controller) (acts : List Act) (b : Books) (log : List Entry)
    (stage : ResyncStage) (t : Timeline), k.Proceeds {} acts b ∧ Account k {} .free log b stage ∧ performed log = acts ∧
      Shown t "a" log ∧ ¬NoneBehind "a" log := by
  obtain ⟨v₁, v₃, v₂, haccount, hacts⟩ := lateRun_account
  have hiff := (generations_never_decrease_iff lateRun_proceeds).2 _ _ haccount hacts _ _ (lateLog_shown v₁ v₃ v₂)
  refine ⟨eager, _, _, _, _, _, lateRun_proceeds, haccount, hacts, lateLog_shown v₁ v₃ v₂, fun hbehind => ?_⟩
  have hsorted := hiff.mpr hbehind
  rw [lateLog_generations] at hsorted
  exact absurd hsorted (by decide)

/-- A DynaKube that is there throughout, whose generation only grows and whose events come in their order, is reconciled
at generation 2 after it was reconciled at generation 3. -/
theorem older_generation_reconciled : ∃ (k : Controller) (acts : List Act) (b : Books) (log : List Entry)
    (stage : ResyncStage) (t : Timeline), k.Proceeds {} acts b ∧ Account k {} .free log b stage ∧ performed log = acts ∧
      Shown t "a" log ∧ (∀ entry ∈ log, entry.deed = .aside ∨ ∃ origin d v, entry.deed = .reconciled origin d v) ∧
      ¬(generationsOf log "a").Pairwise (· ≤ ·) := by
  obtain ⟨v₁, v₃, v₂, haccount, hacts⟩ := lateRun_account
  refine ⟨eager, _, _, _, _, _, lateRun_proceeds, haccount, hacts, lateLog_shown v₁ v₃ v₂, by simp [lateLog], ?_⟩
  rw [lateLog_generations]
  decide

end Behind

end Controller

end NamespaceOwnership
