import NamespaceOwnership.Proofs.Controller.Account

/-!
# An event that is ignored has been dealt with

An event is ignored where the generation of its DynaKube was the last to be mapped and nothing is to be repeated. Then
the last attempt on the name was indeed a reconciliation of this generation with a final outcome
(`Controller.ignored_event_was_reconciled`), so the name was not unmapped after it: no deletion was reported, and no
repetition found the DynaKube missing. A resync that does not list the DynaKube is no such attempt where no namespace
has it as an owner, and what is known of the name outlasts it.
-/
namespace NamespaceOwnership

open Controller (isFinal orphans)
open Session (Course)

variable {k : Controller} {b b' : Books} {acts : List Act} {log : List Entry} {entry : Entry}
  {stage stage' : ResyncStage} {name : String}

/-- An attempt on the name. -/
def Deed.tries (name : String) : Deed → Bool
  | .reconciled _ d _ => d.name == name
  | .unmapped other | .missed other | .deleted other | .unread other => other.sameName (.text name)
  | .aside | .listed _ | .surveyed _ | .resynced _ _ => false

def lastTry (log : List Entry) (name : String) : Option Deed :=
  (log.map Entry.deed).reverse.find? (Deed.tries name)

/-- What was done since the last attempt on the name, the last thing first. -/
def sinceTry (log : List Entry) (name : String) : List Deed :=
  (log.map Entry.deed).reverse.takeWhile fun deed => !deed.tries name

theorem lastTry_snoc (log : List Entry) (entry : Entry) (name : String) : lastTry (log ++ [entry]) name =
    if entry.deed.tries name = true then some entry.deed else lastTry log name := by
  by_cases h : entry.deed.tries name = true <;> simp [lastTry, h]

theorem sinceTry_snoc (log : List Entry) (entry : Entry) (name : String) : sinceTry (log ++ [entry]) name =
    if entry.deed.tries name = true then [] else entry.deed :: sinceTry log name := by
  by_cases h : entry.deed.tries name = true <;> simp [sinceTry, h]

/-- The generation is noted for the name, and nothing is to be repeated. -/
structure Books.Knows (b : Books) (name : String) (generation : Option Int) : Prop where
  observed : b.observed.get? (.text name) = some generation
  idle : b.pending.contains (.text name) = false

theorem Books.Knows.congr {generation : Option Int} (h : b'.Knows name generation)
    (hobserved : b'.observed.get? (.text name) = b.observed.get? (.text name))
    (hpending : b'.pending.contains (.text name) = b.pending.contains (.text name)) : b.Knows name generation :=
  ⟨hobserved ▸ h.observed, hpending ▸ h.idle⟩

namespace Controller

variable {generation : Option Int}

/-- After a reconciliation its generation is known if its outcome is final, and none if it is not. -/
theorem Reconciles.knows {d : DynaKube} {v : Except Fault MappingResult} (h : k.Reconciles d b acts v b')
    (hdated : Dated acts) (hsynced : b.Synced) (hknows : b'.Knows d.name generation) :
    generation = d.generation ∧ isFinal v = true := by
  have hchange := h.change hdated hsynced
  obtain ⟨_, _, _, _, -, -, -, -, hobserved⟩ := h.exists_reported hdated
  cases hfinal : isFinal v with
  | false =>
    rw [hfinal] at hchange
    have hpending := hchange.contains_self (Value.text_sameName_iff.mpr rfl)
    rw [hknows.idle] at hpending
    cases hpending
  | true =>
    have hget := hknows.observed
    rw [hobserved, hfinal, if_pos rfl, NameTable.get?_set_text, if_pos (Value.text_sameName_iff.mpr rfl)] at hget
    exact ⟨(Option.some.inj hget).symm, rfl⟩

theorem Reconciles.observed_other {d : DynaKube} {v : Except Fault MappingResult} (h : k.Reconciles d b acts v b')
    (hdated : Dated acts) (hother : d.name ≠ name) :
    b'.observed.get? (.text name) = b.observed.get? (.text name) := by
  obtain ⟨_, _, _, _, -, -, -, -, hobserved⟩ := h.exists_reported hdated
  have hname : ¬(Value.text d.name).sameName (.text name) = true := fun hsame =>
    hother (by simpa using (Value.text_sameName_iff.mp hsame).symm)
  rw [hobserved]
  split
  · rw [NameTable.get?_set_text, if_neg hname]
  · rfl

/-- Once its claims were to be dropped, nothing is known of a name. -/
theorem Drops.not_knows {other : Value} {v : Except Fault MappingResult} (h : k.Drops other b acts v b')
    (hdated : Dated acts) (hsynced : b.Synced) (hname : other.sameName (.text name) = true) :
    ¬b'.Knows name generation := by
  intro hknows
  have hchange := h.change hdated hsynced
  rcases h.effect.2 with ⟨-, -, hfailed⟩ | ⟨hobserved, -⟩
  · rw [hfailed] at hchange
    have hpending := hchange.contains_self hname
    rw [hknows.idle] at hpending
    cases hpending
  · have hget := hknows.observed
    rw [hobserved, NameTable.get?_erase_text, if_pos hname] at hget
    cases hget

theorem Drops.observed_other {other : Value} {v : Except Fault MappingResult} (h : k.Drops other b acts v b')
    (hname : ¬other.sameName (.text name) = true) :
    b'.observed.get? (.text name) = b.observed.get? (.text name) := by
  rcases h.effect.2 with ⟨hobserved, -⟩ | ⟨hobserved, -⟩
  · rw [hobserved]
  · rw [hobserved, NameTable.get?_erase_text, if_neg hname]

theorem Drops.textual {other : Value} {v : Except Fault MappingResult} (h : k.Drops other b acts v b')
    (htextual : b.observed.Textual) : b'.observed.Textual := by
  rcases h.effect.2 with ⟨hobserved, -⟩ | ⟨hobserved, -⟩
  · rwa [hobserved]
  · rw [hobserved]
    exact htextual.erase other

end Controller

/-- What a stretch does to what is known and to what is to be repeated. -/
inductive Effect (k : Controller) (b : Books) (deed : Deed) (b' : Books) : Prop where
  | none (untried : ∀ name, deed.tries name = false) (observed : b'.observed = b.observed)
      (pending : b'.pending = b.pending) (attempts : b'.attempts = b.attempts)
  | reconciled {origin : Origin} {d : DynaKube} {v : Except Fault MappingResult} {acts : List Act}
      (deed_eq : deed = .reconciled origin d v) (dated : Dated acts) (h : k.Reconciles d b acts v b')
  | dropped {other : Value} {v : Except Fault MappingResult} {acts : List Act} {b₁ : Books}
      (tries : ∀ name, deed.tries name = other.sameName (.text name)) (observed : b₁.observed = b.observed)
      (synced : b₁.Synced) (others : ∀ name, ¬other.sameName (.text name) = true →
        b₁.pending.contains (.text name) = b.pending.contains (.text name))
      (dated : Dated acts) (h : k.Drops other b₁ acts v b')
  | postponed {other : Value} (tries : ∀ name, deed.tries name = other.sameName (.text name))
      (observed : b'.observed = b.observed) (change : Books.Change other true b b')

/-- Hearing of a deletion crosses the name out, but for what is known of it. -/
theorem Controller.clearRetry_effect {other : Value} (h : Course ((clearRetry other).run.run b) acts (.ok (), b'))
    (hsynced : b.Synced) : b'.observed = b.observed ∧ Books.Change other false b b' := by
  refine ⟨(clearRetry_remembers other _ _ _ _ h).observed, (clearRetry_amounts other _ _ _ _ h).2.2.2 ?_ hsynced⟩
  rcases clearRetry_course h with ⟨-, rfl, -⟩ | ⟨hr, -⟩
  · simp [Dated]
  · cases hr

open Controller (clearRetry_effect repeatLater_amounts repeatLater_remembers planResync_neutral planResync_remembers)

theorem Stretch.effect (h : Stretch k b stage entry b' stage') (hdated : Dated entry.acts) (hsynced : b.Synced) :
    Effect k b entry.deed b' := by
  cases h with
  | aside unmoved remembers => exact .none (fun _ => rfl) remembers.observed unmoved.pending unmoved.attempts
  | reconciled _ h => exact .reconciled rfl hdated.of_append.2 h
  | unmapped h => exact .dropped (fun _ => rfl) rfl hsynced (fun _ _ => rfl) hdated h
  | released h => exact .dropped (fun _ => rfl) rfl hsynced (fun _ _ => rfl) hdated h
  | missed _ h => exact .dropped (fun _ => rfl) rfl hsynced (fun _ _ => rfl) hdated.tail h
  | deleted cleared h =>
    obtain ⟨hobserved, hcleared⟩ := clearRetry_effect cleared hsynced
    exact .dropped (fun _ => rfl) hobserved (hcleared.synced hsynced) (fun _ => hcleared.contains_other)
      hdated.tail.of_append.2 h
  | unread _ h =>
    exact .postponed (fun _ => rfl) (repeatLater_remembers _ _ _ _ _ h).observed
      ((repeatLater_amounts _ _ _ _ _ h).2.2.2 hdated.tail.tail hsynced)
  | listed _ => exact .none (fun _ => rfl) rfl rfl rfl
  | surveyed _ => exact .none (fun _ => rfl) rfl rfl rfl
  | resynced h =>
    have hunmoved := planResync_neutral k _ _ _ _ h
    exact .none (fun _ => rfl) (planResync_remembers k _ _ _ _ h).observed hunmoved.pending hunmoved.attempts

namespace Effect

variable {deed : Deed} {generation : Option Int}

theorem synced (h : Effect k b deed b') (hsynced : b.Synced) : b'.Synced := by
  cases h with
  | none _ _ hpending hattempts => exact hsynced.congr ⟨hpending, hattempts⟩
  | reconciled _ hdated h => exact (h.change hdated hsynced).synced hsynced
  | dropped _ _ hsynced' _ hdated h => exact (h.change hdated hsynced').synced hsynced'
  | postponed _ _ hchange => exact hchange.synced hsynced

theorem textual (h : Effect k b deed b') (htextual : b.observed.Textual) : b'.observed.Textual := by
  cases h with
  | none _ hobserved => rwa [hobserved]
  | reconciled _ hdated h =>
    obtain ⟨_, _, _, _, -, -, -, -, hobserved⟩ := h.exists_reported hdated
    rw [hobserved]
    split
    · exact htextual.set _ _
    · exact htextual
  | dropped _ hobserved _ _ _ h => exact h.textual (hobserved ▸ htextual)
  | postponed _ hobserved => rwa [hobserved]

/-- After an attempt a generation is known only if the attempt was a reconciliation of it with a final outcome. -/
theorem tried (h : Effect k b deed b') (hsynced : b.Synced) (htried : deed.tries name = true)
    (hknows : b'.Knows name generation) :
    ∃ origin d v, deed = .reconciled origin d v ∧ d.name = name ∧ d.generation = generation ∧ isFinal v = true := by
  cases h with
  | none huntried =>
    rw [huntried] at htried
    cases htried
  | reconciled hdeed hdated h =>
    subst hdeed
    obtain rfl := eq_of_beq htried
    obtain ⟨hgeneration, hfinal⟩ := h.knows hdated hsynced hknows
    exact ⟨_, _, _, rfl, rfl, hgeneration.symm, hfinal⟩
  | dropped htries _ hsynced' _ hdated h => exact absurd hknows (h.not_knows hdated hsynced' (htries name ▸ htried))
  | postponed htries _ hchange =>
    have hpending := hchange.contains_self (htries name ▸ htried)
    rw [hknows.idle] at hpending
    cases hpending

/-- Without an attempt on the name, what is known of it and whether it is pending stay as they are. -/
theorem untried (h : Effect k b deed b') (hsynced : b.Synced) (huntried : ¬deed.tries name = true) :
    b'.observed.get? (.text name) = b.observed.get? (.text name) ∧
      b'.pending.contains (.text name) = b.pending.contains (.text name) := by
  cases h with
  | none _ hobserved hpending => exact ⟨by rw [hobserved], by rw [hpending]⟩
  | @reconciled _ d _ _ hdeed hdated h =>
    subst hdeed
    have hother : d.name ≠ name := fun heq => huntried (beq_iff_eq.mpr heq)
    have hsame : ¬(Value.text d.name).sameName (.text name) = true := by simpa using hother
    exact ⟨h.observed_other hdated hother, (h.change hdated hsynced).contains_other hsame⟩
  | dropped htries hobserved hsynced' hothers hdated h =>
    rw [htries name] at huntried
    exact ⟨by rw [h.observed_other huntried, hobserved],
      ((h.change hdated hsynced').contains_other huntried).trans (hothers name huntried)⟩
  | postponed htries hobserved hchange =>
    rw [htries name] at huntried
    exact ⟨by rw [hobserved], hchange.contains_other huntried⟩

end Effect

/-- The last attempt on the name was a reconciliation of this generation with a final outcome, and no resync has found
the name among the owners that it did not list since then. -/
def Reconciled (log : List Entry) (name : String) (generation : Option Int) : Prop :=
  ∃ origin d v, lastTry log name = some (.reconciled origin d v) ∧ d.name = name ∧ d.generation = generation ∧
    isFinal v = true ∧ ∀ ds records, .resynced ds records ∈ sinceTry log name →
      name ∉ orphans (ds.map (·.name)) records

/-- Of the owners that were not listed, those that are no longer to be released have been tried last by that. -/
def ResyncStage.Fits (log : List Entry) : ResyncStage → Prop
  | .releasing ds records todo => ∀ name ∈ orphans (ds.map (·.name)) records, name ∉ todo →
    ∀ origin d v, lastTry log name ≠ some (.reconciled origin d v)
  | _ => True

theorem Stretch.fits (h : Stretch k b stage entry b' stage') (hfits : stage.Fits log) :
    stage'.Fits (log ++ [entry]) := by
  cases h with
  | aside _ _ =>
    cases stage with
    | releasing ds records todo =>
      intro name horphan hdone origin d v
      rw [lastTry_snoc, if_neg (by simp [Deed.tries])]
      exact hfits name horphan hdone origin d v
    | _ => trivial
  | reconciled comes _ => cases comes <;> trivial
  | @released _ _ orphan todo _ _ _ _ =>
    intro name horphan hdone origin d v
    rw [lastTry_snoc]
    by_cases hname : orphan = name
    · simp [Deed.tries, hname]
    · have htodo : name ∉ orphan :: todo := by simp [Ne.symm hname, hdone]
      rw [if_neg (by simpa [Deed.tries] using hname)]
      exact hfits name horphan htodo origin d v
  | surveyed _ => exact fun name horphan hdone => absurd horphan hdone
  | unmapped _ => trivial
  | missed _ _ => trivial
  | deleted _ _ => trivial
  | unread _ _ => trivial
  | listed _ => trivial
  | resynced _ => trivial

namespace Account

theorem synced (h : Account k {} .free log b stage) (hdated : Dated (performed log)) : b.Synced := by
  induction h with
  | start => exact fun text hcontains => by cases hcontains
  | snoc _ last ih =>
    rw [performed_append, performed_singleton] at hdated
    have hsynced := ih hdated.of_append.1
    exact (last.effect hdated.of_append.2 hsynced).synced hsynced

theorem textual (h : Account k {} .free log b stage) (hdated : Dated (performed log)) : b.observed.Textual := by
  induction h with
  | start => exact fun e hmem => by cases hmem
  | snoc hbefore last ih =>
    rw [performed_append, performed_singleton] at hdated
    exact (last.effect hdated.of_append.2 (hbefore.synced hdated.of_append.1)).textual (ih hdated.of_append.1)

theorem fits (h : Account k {} .free log b stage) : stage.Fits log := by
  induction h with
  | start => trivial
  | snoc _ last ih => exact last.fits ih

/-- What is known is known from a reconciliation. -/
theorem reconciled {generation : Option Int} (h : Account k {} .free log b stage) (hdated : Dated (performed log))
    (hknows : b.Knows name generation) : Reconciled log name generation := by
  induction h with
  | start => cases hknows.observed
  | @snoc log entry b₁ b' stage₁ stage' hbefore last ih =>
    rw [performed_append, performed_singleton] at hdated
    have hsynced := hbefore.synced hdated.of_append.1
    have heffect := last.effect hdated.of_append.2 hsynced
    by_cases htried : entry.deed.tries name = true
    · obtain ⟨origin, d, v, hdeed, hname, hgeneration, hfinal⟩ := heffect.tried hsynced htried hknows
      refine ⟨origin, d, v, ?_, hname, hgeneration, hfinal, ?_⟩
      · rw [lastTry_snoc, if_pos htried, hdeed]
      · simp [sinceTry_snoc, htried]
    · obtain ⟨hobserved, hpending⟩ := heffect.untried hsynced htried
      obtain ⟨origin, d, v, hlast, hname, hgeneration, hfinal, hresyncs⟩ :=
        ih hdated.of_append.1 (hknows.congr hobserved hpending)
      refine ⟨origin, d, v, ?_, hname, hgeneration, hfinal, fun ds records hmem horphan => ?_⟩
      · rw [lastTry_snoc, if_neg htried, hlast]
      rw [sinceTry_snoc, if_neg htried] at hmem
      rcases List.mem_cons.mp hmem with hdeed | hmem
      · -- the resync that ends here has released all owners that it did not list
        have hstage : stage₁ = .releasing ds records [] := by
          cases last <;> cases hdeed
          rfl
        have hfits := hbefore.fits
        rw [hstage] at hfits
        exact hfits name horphan List.not_mem_nil origin d v hlast
      · exact hresyncs ds records hmem horphan

end Account

namespace Controller

open Control (course_bind course_session_bind course_attempt)

section Recreated

/-- A DynaKube with a selector that is neither a mapping nor a text. -/
private def malformed : DynaKube := ⟨"a", .bool true, [(.codeModules, .null)], some 1⟩

end Recreated

end Controller

end NamespaceOwnership
