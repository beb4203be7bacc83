import NamespaceOwnership.Proofs.Controller.Chronicle

/-!
# Failed work is pending, and nothing else is

After any tasks a name is pending if and only if the last attempt on it failed, and then the number of its attempts is
that of its failures since it last did not fail or was deleted (`Controller.retries_in_step`). The invariant that
carries this is `Fits`: the two tables show what the incidents so far have left to be repeated. Each episode keeps it,
whatever it consists of.
-/
namespace NamespaceOwnership

open Session (Course refusing)

variable {α : Type} {k : Controller} {b b' : Books} {acts : List Act} {log : List Incident}

namespace Incident

def name : Incident → Value
  | .tried name _ | .unread name | .deleted name => name

def failed : Incident → Bool
  | .tried _ result => result.failed
  | .unread _ => true
  | .deleted _ => false

/-- To hear of a deletion is no attempt; dropping the claims after that is one. -/
def isAttempt : Incident → Bool
  | .tried _ _ | .unread _ => true
  | .deleted _ => false

end Incident

/-- The incidents of a name, the last one first. -/
def incidentsOf (log : List Incident) (text : String) : List Incident :=
  (log.filter fun incident => incident.name.sameName (.text text)).reverse

/-- Its failures since it last did not fail or was deleted. -/
def failures (log : List Incident) (text : String) : Nat :=
  ((incidentsOf log text).takeWhile Incident.failed).length

/-- There is a last attempt on the name, and it failed. -/
def LastFailed (log : List Incident) (text : String) : Prop :=
  ∃ incident, (incidentsOf log text).find? Incident.isAttempt = some incident ∧ incident.failed = true

theorem incidentsOf_snoc (log : List Incident) (incident : Incident) (text : String) :
    incidentsOf (log ++ [incident]) text = if incident.name.sameName (.text text) = true
      then incident :: incidentsOf log text else incidentsOf log text := by
  unfold incidentsOf
  rw [List.filter_append, List.reverse_append]
  by_cases h : incident.name.sameName (.text text) = true <;> simp [h]

theorem failures_snoc (log : List Incident) (incident : Incident) (text : String) :
    failures (log ++ [incident]) text = if incident.name.sameName (.text text) = true
      then (if incident.failed = true then failures log text + 1 else 0) else failures log text := by
  unfold failures
  rw [incidentsOf_snoc]
  split
  · by_cases h : incident.failed = true <;> simp [h]
  · rfl

theorem lastFailed_snoc {log : List Incident} {incident : Incident} {text : String} (h : incident.isAttempt = true) :
    LastFailed (log ++ [incident]) text ↔ if incident.name.sameName (.text text) = true
      then incident.failed = true else LastFailed log text := by
  unfold LastFailed
  rw [incidentsOf_snoc]
  split
  · simp [h]
  · rfl

/-- The deletion of another name does not matter. -/
theorem lastFailed_snoc_other {log : List Incident} {incident : Incident} {text : String}
    (h : ¬incident.name.sameName (.text text) = true) :
    LastFailed (log ++ [incident]) text ↔ LastFailed log text := by
  unfold LastFailed
  rw [incidentsOf_snoc, if_neg h]

/-- A failure that was not followed by another result was the last attempt. -/
def Settled (log : List Incident) : Prop := ∀ text, LastFailed log text ↔ failures log text ≠ 0

theorem Settled.snoc {incident : Incident} (h : Settled log) (hattempt : incident.isAttempt = true) :
    Settled (log ++ [incident]) := by
  intro text
  rw [lastFailed_snoc hattempt, failures_snoc]
  by_cases hname : incident.name.sameName (.text text) = true
  · by_cases hfailed : incident.failed = true <;> simp [hname, hfailed]
  · simpa [hname] using h text

/-- After a deletion the same name is tried. -/
theorem Settled.deleted (h : Settled log) (name : Value) (result : ReconcileResult) :
    Settled (log ++ [.deleted name] ++ [.tried name result]) := by
  intro text
  rw [lastFailed_snoc rfl, failures_snoc]
  by_cases hname : name.sameName (.text text) = true
  · by_cases hfailed : result.failed = true <;> simp [Incident.name, Incident.failed, hname, hfailed]
  · have hdeleted : ¬(Incident.deleted name).name.sameName (.text text) = true := hname
    rw [lastFailed_snoc_other hdeleted, failures_snoc]
    simpa [Incident.name, hname] using h text

/-- The tables show what the incidents have left to be repeated. -/
structure Fits (log : List Incident) (b : Books) : Prop where
  pending (text : String) : b.pending.contains (.text text) = true ↔ failures log text ≠ 0
  attempts (text : String) : b.attempts.get? (.text text) =
    if failures log text = 0 then none else some (failures log text)

namespace Fits

theorem start : Fits [] {} where
  pending text := by simp [NameTable.contains, failures, incidentsOf]
  attempts text := by simp [failures, incidentsOf]

theorem contains_attempts (h : Fits log b) (text : String) :
    b.attempts.contains (.text text) = b.pending.contains (.text text) := by
  rw [Bool.eq_iff_iff, h.pending text, NameTable.contains, h.attempts text]
  by_cases hzero : failures log text = 0 <;> simp [hzero]

theorem synced (h : Fits log b) : b.Synced := fun text hcontains => h.contains_attempts text ▸ hcontains

theorem unmoved (h : Fits log b) (hb : b.Unmoved acts b') : Fits log b' where
  pending text := by rw [hb.pending, h.pending]
  attempts text := by rw [hb.attempts, h.attempts]

/-- An incident and what it entails keep the tables in step. -/
theorem snoc {incident : Incident} (h : Fits log b) (hchange : Books.Change incident.name incident.failed b b') :
    Fits (log ++ [incident]) b' := by
  unfold Books.Change at hchange
  split at hchange
  · rename_i hfailed
    constructor
    · intro text
      rw [hchange.pending, failures_snoc]
      by_cases hname : incident.name.sameName (.text text) = true
      · simp [hname, hfailed]
      · simpa [hname] using h.pending text
    · intro text
      rw [hchange.attempts, failures_snoc, h.attempts]
      by_cases hname : incident.name.sameName (.text text) = true
      · by_cases hzero : failures log text = 0 <;> simp [hname, hfailed, hzero]
      · simp [hname]
  · rename_i hfailed
    constructor
    · intro text
      rw [NameTable.contains, hchange.pending, failures_snoc]
      by_cases hname : incident.name.sameName (.text text) = true
      · simp [hname, hfailed]
      · simpa [hname, NameTable.contains] using h.pending text
    · intro text
      rw [hchange.attempts, failures_snoc, h.attempts]
      by_cases hname : incident.name.sameName (.text text) = true <;> simp [hname, hfailed]

end Fits

namespace Episode

open Controller (reconcile_concluding unmap_concluding clearRetry_amounts repeatLater_amounts)

variable {incidents : List Incident}

theorem kept (h : Episode k b acts incidents b') : b.Kept acts b' := by
  cases h with
  | quiet h => exact h.kept
  | reconciled h _ => exact (reconcile_concluding _ _ _ _ _ h).kept
  | unmapped h _ => exact (unmap_concluding _ _ _ _ _ h).kept
  | @unread acts _ name _ status reason text _ h =>
    have hbefore : b.Unmoved [.asked (.api (.getDynaKube name)) (.error (.refused status reason)),
        .told (.log .error text)] b := ⟨rfl, rfl, by simp [Aside, Note.Aside]⟩
    exact hbefore.kept.trans (repeatLater_amounts _ _ _ _ _ h).1
  | @deleted _ _ b₁ _ name _ _ text cleared h _ =>
    have hbefore : b.Unmoved [.told (.log .info text)] b := ⟨rfl, rfl, by simp [Aside, Note.Aside]⟩
    exact hbefore.kept.trans ((clearRetry_amounts _ _ _ _ _ cleared).1.trans (unmap_concluding _ _ _ _ _ h).kept)

theorem settled (h : Episode k b acts incidents b') (hlog : Settled log) : Settled (log ++ incidents) := by
  cases h with
  | quiet _ => simpa using hlog
  | reconciled _ _ => exact hlog.snoc rfl
  | unmapped _ _ => exact hlog.snoc rfl
  | unread _ _ => exact hlog.snoc rfl
  | deleted _ _ _ => simpa using hlog.deleted _ _

theorem fits (h : Episode k b acts incidents b') (hdated : Dated acts) (hfits : Fits log b) :
    Fits (log ++ incidents) b' := by
  cases h with
  | quiet h => simpa using hfits.unmoved h
  | reconciled h counted => exact hfits.snoc ((reconcile_concluding _ _ _ _ _ h).change counted hdated hfits.synced)
  | unmapped h counted => exact hfits.snoc ((unmap_concluding _ _ _ _ _ h).change counted hdated hfits.synced)
  | unread _ h => exact hfits.snoc ((repeatLater_amounts _ _ _ _ _ h).2.2.2 hdated.tail.tail hfits.synced)
  | @deleted first rest b₁ _ name _ result _ cleared h counted =>
    -- the name is crossed out before its claims are dropped, so the two incidents count one after the other
    have hrest : Dated (first ++ rest) := hdated.tail
    have hcleared : Fits (log ++ [.deleted name]) b₁ :=
      hfits.snoc ((clearRetry_amounts _ _ _ _ _ cleared).2.2.2 hrest.of_append.1 hfits.synced)
    have htried : Fits (log ++ [.deleted name] ++ [.tried name result]) b' :=
      hcleared.snoc ((unmap_concluding _ _ _ _ _ h).change counted hrest.of_append.2 hcleared.synced)
    simpa using htried

end Episode

namespace Chronicle

theorem kept (h : Chronicle k b acts log b') : b.Kept acts b' := by
  induction h with
  | start => exact ⟨id, fun _ hm => hm⟩
  | snoc _ last ih => exact ih.trans last.kept

theorem settled (h : Chronicle k b acts log b') : Settled log := by
  induction h with
  | start => exact fun text => by simp [LastFailed, failures, incidentsOf]
  | snoc _ last ih => exact last.settled ih

theorem fits (h : Chronicle k {} acts log b) (hdated : Dated acts) : Fits log b := by
  induction h with
  | start => exact .start
  | snoc _ last ih => exact last.fits hdated.of_append.2 (ih hdated.of_append.1)

end Chronicle

namespace Controller

section Refused

private def persistent : Controller := ⟨⟨⟨2, Nat.two_pos⟩, "operator"⟩, 30, 300⟩

private def refusingAll : (request : Request) → request.Answer
  | .clock => (1000 : Int)
  | request => refusing request

/-- The claims of a DynaKube cannot be dropped, and after a second it cannot be read. -/
private def refused : List Act × Except Fault Unit × Books :=
  ((persistent.performAll [.unmap (.text "a"), .drain (.ofInt 2)]).run.run {}).answeredBy refusingAll

end Refused

end Controller

end NamespaceOwnership
