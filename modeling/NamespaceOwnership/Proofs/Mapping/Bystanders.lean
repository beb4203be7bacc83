import NamespaceOwnership.Proofs.Course
import NamespaceOwnership.Proofs.Mapping.Omission
import NamespaceOwnership.Proofs.Mapping.Patches

/-!
# A mapping without one of its namespaces

A mapping deals with one namespace after another, and the only thing that it remembers from one to the next is which
DynaKubes it has read. So what becomes of a namespace is of no account to the others: with the same answers they are dealt
with as if it had not been listed (`Mapper.map_without`). Only the reading of a DynaKube may come later then, when another
namespace asks for it first.
-/
namespace NamespaceOwnership

open Session (Runs Course)

/-- A read or a patch of a namespace other than this one. -/
def Act.elsewhere (space : String) : Act → Bool
  | .asked (.api (.readNamespace other)) _ | .asked (.api (.patchNamespace other _)) _ => other != space
  | _ => false

/-- The other namespaces are asked for in the same way and with the same answers, and what is asked for besides was
answered like that as well. -/
structure Replays (space : String) (book acts acts' : List Act) : Prop where
  elsewhere : acts'.filter (Act.elsewhere space) = acts.filter (Act.elsewhere space)
  answered : ∀ {request answer}, .asked request answer ∈ acts' → .asked request answer ∈ book

namespace Replays

variable {space : String} {book acts acts' rest rest' : List Act}

theorem refl (h : acts ⊆ book) : Replays space book acts acts := ⟨rfl, fun hmem => h hmem⟩

theorem append (h : Replays space book acts acts') (h' : Replays space book rest rest') :
    Replays space book (acts ++ rest) (acts' ++ rest') where
  elsewhere := by rw [List.filter_append, List.filter_append, h.elsewhere, h'.elsewhere]
  answered hmem := (List.mem_append.mp hmem).elim h.answered h'.answered

/-- What asks for no other namespace may be left out. -/
theorem omitted (h : acts.filter (Act.elsewhere space) = []) : Replays space book acts [] := ⟨h.symm, nofun⟩

/-- Notes are no requests. -/
theorem note (note note' : Note) : Replays space book [.told note] [.told note'] where
  elsewhere := rfl
  answered hmem := nomatch List.mem_singleton.mp hmem

/-- It may be inserted as well. -/
theorem inserted (h : acts'.filter (Act.elsewhere space) = []) (hbook : acts' ⊆ book) : Replays space book [] acts' :=
  ⟨h, fun hmem => hbook hmem⟩

end Replays

/-- A session that asks for no other namespace does so whatever it is answered. -/
theorem Session.Course.elsewhere_eq_nil {α : Type} {s : Session α} {acts : List Act} {a : α} {space : String}
    {allowed : Request → Prop} (h : Course s acts a) (hs : s.Within allowed)
    (hspace : ∀ request answer, allowed request → Act.elsewhere space (.asked request answer) = false) :
    acts.filter (Act.elsewhere space) = [] := by
  refine List.filter_eq_nil_iff.mpr fun act hact helsewhere => ?_
  cases act with
  | told note => cases helsewhere
  | asked request answer =>
    rw [hspace request answer (h.within hs hact)] at helsewhere
    cases helsewhere

/-- The DynaKube of a name was read like that. -/
def ReadIn (book : List Act) (name : String) (found : Option DynaKube) : Prop :=
  ∃ acts, acts ⊆ book ∧ Course (DynaKubes.get? (.text name)).run acts (.ok found)

/-- What a memory knows beyond an earlier one was read, as it stands in the book. -/
structure Memory.Follows (book : List Act) (earlier later : Memory) : Prop where
  kept : ∀ {name found}, earlier.peers.lookup name = some found → later.peers.lookup name = some found
  read : ∀ {name found}, later.peers.lookup name = some found →
    earlier.peers.lookup name = some found ∨ ReadIn book name found

namespace Memory.Follows

variable {book : List Act} {st st₁ st₂ : Memory} {name : String} {found : Option DynaKube}

theorem refl (st : Memory) : Follows book st st := ⟨id, .inl⟩

theorem trans (h : Follows book st st₁) (h' : Follows book st₁ st₂) : Follows book st st₂ where
  kept hl := h'.kept (h.kept hl)
  read hl := (h'.read hl).elim h.read .inr

/-- Of the memories only what they know of other DynaKubes matters. -/
theorem congr {st' st₁' : Memory} (h : Follows book st st₁) (hst : st'.peers = st.peers)
    (hst₁ : st₁'.peers = st₁.peers) : Follows book st' st₁' where
  kept hl := hst₁ ▸ h.kept (hst ▸ hl)
  read hl := hst ▸ h.read (hst₁ ▸ hl)

/-- A DynaKube that is not known yet may be read. -/
theorem remember (hl : st.peers.lookup name = none) (h : ReadIn book name found) :
    Follows book st { st with peers := (name, found) :: st.peers } where
  kept := by
    intro other known hknown
    rw [TextMap.lookup_cons_ite, if_neg]
    · exact hknown
    · rintro rfl
      cases hl.symm.trans hknown
  read := by
    intro other known hknown
    rw [TextMap.lookup_cons_ite] at hknown
    by_cases hother : other = name
    · subst hother
      rw [if_pos rfl] at hknown
      cases hknown
      exact .inr h
    · rw [if_neg hother] at hknown
      exact .inl hknown

/-- So it is later still, if it has come to be known in the meantime. -/
theorem catch_up (h : Follows book st st₁) (hl : st₁.peers.lookup name = some found) :
    Follows book { st with peers := (name, found) :: st.peers } st₁ where
  kept := by
    intro other known hknown
    rw [TextMap.lookup_cons_ite] at hknown
    by_cases hother : other = name
    · subst hother
      rw [if_pos rfl] at hknown
      cases hknown
      exact hl
    · rw [if_neg hother] at hknown
      exact h.kept hknown
  read := by
    intro other known hknown
    refine (h.read hknown).imp_left fun hfirst => ?_
    rw [TextMap.lookup_cons_ite]
    by_cases hother : other = name
    · subst hother
      rw [if_pos rfl, ← hl, hknown]
    · rwa [if_neg hother]

theorem remember_both (h : Follows book st st₁) :
    Follows book { st with peers := (name, found) :: st.peers } { st₁ with peers := (name, found) :: st₁.peers } := by
  refine ⟨fun {other known} hknown => ?_, fun {other known} hknown => ?_⟩ <;> rw [TextMap.lookup_cons_ite] at hknown ⊢
  · by_cases hother : other = name
    · rwa [if_pos hother] at hknown ⊢
    · rw [if_neg hother] at hknown ⊢
      exact h.kept hknown
  · by_cases hother : other = name
    · rw [if_pos hother] at hknown ⊢
      exact .inl hknown
    · rw [if_neg hother] at hknown ⊢
      exact h.read hknown

end Memory.Follows

namespace Attempt

variable {α σ : Type} {acts : List Act} {a : α} {st st₁ : σ}

theorem course_state_lift {x : Attempt α} :
    Course ((liftM x : StateT σ Attempt α).run st).run acts (.ok (a, st₁)) ↔ Course x.run acts (.ok a) ∧ st₁ = st := by
  change Course (x >>= fun a => (pure (a, st) : Attempt (α × σ))).run acts (.ok (a, st₁)) ↔ _
  rw [course_bind]
  constructor
  · rintro (⟨fault, hf, -⟩ | ⟨first, a', rest, rfl, h, hend⟩)
    · cases hf
    · obtain ⟨rfl, hr⟩ := course_pure.mp hend
      cases hr
      exact ⟨by simpa using h, rfl⟩
  · rintro ⟨h, rfl⟩
    exact .inr ⟨acts, a, [], (List.append_nil _).symm, h, .done _⟩

theorem course_return {x : Attempt α} {β : Type} {f : α → Attempt β} {b : β} (h : Course (x >>= f).run acts (.ok b)) :
    ∃ first a rest, acts = first ++ rest ∧ Course x.run first (.ok a) ∧ Course (f a).run rest (.ok b) := by
  rcases course_bind.mp h with ⟨fault, hf, -⟩ | hboth
  · cases hf
  · exact hboth

theorem course_state_return {x : StateT σ Attempt α} {β : Type} {f : α → StateT σ Attempt β} {b : β}
    (h : Course ((x >>= f).run st).run acts (.ok (b, st₁))) : ∃ first a st₂ rest, acts = first ++ rest ∧
      Course (x.run st).run first (.ok (a, st₂)) ∧ Course ((f a).run st₂).run rest (.ok (b, st₁)) := by
  rcases course_state_bind.mp h with ⟨fault, hf, -⟩ | hboth
  · cases hf
  · exact hboth

theorem course_state_forget_ok {x : StateT σ Attempt α} :
    Course (x.run' st).run acts (.ok a) ↔ ∃ st₁, Course (x.run st).run acts (.ok (a, st₁)) := by
  rw [course_state_forget]
  constructor
  · rintro ⟨fault | ⟨a', st₁⟩, h, hr⟩
    · cases hr
    · cases hr
      exact ⟨st₁, h⟩
  · rintro ⟨st₁, h⟩
    exact ⟨_, h, rfl⟩

end Attempt

/-- What a mapping did, but for one namespace. -/
def MappingResult.without (v : MappingResult) (space : String) : MappingResult where
  dynakube := v.dynakube
  accepted := v.accepted.filter (·.1 != space)
  reaffirmed := v.reaffirmed.filter (·.1 != space)
  released := v.released.filter (·.1 != space)

namespace Mapper

variable {α β : Type} {space : String} {book acts : List Act} {m : Mapper} {self : String}

/-- It comes to the same result with a memory of fewer DynaKubes. -/
def Again (space : String) (book : List Act) (x : Judging α) (st : Memory) (acts : List Act) (a : α) (st₁ : Memory) :
    Prop :=
  ∃ acts' st', Course (x.run st).run acts' (.ok (a, st')) ∧ Replays space book acts acts' ∧
    Memory.Follows book st' st₁ ∧ st'.decisions = st₁.decisions

/-- Whatever it learns is read, and it comes to the same result where less is known. -/
def Replayable (space : String) (book : List Act) (x : Judging α) : Prop :=
  ∀ st acts a st₁, acts ⊆ book → Course (x.run st).run acts (.ok (a, st₁)) → Memory.Follows book st st₁ ∧
    ∀ st', Memory.Follows book st' st → st'.decisions = st.decisions → Again space book x st' acts a st₁

namespace Replayable

theorem pure (a : α) : Replayable space book (pure a : Judging α) := by
  intro st acts a' st₁ _ h
  obtain ⟨rfl, hr⟩ := Attempt.course_state_pure.mp h
  cases hr
  exact ⟨.refl _, fun _ hst hdecisions => ⟨[], _, .done _, .refl (List.nil_subset _), hst, hdecisions⟩⟩

theorem throw (fault : Fault) : Replayable space book (throw fault : Judging α) := by
  intro st acts a st₁ _ h
  cases (Attempt.course_throw.mp h).2

theorem lift (x : Attempt α) : Replayable space book (liftM x : Judging α) := by
  intro st acts a st₁ hbook h
  obtain ⟨hx, rfl⟩ := Attempt.course_state_lift.mp h
  exact ⟨.refl _, fun _ hst hdecisions =>
    ⟨acts, _, Attempt.course_state_lift.mpr ⟨hx, rfl⟩, .refl hbook, hst, hdecisions⟩⟩

theorem session (s : Session α) : Replayable space book (liftM s : Judging α) := lift (liftM s)

theorem bind {x : Judging α} {f : α → Judging β} (hx : Replayable space book x)
    (hf : ∀ a, Replayable space book (f a)) : Replayable space book (x >>= f) := by
  intro st acts b st₂ hbook h
  obtain ⟨first, a, st₁, rest, rfl, hfirst, hrest⟩ := Attempt.course_state_return h
  obtain ⟨hfirst_book, hrest_book⟩ := List.append_subset.mp hbook
  obtain ⟨hlearns, hagain⟩ := hx _ _ _ _ hfirst_book hfirst
  obtain ⟨hlearns', hagain'⟩ := hf a _ _ _ _ hrest_book hrest
  refine ⟨hlearns.trans hlearns', fun _ hst hdecisions => ?_⟩
  obtain ⟨acts₁, st₁', hcourse₁, hreplays₁, hst₁, hdecisions₁⟩ := hagain _ hst hdecisions
  obtain ⟨acts₂, st₂', hcourse₂, hreplays₂, hst₂, hdecisions₂⟩ := hagain' _ hst₁ hdecisions₁
  exact ⟨acts₁ ++ acts₂, st₂', Attempt.course_state_bind.mpr (.inr ⟨acts₁, a, st₁', acts₂, rfl, hcourse₁, hcourse₂⟩),
    hreplays₁.append hreplays₂, hst₂, hdecisions₂⟩

/-- The decisions are the same. -/
theorem get_bind {f : List (Feature × Resolution) → Judging α} (hf : ∀ decisions, Replayable space book (f decisions)) :
    Replayable space book (do f (← get).decisions) := by
  intro st acts a st₁ hbook h
  obtain ⟨hlearns, hagain⟩ := hf st.decisions _ _ _ _ hbook h
  refine ⟨hlearns, fun st' hst hdecisions => ?_⟩
  obtain ⟨acts', st₁', hcourse, hrest⟩ := hagain _ hst hdecisions
  rw [← hdecisions] at hcourse
  exact ⟨acts', st₁', hcourse, hrest⟩

theorem decide (f : Feature) (r : Resolution) : Replayable space book (modify (·.decide f r) : Judging Unit) := by
  intro st acts a st₁ _ h
  obtain ⟨rfl, hr⟩ := Attempt.course_pure.mp h
  cases hr
  refine ⟨(Memory.Follows.refl st).congr rfl rfl, fun st' hst hdecisions => ?_⟩
  refine ⟨[], st'.decide f r, .done _, .refl (List.nil_subset _), hst.congr rfl rfl, ?_⟩
  simp only [Memory.decide, hdecisions]

end Replayable

theorem peer_run_known {st : Memory} {name : String} {found : Option DynaKube}
    (hl : st.peers.lookup name = some found) : (peer name).run st = (pure (found, st) : Attempt _) := by
  rw [peer]
  simp only [StateT.run_bind, StateT.run_get, pure_bind, hl, StateT.run_pure]

theorem peer_run_unknown {st : Memory} {name : String} (hl : st.peers.lookup name = none) : (peer name).run st = (do
    let found ← DynaKubes.get? (.text name)
    return (found, { st with peers := (name, found) :: st.peers }) : Attempt _) := by
  rw [peer]
  simp only [StateT.run_bind, StateT.run_get, pure_bind, hl]
  exact bind_assoc (DynaKubes.get? (.text name)) _ _

/-- A DynaKube that is not known is read. -/
theorem peer_course {st st₁ : Memory} {name : String} {found : Option DynaKube} (hl : st.peers.lookup name = none) :
    Course ((peer name).run st).run acts (.ok (found, st₁)) ↔
      Course (DynaKubes.get? (.text name)).run acts (.ok found) ∧
        st₁ = { st with peers := (name, found) :: st.peers } := by
  rw [peer_run_unknown hl, Attempt.course_bind]
  constructor
  · rintro (⟨fault, hf, -⟩ | ⟨first, _, rest, rfl, h, hend⟩)
    · cases hf
    · obtain ⟨rfl, hr⟩ := Attempt.course_pure.mp hend
      cases hr
      exact ⟨by simpa using h, rfl⟩
  · rintro ⟨h, rfl⟩
    exact .inr ⟨acts, found, [], (List.append_nil _).symm, h, .done _⟩

/-- What is read where it was known before was read then. -/
theorem peer_replayable (name : String) : Replayable space book (peer name) := by
  intro st acts found st₁ hbook h
  cases hl : st.peers.lookup name with
  | none =>
    obtain ⟨hread, rfl⟩ := (peer_course hl).mp h
    refine ⟨.remember hl ⟨acts, hbook, hread⟩, fun st' hst hdecisions => ?_⟩
    have hl' : st'.peers.lookup name = none := Option.eq_none_iff_forall_ne_some.mpr fun known hknown => by
      cases hl.symm.trans (hst.kept hknown)
    exact ⟨acts, _, (peer_course hl').mpr ⟨hread, rfl⟩, .refl hbook, hst.remember_both, hdecisions⟩
  | some known =>
    rw [peer_run_known hl] at h
    obtain ⟨rfl, hr⟩ := Attempt.course_pure.mp h
    cases hr
    refine ⟨.refl _, fun st' hst hdecisions => ?_⟩
    cases hl' : st'.peers.lookup name with
    | some known' =>
      cases hl.symm.trans (hst.kept hl')
      exact ⟨[], st', by rw [peer_run_known hl']; exact .done _, .refl (List.nil_subset _), hst, hdecisions⟩
    | none =>
      obtain ⟨acts', hbook', hread⟩ := (hst.read hl).resolve_left (by rw [hl']; nofun)
      refine ⟨acts', _, (peer_course hl').mpr ⟨hread, rfl⟩, .inserted ?_ hbook', hst.catch_up hl, hdecisions⟩
      refine hread.elsewhere_eq_nil (DynaKubes.get?_within _) ?_
      rintro _ answer ⟨other, rfl⟩
      rfl

theorem liveOwner_replayable (owner : Option String) (f : Feature) (place : String) (labels : Labels) :
    Replayable space book (m.liveOwner self owner f place labels) := by
  cases owner with
  | none => exact .pure _
  | some other =>
    unfold liveOwner
    by_cases hself : other = self
    · simp only [hself, if_true]
      exact .pure _
    simp only [hself, if_false]
    refine .bind (peer_replayable other) fun found => ?_
    cases found with
    | none => exact .pure _
    | some d =>
      dsimp only
      cases d.enables f with
      | false => exact .pure _
      | true =>
        cases m.holdsOn (d.selectorFor f) place labels with
        | ok live => exact .pure _
        | error fault => exact .throw _

theorem judge_replayable (place : String) (f : Feature) (owner : Option String) (labels : Labels) :
    Replayable space book (m.judge self place f owner labels) := by
  refine .bind (liveOwner_replayable owner f place labels) fun live => ?_
  by_cases hconflict : resolve live self = .conflict
  · simp only [hconflict, if_true]
    exact .bind (.session _) fun _ => .throw _
  · simp only [hconflict, if_false]
    cases owner with
    | none => exact .decide f _
    | some stale =>
      cases live with
      | none => exact .bind (.session _) fun _ => .decide f _
      | some other => exact .decide f _

theorem consult_replayable (place : String) (labels : Labels) (features : List Feature) :
    Replayable space book (Ledger.consult (m.judge self place) labels features) := by
  induction features with
  | nil => exact .pure _
  | cons f rest ih =>
    exact .bind (.bind (.session _) fun _ => judge_replayable place f _ labels) fun _ => ih

theorem modify_replayable {l : Ledger} {place operation : String} {deadline : Option Int}
    {change : Ledger.Change Memory} (hchange : ∀ labels annotations, Replayable space book (change labels annotations))
    (left : Nat) : Replayable space book (l.modify place operation deadline change left) := by
  induction left with
  | zero => exact .bind (.session _) fun _ => .throw _
  | succ left ih =>
    rw [Ledger.modify]
    refine .bind (.lift _) fun _ => .bind (.lift _) fun got => ?_
    cases got with
    | error fault =>
      cases fault with
      | namespaceMissing name => exact .bind (.session _) fun _ => .pure _
      | _ => exact .throw _
    | ok record =>
      refine .bind (hchange _ _) fun new => ?_
      by_cases hsame : Ledger.unchanged record new
      · rw [if_pos hsame]
        exact .pure _
      rw [if_neg hsame]
      refine .bind (.lift _) fun sent => ?_
      cases sent with
      | ok record => exact .pure _
      | error fault =>
        cases fault with
        | versionConflict name expected => exact .bind (.session _) fun _ => .bind (.session _) fun _ => ih
        | namespaceMissing name => exact .bind (.session _) fun _ => .pure _
        | _ => exact .throw _

/-- A claim comes to the same result wherever less is known. -/
theorem claimOne_replayed {deadline : Option Int} {place : String} {features : List Feature}
    {w : List Feature × List Feature} {st st₁ : Memory} (hbook : acts ⊆ book)
    (h : Course ((m.claimOne self deadline place features).run st).run acts (.ok (w, st₁))) :
    Memory.Follows book st st₁ ∧ ∀ {st'}, Memory.Follows book st' st →
      Again space book (m.claimOne self deadline place features) st' acts w st₁ := by
  have hrest : Replayable space book (do
      let written ← m.ledger.write place features self (some (m.judge self place)) deadline
      settle self place written (← get).decisions : Judging (List Feature × List Feature)) := by
    refine .bind (modify_replayable (fun labels annotations => ?_) _) fun written => .get_bind fun _ => .session _
    exact .bind (consult_replayable place labels features) fun _ => .pure _
  obtain ⟨hlearns, hagain⟩ := hrest _ _ _ _ hbook h
  exact ⟨hlearns.congr rfl rfl, fun hst => hagain _ (hst.congr rfl rfl) rfl⟩

theorem elsewhere_of_asks {request : Request} (h : Ledger.Asks space request) (answer : request.Answer) :
    Act.elsewhere space (.asked request answer) = false := by
  cases h with
  | clock => rfl
  | read => exact bne_self_eq_false space
  | patch => exact bne_self_eq_false space

theorem checkDeadline_elsewhere {deadline : Option Int} {operation : String} {r : Except Fault Unit}
    (h : Course (Ledger.checkDeadline deadline operation).run acts r) : acts.filter (Act.elsewhere space) = [] := by
  refine h.elsewhere_eq_nil (Ledger.checkDeadline_within deadline operation) ?_
  rintro _ answer rfl
  rfl

theorem remove_elsewhere {deadline : Option Int} {f : Feature} {owner : Option String} {r : Except Fault Bool}
    (h : Course (m.ledger.remove space f owner deadline).run acts r) : acts.filter (Act.elsewhere space) = [] :=
  h.elsewhere_eq_nil (remove_asks m deadline space f owner) fun _ answer hasks => elsewhere_of_asks hasks answer

theorem claimOne_elsewhere {deadline : Option Int} {features : List Feature} {st : Memory}
    {r : Except Fault ((List Feature × List Feature) × Memory)}
    (h : Course ((m.claimOne self deadline space features).run st).run acts r) :
    acts.filter (Act.elsewhere space) = [] := by
  refine h.elsewhere_eq_nil (claimOne_asks m deadline self space features st) ?_
  rintro _ answer (hasks | ⟨name, rfl⟩)
  · exact elsewhere_of_asks hasks answer
  · rfl

variable (space) in
/-- The claims without those on one namespace are made in the same way. -/
theorem claimAll_without {deadline : Option Int} {claims : List (String × List Feature)}
    {w : List Claim × List Claim} {st st' st₁ : Memory} (hbook : acts ⊆ book) (hst : Memory.Follows book st' st)
    (h : Course ((m.claimAll self deadline claims).run st).run acts (.ok (w, st₁))) :
    ∃ acts' st₁', Course ((m.claimAll self deadline (claims.filter (·.1 != space))).run st').run acts'
        (.ok ((w.1.filter (·.1 != space), w.2.filter (·.1 != space)), st₁')) ∧ Replays space book acts acts' := by
  induction claims generalizing acts st st' w with
  | nil =>
    obtain ⟨rfl, hr⟩ := Attempt.course_state_pure.mp h
    cases hr
    exact ⟨[], st', .done _, .refl (List.nil_subset _)⟩
  | cons entry rest ih =>
    obtain ⟨place, features⟩ := entry
    obtain ⟨check, _, st₀, _, rfl, hcheck, hone⟩ := Attempt.course_state_return h
    obtain ⟨hchecked, rfl⟩ := Attempt.course_state_lift.mp hcheck
    obtain ⟨own, ⟨accepted, reaffirmed⟩, st₂, _, rfl, hclaim, hothers⟩ := Attempt.course_state_return hone
    obtain ⟨later, ⟨accepted', reaffirmed'⟩, st₃, _, rfl, hlater, hend⟩ := Attempt.course_state_return hothers
    obtain ⟨rfl, hr⟩ := Attempt.course_state_pure.mp hend
    cases hr
    rw [List.append_nil] at hbook ⊢
    obtain ⟨hcheck_book, hbook⟩ := List.append_subset.mp hbook
    obtain ⟨hown_book, hlater_book⟩ := List.append_subset.mp hbook
    obtain ⟨hlearns, hagain⟩ := claimOne_replayed hown_book hclaim
    have hplaced (features : List Feature) : (features.map (place, ·)).filter (·.1 != space) =
        if place = space then [] else features.map (place, ·) := by
      by_cases hplace : place = space <;> simp [hplace]
    simp only [List.filter_append, hplaced]
    by_cases hplace : place = space
    · subst hplace
      obtain ⟨acts', st₁', hcourse, hreplays⟩ := ih hlater_book (hst.trans hlearns) hlater
      rw [List.filter_cons_of_neg (by simp), if_pos rfl, if_pos rfl]
      exact ⟨acts', st₁', hcourse, (Replays.omitted (checkDeadline_elsewhere hchecked)).append
        ((Replays.omitted (claimOne_elsewhere hclaim)).append hreplays)⟩
    · obtain ⟨own', st₂', hclaim', hreplays, hst₂, -⟩ := hagain hst
      obtain ⟨acts', st₁', hcourse, hreplays'⟩ := ih hlater_book hst₂ hlater
      rw [List.filter_cons_of_pos (by simp [hplace]), if_neg hplace, if_neg hplace]
      refine ⟨check ++ (own' ++ acts'), st₁', ?_, (Replays.refl hcheck_book).append (hreplays.append hreplays')⟩
      refine Attempt.course_state_bind.mpr (.inr
        ⟨check, (), st', own' ++ acts', rfl, Attempt.course_state_lift.mpr ⟨hchecked, rfl⟩, ?_⟩)
      refine Attempt.course_state_bind.mpr (.inr ⟨own', _, st₂', acts', rfl, hclaim', ?_⟩)
      exact Attempt.course_state_bind.mpr (.inr ⟨acts', _, st₁', [], (List.append_nil _).symm, hcourse, .done _⟩)

/-- What one release after another comes to: the deadline has not passed, the claim is dropped or not, which is noted, and
the others follow. -/
theorem releaseAll_course {owner operation : String} {deadline : Option Int} {noted : Claim → Session Unit}
    {claim : Claim} {rest dropped : List Claim} :
    Course (m.releaseAll owner operation deadline noted (claim :: rest)).run acts (.ok dropped) ↔
      ∃ check own notes later removed dropped', acts = check ++ (own ++ (notes ++ later)) ∧
        Course (Ledger.checkDeadline deadline operation).run check (.ok ()) ∧
        Course (m.ledger.remove claim.1 claim.2 (some owner) deadline).run own (.ok removed) ∧
        Course (if removed then noted claim else .done ()) notes () ∧
        Course (m.releaseAll owner operation deadline noted rest).run later (.ok dropped') ∧
        dropped = if removed then claim :: dropped' else dropped' := by
  rw [releaseAll]
  constructor
  · intro h
    obtain ⟨check, _, _, rfl, hcheck, hone⟩ := Attempt.course_return h
    obtain ⟨own, removed, _, rfl, hremove, hothers⟩ := Attempt.course_return hone
    cases removed with
    | false => exact ⟨check, own, [], _, false, _, rfl, hcheck, hremove, .done (), hothers, rfl⟩
    | true =>
      obtain ⟨notes, _, _, rfl, hnote, hlater⟩ := Attempt.course_lift_bind.mp hothers
      obtain ⟨later, dropped', _, rfl, hall, hend⟩ := Attempt.course_return hlater
      obtain ⟨rfl, hr⟩ := Attempt.course_pure.mp hend
      cases hr
      rw [List.append_nil]
      exact ⟨check, own, notes, later, true, dropped', rfl, hcheck, hremove, hnote, hall, rfl⟩
  · rintro ⟨check, own, notes, later, removed, dropped', rfl, hcheck, hremove, hnote, hlater, rfl⟩
    refine Attempt.course_bind.mpr (.inr ⟨check, (), _, rfl, hcheck, ?_⟩)
    refine Attempt.course_bind.mpr (.inr ⟨own, removed, _, rfl, hremove, ?_⟩)
    cases removed with
    | false =>
      obtain ⟨rfl, -⟩ := Session.course_done.mp hnote
      exact hlater
    | true =>
      refine Attempt.course_lift_bind.mpr ⟨notes, (), _, rfl, hnote, ?_⟩
      exact Attempt.course_bind.mpr (.inr ⟨later, dropped', [], (List.append_nil _).symm, hlater, .done _⟩)

variable (space) in
/-- The releases without those on one namespace are made in the same way. -/
theorem releaseAll_without {owner operation : String} {deadline : Option Int} {noted : Claim → Session Unit}
    (hnoted : ∀ claim, (noted claim).Within fun _ => False) {stale dropped : List Claim} (hbook : acts ⊆ book)
    (h : Course (m.releaseAll owner operation deadline noted stale).run acts (.ok dropped)) :
    ∃ acts', Course (m.releaseAll owner operation deadline noted (stale.filter (·.1 != space))).run acts'
        (.ok (dropped.filter (·.1 != space))) ∧ Replays space book acts acts' := by
  induction stale generalizing acts dropped with
  | nil =>
    obtain ⟨rfl, hr⟩ := Attempt.course_pure.mp h
    cases hr
    exact ⟨[], .done _, .refl (List.nil_subset _)⟩
  | cons claim rest ih =>
    obtain ⟨check, own, notes, later, removed, dropped', rfl, hcheck, hremove, hnote, hlater, rfl⟩ :=
      releaseAll_course.mp h
    obtain ⟨hcheck_book, hrest_book⟩ := List.append_subset.mp hbook
    obtain ⟨hown_book, hrest_book⟩ := List.append_subset.mp hrest_book
    obtain ⟨hnotes_book, hlater_book⟩ := List.append_subset.mp hrest_book
    obtain ⟨acts', hcourse, hreplays⟩ := ih hlater_book hlater
    by_cases hplace : claim.1 = space
    · rw [List.filter_cons_of_neg (by simp [hplace])]
      have hdropped : (if removed then claim :: dropped' else dropped').filter (·.1 != space) =
          dropped'.filter (·.1 != space) := by
        cases removed <;> simp [hplace]
      have hremoved : own.filter (Act.elsewhere space) = [] := remove_elsewhere (hplace ▸ hremove)
      have hquiet : (if removed then noted claim else .done ()).Within fun _ => False := by
        cases removed with
        | false => trivial
        | true => exact hnoted claim
      have hnotes : notes.filter (Act.elsewhere space) = [] := hnote.elsewhere_eq_nil hquiet fun _ _ => False.elim
      rw [hdropped]
      exact ⟨acts', hcourse, (Replays.omitted (checkDeadline_elsewhere hcheck)).append
        ((Replays.omitted hremoved).append ((Replays.omitted hnotes).append hreplays))⟩
    · rw [List.filter_cons_of_pos (by simp [hplace])]
      have hdropped : (if removed then claim :: dropped' else dropped').filter (·.1 != space) =
          if removed then claim :: dropped'.filter (·.1 != space) else dropped'.filter (·.1 != space) := by
        cases removed <;> simp [hplace]
      rw [hdropped]
      exact ⟨_, releaseAll_course.mpr ⟨check, own, notes, acts', removed, _, rfl, hcheck, hremove, hnote, hcourse, rfl⟩,
        (Replays.refl hcheck_book).append ((Replays.refl hown_book).append ((Replays.refl hnotes_book).append hreplays))⟩

/-- What a mapping does once it has made its plan: releases, claims, and a note. -/
def relabel (m : Mapper) (d : DynaKube) (deadline : Option Int) (stale : List Claim)
    (claims : List (String × List Feature)) : Attempt MappingResult := do
  let released ← m.releaseAll d.name s!"mapping dynakube {d.name}" deadline (noteStale d.name) stale
  let (accepted, reaffirmed) ← (m.claimAll d.name deadline claims).run' ⟨[], []⟩
  let result : MappingResult := ⟨.text d.name, accepted, reaffirmed, released⟩
  Session.info (s!"Mapped dynakube {d.name}: " ++ result.summary)
  return result

/-- A mapping that returns was shown the namespaces and has read all its selectors. -/
theorem map_runs_relabel {i : Interference} {c c' : Cluster} {tr : List Event} {d : DynaKube} {deadline : Option Int}
    {v : MappingResult} (h : Runs i (m.map d deadline).run c tr (.ok v) c') :
    ∃ objects wanted c₁ tr₁, tr = .asked (.call c₁ (.listNamespaces none) (.ok objects) c₁) :: tr₁ ∧
      c₁.Lists objects ∧ m.candidates d (Namespaces.records objects) = .ok wanted ∧
      Runs i (m.relabel d deadline (staleClaims d.name wanted (Namespaces.records objects))
        (claimsByNamespace wanted)).run c₁ tr₁ (.ok v) c' := by
  rcases Attempt.runs_bind.mp h with ⟨_, hf, -⟩ | ⟨_, records, c₁, _, rfl, hlist, hrest⟩
  · cases hf
  rcases list_runs hlist with ⟨_, _, -, hf, -⟩ | ⟨objects, -, hlists, hr, rfl⟩
  · cases hf
  cases hr
  rcases Attempt.runs_bind.mp hrest with ⟨_, hf, -⟩ | ⟨_, wanted, _, tr₁, rfl, hread, hrelabel⟩
  · cases hf
  obtain ⟨rfl, hwanted, rfl⟩ := Attempt.runs_except.mp hread
  exact ⟨objects, wanted, _, tr₁, rfl, hlists, hwanted.symm, hrelabel⟩

theorem relabel_course {d : DynaKube} {deadline : Option Int} {stale : List Claim} {claims : List (String × List Feature)}
    {v : MappingResult} : Course (m.relabel d deadline stale claims).run acts (.ok v) ↔
      ∃ releases made st, acts = releases ++ (made ++
          [.told (.log .info (s!"Mapped dynakube {d.name}: " ++ v.summary))]) ∧ v.dynakube = .text d.name ∧
        Course (m.releaseAll d.name s!"mapping dynakube {d.name}" deadline (noteStale d.name) stale).run releases
          (.ok v.released) ∧
        Course ((m.claimAll d.name deadline claims).run ⟨[], []⟩).run made (.ok ((v.accepted, v.reaffirmed), st)) := by
  constructor
  · intro h
    obtain ⟨releases, released, _, rfl, hrelease, hclaims⟩ := Attempt.course_return h
    obtain ⟨made, ⟨accepted, reaffirmed⟩, _, rfl, hclaim, hnote⟩ := Attempt.course_return hclaims
    obtain ⟨st, hclaim⟩ := Attempt.course_state_forget_ok.mp hclaim
    obtain ⟨note, _, _, rfl, hnoted, hend⟩ := Attempt.course_lift_bind.mp hnote
    obtain ⟨rfl, hr⟩ := Attempt.course_pure.mp hend
    cases hr
    obtain rfl := Session.course_note.mp hnoted
    exact ⟨releases, made, st, rfl, rfl, hrelease, hclaim⟩
  · obtain ⟨dynakube, accepted, reaffirmed, released⟩ := v
    rintro ⟨releases, made, st, rfl, rfl, hrelease, hclaim⟩
    refine Attempt.course_bind.mpr (.inr ⟨releases, released, _, rfl, hrelease, ?_⟩)
    refine Attempt.course_bind.mpr
      (.inr ⟨made, (accepted, reaffirmed), _, rfl, Attempt.course_state_forget_ok.mpr ⟨st, hclaim⟩, ?_⟩)
    exact Attempt.course_lift_bind.mpr ⟨_, (), [], (List.append_nil _).symm, Session.course_note.mpr rfl, .done _⟩

/-- Where a mapping that returned was given a listing, another one is given the listing without a namespace and all the
answers besides, asks for the other namespaces in the same way, and comes to the same result for them. -/
structure Unlisted (m : Mapper) (d : DynaKube) (deadline : Option Int) (space : String) (acts : List Act)
    (v : MappingResult) (objects : List (Option NamespaceObject)) (acts' : List Act) : Prop where
  listed : .asked (.api (.listNamespaces none)) (.ok objects) ∈ acts
  course : Course (m.map d deadline).run acts' (.ok (v.without space))
  unlisted : .asked (.api (.listNamespaces none)) (.ok (Namespaces.without space objects)) ∈ acts'
  elsewhere : acts'.filter (Act.elsewhere space) = acts.filter (Act.elsewhere space)
  answered : ∀ {request answer}, .asked request answer ∈ acts' →
    request = .api (.listNamespaces none) ∨ .asked request answer ∈ acts

/-- Whatever becomes of a namespace in a mapping that returns, the others are dealt with as if it had not been listed. -/
theorem map_without {i : Interference} {c c' : Cluster} {tr : List Event} {d : DynaKube} {deadline : Option Int}
    {v : MappingResult} (h : Runs i (m.map d deadline).run c tr (.ok v) c') (space : String) :
    ∃ objects acts', m.Unlisted d deadline space (tr.map Event.act) v objects acts' := by
  obtain ⟨objects, wanted, c₁, tr₁, rfl, hlists, hwanted, hrelabel⟩ := map_runs_relabel h
  obtain ⟨releases, made, st, hacts, hname, hrelease, hclaim⟩ := relabel_course.mp hrelabel.course
  obtain ⟨hreleases_book, hrest_book⟩ := List.append_subset.mp (hacts ▸ List.Subset.refl (tr₁.map Event.act))
  obtain ⟨hmade_book, -⟩ := List.append_subset.mp hrest_book
  obtain ⟨releases', hrelease', hreplays⟩ :=
    releaseAll_without space (noteStale_within d.name) hreleases_book hrelease
  obtain ⟨made', st', hclaim', hreplays'⟩ := claimAll_without space hmade_book (.refl _) hclaim
  rw [← staleClaims_without (records_sorted hlists) hwanted, ← records_without hlists] at hrelease'
  rw [← claimsByNamespace_without] at hclaim'
  have hread' := candidates_without space hwanted
  rw [← records_without hlists] at hread'
  have hlater : Course (m.relabel d deadline _ _).run _ (.ok (v.without space)) :=
    relabel_course.mpr ⟨releases', made', st', rfl, hname, hrelease', hclaim'⟩
  have hreplayed := hreplays.append (hreplays'.append (.note
    (.log .info (s!"Mapped dynakube {d.name}: " ++ v.summary))
    (.log .info (s!"Mapped dynakube {d.name}: " ++ (v.without space).summary))))
  rw [← hacts] at hreplayed
  refine ⟨objects, .asked (.api (.listNamespaces none)) (.ok (Namespaces.without space objects)) :: _,
    List.mem_cons_self, ?_, List.mem_cons_self, hreplayed.elsewhere, fun {request answer} hmem => ?_⟩
  · refine Attempt.course_bind.mpr (.inr ⟨[_], _, _, rfl, .ask (.done _), ?_⟩)
    exact Attempt.course_bind.mpr (.inr ⟨[], _, _, rfl, Attempt.course_except.mpr ⟨rfl, hread'.symm⟩, hlater⟩)
  · rcases List.mem_cons.mp hmem with heq | hmem
    · cases heq
      exact .inl rfl
    · exact .inr (List.mem_cons_of_mem _ (hreplayed.answered hmem))

end Mapper
end NamespaceOwnership
