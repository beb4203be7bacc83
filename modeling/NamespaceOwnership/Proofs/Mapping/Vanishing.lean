import NamespaceOwnership.Proofs.Ledger.Readings
import NamespaceOwnership.Proofs.Mapping.Bystanders
import NamespaceOwnership.Proofs.Mapping.Tally

/-!
# Mapping onto a namespace that is missing

When a namespace is found missing while it is claimed, nothing is written, nothing is accepted there, and the others are
dealt with as if it had not been listed (`Mapper.map_skips_missing`). What its last reading had shown is still reported,
however: a feature that was the DynaKube's own there is reaffirmed, and counted so.
-/
namespace NamespaceOwnership

open Session (Runs)

/-- The namespace was last shown with this owner of the feature. -/
def shownOwned (owner space : String) (acts : List Act) (f : Feature) : Bool :=
  ((lastShown space acts).bind fun record => Labels.owner? record.labels f) == some owner

namespace Mapper

open Ledger

variable {i : Interference} {c c' : Cluster} {tr : List Event} {m : Mapper} {self space : String}
  {features : List Feature} {deadline : Option Int} {st st' : Memory} {r : List Feature × List Feature}

theorem guarded_aside (labels : Labels) (annotations : Annotations) (st : Memory) :
    ((guarded m self space features labels annotations).run st).run.Within Request.Aside :=
  (guarded_within labels annotations st).mono fun _ ⟨_, hname⟩ => hname ▸ trivial

/-- After the update of a claim, a feature stands decided as the DynaKube's own if it was last shown so. -/
theorem write_decides {written : Bool}
    (h : Runs i ((m.ledger.write space features self (some (m.judge self space)) deadline).run
      { st with decisions := [] }).run c tr (.ok (written, st')) c') (f : Feature) :
    st'.decided true f = if f ∈ features ∧ shownOwned self space (tr.map Event.act) f then 1 else 0 := by
  have hrecent : Recent i space (guarded m self space features) _ (tr.map Event.act) st' :=
    modify_recent guarded_aside h
  have hconfined : ∀ f, f ∉ features → st'.decided true f = 0 :=
    modify_keeps (fun _ _ _ _ _ _ _ _ hst hrun => guarded_decides hst hrun) h fun _ _ => rfl
  by_cases hf : f ∈ features
  · simp only [hf, true_and]
    cases hrecent with
    | unread unseen => simp [shownOwned, unseen, Memory.decided]
    | read shown changed =>
      obtain ⟨v, hconsult, hv⟩ := claim_runs changed
      cases v with
      | error fault => cases hv
      | ok p =>
        cases hv
        rw [consulted_decides (consult_runs hconsult), if_pos hf]
        simp [shownOwned, shown]
  · simp [hf, hconfined f hf]

/-- What a claim returns is counted, and reaffirmed is what was last shown as the DynaKube's own. -/
theorem claimOne_counts (h : Runs i ((m.claimOne self deadline space features).run st).run c tr (.ok (r, st')) c')
    (f : Feature) : counted (.claims f .accepted) (tr.map Event.act) = r.1.count f ∧
      counted (.claims f .reaffirmed) (tr.map Event.act) = r.2.count f ∧
      r.2.count f = if f ∈ features ∧ shownOwned self space (tr.map Event.act) f then 1 else 0 := by
  rcases claimOne_runs h with ⟨_, hf, -⟩ | ⟨tr₁, written, st₁, tr₂, v, rfl, hr, hwrite, hsettle⟩
  · cases hf
  cases hr
  obtain ⟨hunclaimed, -⟩ := write_tally judge_discreet hwrite
  have hconcluded := settle_runs hsettle
  have hnotes : Unseen space (tr₂.map Event.act) :=
    hsettle.unseen ((settle_within self space written st'.decisions).mono fun _ => False.elim) space
  have hshown : shownOwned self space ((tr₁ ++ tr₂).map Event.act) f = shownOwned self space (tr₁.map Event.act) f := by
    rw [shownOwned, List.map_append, lastShown_append, hnotes.shown, Option.none_or, shownOwned]
  simp only [List.map_append, counted_append, hunclaimed.claims, Nat.zero_add]
  refine ⟨(hconcluded.counted f).1, (hconcluded.counted f).2, ?_⟩
  rw [← List.map_append, hshown, ← write_decides hwrite]
  exact hconcluded.reaffirmed f

/-- A claim that misses its namespace accepts nothing and writes nothing. -/
theorem claimOne_missing (h : Runs i ((m.claimOne self deadline space features).run st).run c tr (.ok (r, st')) c')
    (hmiss : (tr.map Event.act).any (Act.misses space) = true) : accepted tr = [] ∧ r.1 = [] := by
  rcases claimOne_runs h with ⟨_, hf, -⟩ | ⟨tr₁, written, st₁, tr₂, v, rfl, hr, hwrite, hsettle⟩
  · cases hf
  cases hr
  have hquiet := settle_within self space written st'.decisions
  have hnotes : Unseen space (tr₂.map Event.act) := hsettle.unseen (hquiet.mono fun _ => False.elim) space
  rw [List.map_append, List.any_append, hnotes.found, Bool.or_false] at hmiss
  obtain ⟨_, hwritten⟩ := modify_missing guarded_aside hwrite hmiss
  cases hwritten
  obtain ⟨-, hnone⟩ := write_tally judge_discreet hwrite
  rw [accepted_append, hnone, (hsettle.onlyNotes hquiet).1.accepted_eq]
  exact ⟨rfl, (settle_runs hsettle).accepted_eq_nil⟩

/-- The stretch of a mapping in which it claims the features of one namespace, and what that came to. -/
structure Portion where
  space : String
  features : List Feature
  own : List Event
  accepted : List Feature
  reaffirmed : List Feature

/-- The namespace was answered with status 404 in the stretch. -/
def Portion.Missing (p : Portion) : Prop := (p.own.map Event.act).any (Act.misses p.space) = true

/-- The namespaces are claimed one after another, and the deadline is looked at before each. -/
inductive Portioned (i : Interference) (m : Mapper) (self : String) (deadline : Option Int) :
    Memory → Cluster → List Portion → List Event → Prop where
  | nil (st : Memory) (c : Cluster) : Portioned i m self deadline st c [] []
  | cons {st st₁ : Memory} {c c₁ c₂ : Cluster} {check tr : List Event} {p : Portion} {rest : List Portion}
      (checked : Runs i (checkDeadline deadline s!"mapping dynakube {self}").run c check (.ok ()) c₁)
      (claimed : Runs i ((m.claimOne self deadline p.space p.features).run st).run c₁ p.own
        (.ok ((p.accepted, p.reaffirmed), st₁)) c₂)
      (later : Portioned i m self deadline st₁ c₂ rest tr) :
      Portioned i m self deadline st c (p :: rest) (check ++ (p.own ++ tr))

theorem Portioned.claimed {ps : List Portion} (h : Portioned i m self deadline st c ps tr) {p : Portion} (hp : p ∈ ps) :
    ∃ st c st' c', Runs i ((m.claimOne self deadline p.space p.features).run st).run c p.own
      (.ok ((p.accepted, p.reaffirmed), st')) c' := by
  induction h with
  | nil => cases hp
  | cons _ claimed _ ih =>
    rcases List.mem_cons.mp hp with rfl | hp
    · exact ⟨_, _, _, _, claimed⟩
    · exact ih hp

theorem claimAll_portioned {claims : List (String × List Feature)} {w : List Claim × List Claim}
    (h : Runs i ((m.claimAll self deadline claims).run st).run c tr (.ok (w, st')) c') :
    ∃ ps, Portioned i m self deadline st c ps tr ∧ ps.map (fun p => (p.space, p.features)) = claims ∧
      w.1 = ps.flatMap (fun p => p.accepted.map (p.space, ·)) ∧
      w.2 = ps.flatMap (fun p => p.reaffirmed.map (p.space, ·)) := by
  induction claims generalizing c c' tr st w with
  | nil =>
    obtain ⟨rfl, hr, -⟩ := Attempt.runs_state_pure.mp h
    cases hr
    exact ⟨[], .nil _ c, rfl, rfl, rfl⟩
  | cons entry rest ih =>
    obtain ⟨space, features⟩ := entry
    rcases claimAll_cons_runs h with ⟨_, hf, -⟩ | ⟨check, c₁, _, rfl, hcheck, hone⟩
    · cases hf
    rcases hone with ⟨_, hf, -⟩ | ⟨own, ⟨accepted, reaffirmed⟩, st₁, c₂, later, r', rfl, hclaim, hlater, hr⟩
    · cases hf
    cases r' with
    | error fault => cases hr
    | ok w' =>
      cases hr
      obtain ⟨ps, hportioned, hplan, haccepted, hreaffirmed⟩ := ih hlater
      refine ⟨⟨space, features, own, accepted, reaffirmed⟩ :: ps, .cons hcheck hclaim hportioned, ?_, ?_, ?_⟩
      · rw [List.map_cons, hplan]
      · rw [List.flatMap_cons, ← haccepted]
      · rw [List.flatMap_cons, ← hreaffirmed]

/-- A mapping that returned, taken apart: it lists the namespaces, drops the stale claims, claims one namespace after
another, and says so. -/
inductive Itinerary (i : Interference) (m : Mapper) (d : DynaKube) (deadline : Option Int) (v : MappingResult)
    (ps : List Portion) : List Event → Prop where
  | intro {objects : List (Option NamespaceObject)} {wanted : List (Feature × List String)} {c₁ c₂ : Cluster}
      {releases made : List Event}
      (read : m.candidates d (Namespaces.records objects) = .ok wanted)
      (planned : ps.map (fun p => (p.space, p.features)) = claimsByNamespace wanted)
      (released : Runs i (m.releaseAll d.name s!"mapping dynakube {d.name}" deadline (noteStale d.name)
        (staleClaims d.name wanted (Namespaces.records objects))).run c₁ releases (.ok v.released) c₂)
      (claimed : Portioned i m d.name deadline ⟨[], []⟩ c₂ ps made)
      (accepted : v.accepted = ps.flatMap fun p => p.accepted.map (p.space, ·))
      (reaffirmed : v.reaffirmed = ps.flatMap fun p => p.reaffirmed.map (p.space, ·)) :
      Itinerary i m d deadline v ps (.asked (.call c₁ (.listNamespaces none) (.ok objects) c₁) ::
        (releases ++ (made ++ [.told (.log .info (s!"Mapped dynakube {d.name}: " ++ v.summary))])))

theorem map_itinerary {d : DynaKube} {v : MappingResult} (h : Runs i (m.map d deadline).run c tr (.ok v) c') :
    ∃ ps, m.Itinerary i d deadline v ps tr := by
  obtain ⟨objects, wanted, c₁, tr₁, rfl, -, hwanted, hrelabel⟩ := map_runs_relabel h
  rcases Attempt.runs_bind.mp hrelabel with ⟨_, hf, -⟩ | ⟨releases, released, c₃, tr₄, rfl, hrelease, hclaims⟩
  · cases hf
  rcases Attempt.runs_bind.mp hclaims with ⟨_, hf, -⟩ | ⟨made, ⟨accepted, reaffirmed⟩, c₄, tr₅, rfl, hclaim, hnote⟩
  · cases hf
  obtain ⟨tr₆, _, c₅, tr₇, rfl, hnoted, hend⟩ := Attempt.runs_lift_bind.mp hnote
  obtain ⟨rfl, -⟩ := Session.runs_note.mp hnoted
  obtain ⟨rfl, hr, -⟩ := Attempt.runs_pure.mp hend
  cases hr
  obtain ⟨w, hall, hw⟩ := Attempt.runs_state_forget.mp hclaim
  cases w with
  | error fault => cases hw
  | ok result =>
    obtain ⟨w, st⟩ := result
    cases hw
    obtain ⟨ps, hportioned, hplanned, haccepted, hreaffirmed⟩ := claimAll_portioned hall
    exact ⟨ps, .intro hwanted hplanned hrelease hportioned haccepted hreaffirmed⟩

/-- Among portions of different namespaces, each claim is in the portion of its namespace. -/
theorem count_portion {ps : List Portion} (hps : ps.Pairwise fun p q => p.space ≠ q.space) {p : Portion} (hp : p ∈ ps)
    (claims : Portion → List Feature) (f : Feature) :
    (ps.flatMap fun p => (claims p).map (p.space, ·)).count (p.space, f) = (claims p).count f := by
  have hown (p : Portion) : ((claims p).map (p.space, ·)).count (p.space, f) = (claims p).count f :=
    List.count_map_of_injective _ _ (Prod.mk_right_injective p.space) f
  have hother {q : Portion} {qs : List Portion} (hqs : ∀ r ∈ qs, q.space ≠ r.space) :
      (qs.flatMap fun p => (claims p).map (p.space, ·)).count (q.space, f) = 0 := by
    refine List.count_eq_zero.mpr fun hmem => ?_
    obtain ⟨r, hr, hclaim⟩ := List.mem_flatMap.mp hmem
    obtain ⟨g, -, heq⟩ := List.mem_map.mp hclaim
    exact hqs r hr (congrArg Prod.fst heq).symm
  induction hps with
  | nil => cases hp
  | @cons q qs hq _ ih =>
    rw [List.flatMap_cons, List.count_append]
    rcases List.mem_cons.mp hp with rfl | hp
    · rw [hown, hother hq, Nat.add_zero]
    · rw [ih hp, List.count_eq_zero.mpr, Nat.zero_add]
      intro hmem
      obtain ⟨g, -, heq⟩ := List.mem_map.mp hmem
      exact hq p hp (congrArg Prod.fst heq)

theorem Itinerary.distinct {d : DynaKube} {v : MappingResult} {ps : List Portion}
    (h : m.Itinerary i d deadline v ps tr) : ps.Pairwise fun p q => p.space ≠ q.space := by
  obtain ⟨-, planned, -, -, -, -⟩ := h
  have hsorted := planned ▸ claimsByNamespace_sorted _
  refine (List.pairwise_map.mp hsorted).imp fun {p q} hlt heq => ?_
  rw [heq] at hlt
  exact String.lt_irrefl q.space hlt

/-- What a mapping leaves of a namespace that was missing: nothing is written or accepted, and what is reaffirmed and
counted are the features that were last shown as the DynaKube's own. -/
structure Skipped (self : String) (v : MappingResult) (p : Portion) : Prop where
  unwritten : NamespaceOwnership.accepted p.own = []
  accepted : ∀ f, (p.space, f) ∉ v.accepted
  reaffirmed : ∀ f, v.reaffirmed.count (p.space, f) =
    if f ∈ p.features ∧ shownOwned self p.space (p.own.map Event.act) f then 1 else 0
  counted : ∀ f, NamespaceOwnership.counted (.claims f .accepted) (p.own.map Event.act) = 0 ∧
    NamespaceOwnership.counted (.claims f .reaffirmed) (p.own.map Event.act) = v.reaffirmed.count (p.space, f)

theorem Itinerary.skips {d : DynaKube} {v : MappingResult} {ps : List Portion} (h : m.Itinerary i d deadline v ps tr)
    {p : Portion} (hp : p ∈ ps) (hmiss : p.Missing) : Skipped d.name v p := by
  have hdistinct := h.distinct
  obtain ⟨-, -, -, claimed, haccepted, hreaffirmed⟩ := h
  obtain ⟨_, _, _, _, hclaim⟩ := claimed.claimed hp
  obtain ⟨hunwritten, hnone : p.accepted = []⟩ := claimOne_missing hclaim hmiss
  have hcount (f : Feature) : v.reaffirmed.count (p.space, f) = p.reaffirmed.count f := by
    rw [hreaffirmed, count_portion hdistinct hp Portion.reaffirmed]
  refine ⟨hunwritten, fun f => ?_, fun f => ?_, fun f => ?_⟩
  · rw [← List.count_eq_zero, haccepted, count_portion hdistinct hp Portion.accepted, hnone, List.count_nil]
  · rw [hcount]
    exact (claimOne_counts hclaim f).2.2
  · obtain ⟨haccepts, hreaffirms, -⟩ := claimOne_counts hclaim f
    rw [hcount]
    exact ⟨haccepts.trans (by rw [hnone, List.count_nil]), hreaffirms⟩

/-- Whatever others do meanwhile, a mapping that returns skips the namespaces that it misses, but for its report on the
features that were its own there, and each namespace is of no account to the others. -/
theorem map_skips_missing {d : DynaKube} {v : MappingResult} (h : Runs i (m.map d deadline).run c tr (.ok v) c') :
    (∃ ps, m.Itinerary i d deadline v ps tr) ∧
      (∀ ps, m.Itinerary i d deadline v ps tr → ∀ p ∈ ps, p.Missing → Skipped d.name v p) ∧
      ∀ space, ∃ objects acts', m.Unlisted d deadline space (tr.map Event.act) v objects acts' :=
  ⟨map_itinerary h, fun _ hps _ hp hmiss => hps.skips hp hmiss, map_without h⟩

section Deleted

private def sole : Mapper := ⟨⟨2, Nat.two_pos⟩, "operator"⟩

private def held : Space := ⟨⟨[(Feature.codeModules.labelKey, "d")]⟩, .empty, "1"⟩

/-- A namespace names its owner, but is not marked. -/
private def unmarked : Cluster := Cluster.blank.put "n" held

private def deleted : Cluster := unmarked.drop "n"

private def remade : Labels × Annotations := (claimed "d" [.codeModules] held.labels, marked .empty)

private theorem stays (c : Cluster) : Interference.honest.moves c c := .refl

private theorem deletion : Interference.honest.moves unmarked deleted := .single (.drop "n")

/-- The namespace is read, and deleted before it is patched. -/
private theorem claimOne_deleted : ∃ own st,
    Runs .honest ((sole.claimOne "d" none "n" [.codeModules]).run ⟨[], []⟩).run unmarked own
      (.ok (([], [.codeModules]), st)) deleted ∧ (own.map Event.act).any (Act.misses "n") = true ∧
      counted (.claims .codeModules .reaffirmed) (own.map Event.act) = 1 := by
  have hread : Interference.honest.Answers unmarked (.api (.readNamespace "n")) (.ok (held.object "n")) unmarked :=
    ⟨rfl, _, rfl, rfl⟩
  have hmissed : Interference.honest.Answers deleted (.api (updateCall "n" held remade))
      (.error (.refused (some 404) none)) deleted := ⟨fun _ => rfl, rfl⟩
  exact ⟨_, _, .ask (stays _) hread (.tell (.ask deletion hmissed (.tell (.tell (.tell (.done _ _)))))), rfl, rfl⟩

private theorem lists_unmarked : unmarked.Lists [held.object "n"] := by
  refine ⟨by simp, fun r => ⟨fun hr => ?_, ?_⟩⟩
  · obtain rfl : r = _ := by simpa using hr
    exact ⟨_, rfl, rfl⟩
  · rintro ⟨s, hs, hr⟩
    by_cases hn : r.name = "n"
    · rw [hn] at hs hr
      cases hs
      simp [hr]
    · simp [unmarked, hn, Cluster.blank] at hs

private def wantedSole : List (Feature × List String) := [(.codeModules, ["n"])]

private theorem records_held : Namespaces.records [held.object "n"] = [held.record "n"] := by
  simp [Namespaces.records, Space.record]

private theorem candidates_sole :
    sole.candidates (everywhere "d") (Namespaces.records [held.object "n"]) = .ok wantedSole := by
  rw [records_held, candidates, show (everywhere "d").enabled = [.codeModules] from rfl]
  simp [selectedNames, everywhere, DynaKube.selectorFor, LabelSelector.read, sole, LabelSelector.everything,
    LabelSelector.selects, wantedSole]

private theorem claims_sole : claimsByNamespace wantedSole = [("n", [.codeModules])] := by
  simp [wantedSole, claimsByNamespace, List.eraseDups_cons]

private def reaffirming : MappingResult := ⟨.text "d", [], [("n", .codeModules)], []⟩

/-- The only claim of the mapping is on the namespace that is deleted. -/
private theorem map_deleted : ∃ tr p,
    Runs .honest (sole.map (everywhere "d") none).run unmarked tr (.ok reaffirming) deleted ∧
      sole.Itinerary .honest (everywhere "d") none reaffirming [p] tr ∧ p.space = "n" ∧ p.Missing ∧
      counted (.claims .codeModules .reaffirmed) (p.own.map Event.act) = 1 := by
  obtain ⟨own, st, hclaim, hmiss, hcounted⟩ := claimOne_deleted
  have hlist : Runs .honest sole.ledger.list.run unmarked
      [.asked (.call unmarked (.listNamespaces none) (.ok [held.object "n"]) unmarked)]
      (.ok (Namespaces.records [held.object "n"])) unmarked := .ask (stays _) ⟨rfl, lists_unmarked⟩ (.done _ _)
  have hstale : staleClaims "d" wantedSole (Namespaces.records [held.object "n"]) = [] := by
    rw [records_held]
    rfl
  have hrelease (operation : String) : Runs .honest (sole.releaseAll "d" operation none (noteStale "d")
      (staleClaims "d" wantedSole (Namespaces.records [held.object "n"]))).run unmarked [] (.ok []) unmarked := by
    rw [hstale]
    exact .done _ _
  have hclaims : Runs .honest ((sole.claimAll "d" none (claimsByNamespace wantedSole)).run ⟨[], []⟩).run unmarked
      ([] ++ (own ++ [])) (.ok (([], [("n", .codeModules)]), st)) deleted := by
    rw [claims_sole]
    exact Attempt.runs_state_lift_bind.mpr (.inr ⟨_, _, _, _, rfl, .done _ _,
      Attempt.runs_state_bind.mpr (.inr ⟨_, _, _, _, _, rfl, hclaim, .done _ _⟩)⟩)
  refine ⟨_, ⟨"n", [.codeModules], own, [], [.codeModules]⟩, ?_,
    .intro candidates_sole claims_sole.symm (hrelease _) (.cons (.done _ _) hclaim (.nil _ _)) rfl rfl, rfl, hmiss,
    hcounted⟩
  refine Attempt.runs_bind.mpr (.inr ⟨_, _, _, _, rfl, hlist, ?_⟩)
  refine Attempt.runs_bind.mpr (.inr ⟨[], wantedSole, unmarked, _, rfl, ?_, ?_⟩)
  · exact Attempt.runs_except.mpr ⟨rfl, candidates_sole.symm, rfl⟩
  refine Attempt.runs_bind.mpr (.inr ⟨[], [], unmarked, _, rfl, hrelease _, ?_⟩)
  refine Attempt.runs_bind.mpr (.inr ⟨_, _, _, _, rfl, Attempt.runs_state_forget.mpr ⟨_, hclaims, rfl⟩, ?_⟩)
  exact .tell (.done _ _)

theorem map_skips_missing_deleted : ∃ tr p,
    Runs .honest (sole.map (everywhere "d") none).run unmarked tr (.ok reaffirming) deleted ∧ p.space = "n" ∧
      p.Missing ∧ Skipped "d" reaffirming p ∧
      ∃ objects acts', sole.Unlisted (everywhere "d") none "n" (tr.map Event.act) reaffirming objects acts' := by
  obtain ⟨tr, p, h, hitinerary, hspace, hmiss, -⟩ := map_deleted
  obtain ⟨-, hskips, hothers⟩ := map_skips_missing h
  exact ⟨tr, p, h, hspace, hmiss, hskips [p] hitinerary p List.mem_cons_self hmiss, hothers "n"⟩

/-- A namespace that names the DynaKube and is deleted before it is patched is reaffirmed, and counted so. -/
theorem missing_namespace_reaffirmed : ∃ tr p,
    Runs .honest (sole.map (everywhere "d") none).run unmarked tr (.ok reaffirming) deleted ∧
      sole.Itinerary .honest (everywhere "d") none reaffirming [p] tr ∧ p.space = "n" ∧ p.Missing ∧
      ("n", .codeModules) ∈ reaffirming.reaffirmed ∧
      counted (.claims .codeModules .reaffirmed) (p.own.map Event.act) = 1 := by
  obtain ⟨tr, p, h, hitinerary, hspace, hmiss, hcounted⟩ := map_deleted
  exact ⟨tr, p, h, hitinerary, hspace, hmiss, List.mem_singleton_self _, hcounted⟩

end Deleted

end Mapper
end NamespaceOwnership
