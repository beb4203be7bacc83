import NamespaceOwnership.Proofs.Ledger.Tally
import NamespaceOwnership.Proofs.Mapping.Plan
import NamespaceOwnership.Proofs.Mapping.Releases
import NamespaceOwnership.Proofs.Moments

/-!
# Unmapping amid other writers

An unmapping works off a listing that may be outdated at once. As long as nobody makes the name an owner again, what
the name does not own it never owns later, so that the listing has every place that must be looked at. However the
release of a listed claim ends without a fault, the name does not own the place at that moment
(`Mapper.remove_leaves`). When the call returns, the name therefore owns nothing, and each claim that was released
has been erased by one patch.
-/
namespace NamespaceOwnership

open Session (Runs)

/-- Others change anything at any time but make the name the owner of nothing, every call may fail, and only what
does not exist is missed. -/
def Interference.withholding (name : String) : Interference where
  moves c c' := Cluster.Evolves c c' ∧ ∀ p f, c'.owner? p f = some name → c.owner? p f = some name
  evolves h := h.1
  fails := honest.fails
  permits _ _ := True

/-- What neither the others nor the patches put an end to lasts. -/
theorem Session.Runs.lasts {α : Type} {i : Interference} {s : Session α} {c c' : Cluster} {tr : List Event} {a : α}
    {P : Cluster → Prop} (h : Runs i s c tr a c') (hmoves : ∀ {c c'}, i.moves c c' → P c → P c')
    (hpatched : ∀ x ∈ accepted tr, P x.before → P x.after) (hc : P c) : P c' := by
  have hpairs : (moments c tr c').Pairwise fun c₁ c₂ => P c₁ → P c₂ :=
    h.pairwise (fun _ => id) (fun h₁ h₂ => h₂ ∘ h₁) hmoves hpatched
  exact List.rel_of_pairwise_cons hpairs (by simp) hc

namespace Mapper

open Ledger

variable {i : Interference} {c c' : Cluster} {tr : List Event} {m : Mapper} {owner operation p : String} {f : Feature}
  {deadline : Option Int} {claim : Claim} {todo done : List Claim} {noted : Claim → Session Unit} {x : Exchange}

/-- To drop claims makes nobody an owner. -/
theorem Drops.owner?_before {self : String} (h : Drops self todo x) (howner : x.after.owner? p f = some owner) :
    x.before.owner? p f = some owner := by
  obtain ⟨⟨place, g⟩, s, -, -, hrep⟩ := h
  rw [hrep.owner?] at howner
  by_cases hp : p = place
  · subst hp
    rw [if_pos rfl, owner?_erased] at howner
    by_cases hf : f = g
    · rw [if_pos hf] at howner
      cases howner
    · rwa [if_neg hf, ← Cluster.owner?_eq hrep.2.1] at howner
  · rwa [if_neg hp] at howner

/-- Where only claims are dropped, a name that is withheld from a place does not come back. -/
theorem withheld {α : Type} {s : Session α} {a : α} (h : Runs (.withholding owner) s c tr a c')
    (hsends : s.Sends (.withholding owner) fun _ x => Drops owner todo x) (hnot : c.owner? p f ≠ some owner) :
    c'.owner? p f ≠ some owner := by
  refine h.lasts (P := fun c => c.owner? p f ≠ some owner) (fun hm hc howner => hc (hm.2 p f howner))
    (fun x hx hc howner => ?_) hnot
  obtain ⟨-, -, -, hdrops⟩ := hsends _ _ _ _ h x hx
  exact hc (hdrops.owner?_before howner)

/-- However a release ends without a fault, the place is not the name's: the namespace is gone, its label was found
to name somebody else or nobody, or it was erased. -/
theorem remove_leaves {space : String} {dropped : Bool}
    (h : Runs (.withholding owner) (m.ledger.remove space f (some owner) deadline).run c tr (.ok dropped) c') :
    c'.owner? space f ≠ some owner := by
  have hgone : c'.spaces space = none → c'.owner? space f ≠ some owner := fun hnone => by
    simp [Cluster.owner?, hnone]
  obtain ⟨v, hrun, hv⟩ := Attempt.runs_state_forget.mp h
  obtain ⟨tr₁, st₁, c₁, tr₂, rfl, -, hover | ⟨-, rfl, -⟩⟩ := modify_runs hrun
  · cases hover with
    | expired => cases hv
    | unread => cases hv
    | objected => cases hv
    | refused => cases hv
    | gone checked moved refused status => exact hgone (refused status)
    | vanished planned differs moved refused status => exact hgone (refused status)
    | @idle _ s new _ _ planned same =>
      obtain ⟨read, changed⟩ := planned
      obtain ⟨hnew, rfl, -⟩ := release_runs changed
      cases hnew
      rw [Cluster.owner?_eq read.held]
      intro howner
      -- an owner that is to be dropped would have been dropped, which is a change
      have hsame : TextMap.same _ _ = true := (Bool.and_eq_true_iff.mp same).1
      have hreleased := owner?_released f f owner s.labels s.annotations
      rw [if_pos ⟨rfl, howner⟩, Labels.owner?_congr ((TextMap.same_iff _ _).mp hsame _), Space.record_labels,
        howner] at hreleased
      cases hreleased
    | @written _ s new _ _ c₂ _ version planned differs moved held fresh =>
      obtain ⟨read, changed⟩ := planned
      obtain ⟨hnew, -, -⟩ := release_runs changed
      cases hnew
      rw [Cluster.owner?_eq (Cluster.put_spaces_self _ _ _), owner?_released]
      by_cases howner : Labels.owner? s.labels f = some owner
      · simp [howner]
      · simp [howner]
  · cases hv

/-- Of several releases that end without a fault each does, and those are reported that dropped their claim. -/
theorem releaseAll_cons_runs {rest : List Claim} (hnoted : ∀ claim, (noted claim).Within fun _ => False)
    (h : Runs i (m.releaseAll owner operation deadline noted (claim :: rest)).run c tr (.ok done) c') :
    ∃ tr₁ c₁ tr₂ dropped c₂ tr₃ tr₄ later, tr = tr₁ ++ (tr₂ ++ (tr₃ ++ tr₄)) ∧
      Runs i (checkDeadline deadline operation).run c tr₁ (.ok ()) c₁ ∧
      Runs i (m.ledger.remove claim.1 claim.2 (some owner) deadline).run c₁ tr₂ (.ok dropped) c₂ ∧ OnlyNotes tr₃ ∧
      Runs i (m.releaseAll owner operation deadline noted rest).run c₂ tr₄ (.ok later) c' ∧
      done = if dropped then claim :: later else later := by
  rcases Attempt.runs_bind.mp h with ⟨fault, hf, -⟩ | ⟨tr₁, _, c₁, tr₂, rfl, hcheck, hremove⟩
  · cases hf
  rcases Attempt.runs_bind.mp hremove with ⟨fault, hf, -⟩ | ⟨tr₃, dropped, c₂, tr₄, rfl, hdrop, hlater⟩
  · cases hf
  cases dropped with
  | false => exact ⟨_, _, _, _, _, [], _, _, rfl, hcheck, hdrop, .nil, hlater, rfl⟩
  | true =>
    obtain ⟨tr₅, _, c₃, tr₆, rfl, hnote, hrest⟩ := Attempt.runs_lift_bind.mp hlater
    obtain ⟨hnotes, rfl⟩ := hnote.onlyNotes (hnoted claim)
    rcases Attempt.runs_bind.mp hrest with ⟨fault, hf, -⟩ | ⟨tr₇, later, c₄, tr₈, rfl, hrun, hend⟩
    · cases hf
    obtain ⟨rfl, hdone, rfl⟩ := Attempt.runs_pure.mp hend
    cases hdone
    exact ⟨_, _, _, _, _, _, _, _, by simp, hcheck, hdrop, hnotes, hrun, rfl⟩

/-- When the releases are over, the owner has none of the places. -/
theorem releaseAll_leaves (hnoted : ∀ claim, (noted claim).Within fun _ => False)
    (h : Runs (.withholding owner) (m.releaseAll owner operation deadline noted todo).run c tr (.ok done) c') :
    ∀ claim ∈ todo, c'.owner? claim.1 claim.2 ≠ some owner := by
  induction todo generalizing c tr done with
  | nil => simp
  | cons claim rest ih =>
    obtain ⟨tr₁, c₁, tr₂, dropped, c₂, tr₃, tr₄, later, rfl, -, hdrop, -, hrest, -⟩ := releaseAll_cons_runs hnoted h
    intro other hother
    rcases List.mem_cons.mp hother with rfl | hother
    · exact withheld hrest (releaseAll_sends rest hnoted) (remove_leaves hdrop)
    · exact ih hrest other hother

/-- The accepted patches are those that drop the reported claims, one for each of them. -/
theorem releaseAll_patches (hnoted : ∀ claim, (noted claim).Within fun _ => False)
    (h : Runs i (m.releaseAll owner operation deadline noted todo).run c tr (.ok done) c') :
    done.Sublist todo ∧ List.Forall₂ (fun claim x => Drops owner [claim] x) done (accepted tr) := by
  induction todo generalizing c tr done with
  | nil =>
    obtain ⟨rfl, hdone, -⟩ := Attempt.runs_pure.mp h
    cases hdone
    exact ⟨.slnil, .nil⟩
  | cons claim rest ih =>
    obtain ⟨tr₁, c₁, tr₂, dropped, c₂, tr₃, tr₄, later, rfl, hcheck, hdrop, hnotes, hrest, rfl⟩ :=
      releaseAll_cons_runs hnoted h
    obtain ⟨hsub, hall⟩ := ih hrest
    rw [accepted_append, accepted_append, accepted_append, checkDeadline_accepted hcheck, hnotes.accepted_eq,
      List.nil_append, List.nil_append]
    obtain ⟨-, hpatched⟩ := remove_tally hdrop
    cases dropped with
    | false =>
      rw [show accepted tr₂ = [] from hpatched]
      exact ⟨hsub.cons claim, hall⟩
    | true =>
      obtain ⟨x, -, -, hx, -⟩ := hpatched
      obtain ⟨-, -, -, hdrops⟩ := remove_sends (i := i) claim _ _ _ _ hdrop x (by simp [hx])
      rw [hx]
      exact ⟨hsub.cons_cons claim, .cons hdrops hall⟩

theorem Drops.of_forall₂ {xs : List Exchange} (h : List.Forall₂ (fun claim x => Drops owner [claim] x) done xs) :
    ∀ x ∈ xs, Drops owner done x := by
  induction h with
  | nil => simp
  | cons hfirst _ ih =>
    intro x hx
    rcases List.mem_cons.mp hx with rfl | hx
    · exact hfirst.mono fun claim hclaim => List.mem_singleton.mp hclaim ▸ List.mem_cons_self
    · exact (ih x hx).mono fun claim hclaim => List.mem_cons_of_mem _ hclaim

/-- A claim is dropped where the name owns the place. -/
theorem Drops.released {self : String} (h : Drops self [claim] x) (hself : self ≠ "") (hpatch : x.patch?.isSome) :
    x.Releases claim.1 claim.2 self := by
  obtain ⟨other, s, hother, hheld, hrep⟩ := h
  obtain rfl := List.mem_singleton.mp hother
  refine ⟨hpatch, ?_, ?_⟩
  · rw [Cluster.owner?_eq hrep.2.1]
    exact Labels.owner?_eq_some_iff.mpr ⟨hheld, hself⟩
  · rw [hrep.owner?, if_pos rfl, owner?_erased, if_pos rfl]

/-- If no claim is reported twice, each is released by one of the patches and by no other. -/
theorem released_once {xs : List Exchange} (h : List.Forall₂ (fun claim x => Drops owner [claim] x) done xs)
    (howner : owner ≠ "") (hpatch : ∀ x ∈ xs, x.patch?.isSome) (hnodup : done.Nodup) (hclaim : claim ∈ done) :
    ∃ before x after, xs = before ++ x :: after ∧ x.Releases claim.1 claim.2 owner ∧
      ∀ y ∈ before ++ after, ∀ other, ¬y.Releases claim.1 claim.2 other := by
  induction h with
  | nil => cases hclaim
  | @cons first x rest xs hfirst hrest ih =>
    obtain ⟨hnot, hnodup⟩ := List.nodup_cons.mp hnodup
    rcases List.mem_cons.mp hclaim with rfl | hclaim
    · refine ⟨[], x, xs, rfl, hfirst.released howner (hpatch x List.mem_cons_self), fun y hy other hreleases => ?_⟩
      exact hnot ((Drops.of_forall₂ hrest y hy).releases hreleases).2
    · obtain ⟨before, z, after, rfl, hz, hothers⟩ :=
        ih (fun y hy => hpatch y (List.mem_cons_of_mem _ hy)) hnodup hclaim
      refine ⟨x :: before, z, after, rfl, hz, fun y hy other hreleases => ?_⟩
      rcases List.mem_cons.mp hy with rfl | hy
      · have hsame : claim = first := List.mem_singleton.mp (hfirst.releases hreleases).2
        exact hnot (hsame ▸ hclaim)
      · exact hothers y hy other hreleases

/-- An unmapping that returns has listed the namespaces and gone through the claims of the name. -/
theorem unmap_runs {name : String} {v : MappingResult}
    (h : Runs i (m.unmap (.text name) deadline).run c tr (.ok v) c') :
    ∃ c₁ objects tr₁, c₁.Lists objects ∧ accepted tr = accepted tr₁ ∧
      Runs i (m.releaseAll name ("unmapping dynakube " ++ name) deadline
        (fun c => Session.count (.releases c.2 .unmapped)) (heldBy name (Namespaces.records objects))).run
        c₁ tr₁ (.ok v.released) c' := by
  rcases Attempt.runs_bind.mp h with ⟨fault, hf, -⟩ | ⟨tr₁, records, c₁, tr₂, rfl, hlist, hrest⟩
  · cases hf
  rcases list_runs hlist with ⟨_, _, -, hr, -⟩ | ⟨objects, -, hlists, hr, rfl⟩
  · cases hr
  cases hr
  rcases Attempt.runs_bind.mp hrest with ⟨fault, hf, -⟩ | ⟨tr₃, released, c₂, tr₄, rfl, hrelease, hend⟩
  · cases hf
  obtain ⟨tr₅, _, c₃, tr₆, rfl, hnote, hpure⟩ := Attempt.runs_lift_bind.mp hend
  obtain ⟨rfl, rfl⟩ := Session.runs_note.mp hnote
  obtain ⟨rfl, hv, rfl⟩ := Attempt.runs_pure.mp hpure
  cases hv
  rw [Value.shown_text] at hrelease
  refine ⟨c₁, objects, tr₃, hlists, ?_, hrelease⟩
  rw [accepted_append, accepted_append, (OnlyNotes.single _).append .nil |>.accepted_eq, List.append_nil]
  rfl

/-- Whatever others do to the namespaces between any two calls, as long as they never make the name an owner: when an
unmapping returns, the name owns no feature of a named namespace, and none before somebody gives it one. Each claim
that it reports to be released was removed by one of its accepted patches and by no other. -/
theorem unmap_complete (m : Mapper) (name : String) (deadline : Option Int) {c c' : Cluster} {tr : List Event}
    {v : MappingResult} (h : Runs (.withholding name) (m.unmap (.text name) deadline).run c tr (.ok v) c') :
    (∀ later, (Interference.withholding name).moves c' later → ∀ p f, p ≠ "" → later.owner? p f ≠ some name) ∧
      ∀ claim ∈ v.released, ∃ before x after, accepted tr = before ++ x :: after ∧
        x.Releases claim.1 claim.2 name ∧ ∀ y ∈ before ++ after, ∀ owner, ¬y.Releases claim.1 claim.2 owner := by
  obtain ⟨c₁, objects, tr₁, hlists, hacc, hrelease⟩ := unmap_runs h
  have hnoted (claim : Claim) : (Session.count (.releases claim.2 .unmapped)).Within fun _ => False :=
    ⟨trivial, trivial⟩
  refine ⟨fun later hmoves p f hp hlater => ?_, fun claim hclaim => ?_⟩
  · have howner : c'.owner? p f = some name := hmoves.2 p f hlater
    by_cases hlisted : c₁.owner? p f = some name
    · exact releaseAll_leaves hnoted hrelease _ ((mem_heldBy_records hlists).mpr ⟨hp, hlisted⟩) howner
    · exact withheld hrelease (releaseAll_sends _ hnoted) hlisted howner
  · obtain ⟨hsub, hall⟩ := releaseAll_patches hnoted hrelease
    have hheld := (mem_heldBy_records hlists).mp (hsub.subset hclaim)
    obtain ⟨s, -, howner⟩ := Option.bind_eq_some_iff.mp hheld.2
    have hnodup : (heldBy name (Namespaces.records objects)).Nodup :=
      (heldBy_sorted (records_sorted hlists) name).imp fun hlt heq => by
        subst heq
        rcases hlt with hlt | ⟨-, hlt⟩ <;> exact String.lt_irrefl _ hlt
    rw [hacc]
    exact released_once hall (Labels.owner?_eq_some_iff.mp howner).2 (fun x hx => (mem_accepted.mp hx).2)
      (hsub.nodup hnodup) hclaim

section Overtaken

private def halves (owner other : String) : Labels :=
  ⟨[(Feature.codeModules.labelKey, owner), (Feature.dataIngest.labelKey, other)]⟩

/-- A namespace whose features have the same owner. -/
private def undivided : Cluster := Cluster.blank.put "n" ⟨halves "d" "d", .empty, "1"⟩

/-- Another writer has taken one of the features over. -/
private def divided : Cluster := undivided.put "n" ⟨halves "e" "d", .empty, "2"⟩

private def remainder : Labels × Annotations :=
  (TextMap.erase (halves "e" "d") Feature.dataIngest.labelKey, marked .empty)

private def relieved : Cluster := divided.put "n" ⟨remainder.1, remainder.2, "3"⟩

private def unmapper : Mapper := ⟨⟨2, Nat.two_pos⟩, "operator"⟩

private theorem undivided_lists : undivided.Lists [Space.object "n" ⟨halves "d" "d", .empty, "1"⟩] := by
  refine ⟨by simp, fun r => ⟨fun hr => ?_, ?_⟩⟩
  · obtain rfl : r = _ := by simpa using hr
    exact ⟨_, rfl, rfl⟩
  · rintro ⟨s, hs, hr⟩
    by_cases hn : r.name = "n"
    · rw [hn] at hs hr
      cases hs
      simp [hr]
    · simp [undivided, hn, Cluster.blank] at hs

private theorem overtaking : (Interference.withholding "d").moves undivided divided := by
  refine ⟨.single (.put "n" _ (by simp [undivided, Cluster.put, Cluster.blank])), fun p f howner => ?_⟩
  by_cases hp : p = "n"
  · subst hp
    cases f with
    | codeModules => exact absurd (show some "e" = some "d" from howner) (by decide)
    | dataIngest => rfl
  · simpa [Cluster.owner?, divided, hp] using howner

private theorem withholding_refl (name : String) (c : Cluster) : (Interference.withholding name).moves c c :=
  ⟨.refl, fun _ _ => id⟩

/-- One of two listed claims is overtaken before it is read again, and the other one is released. -/
private theorem unmap_overtaken : ∃ tr, Runs (.withholding "d") (unmapper.unmap (.text "d") none).run undivided tr
    (.ok ⟨.text "d", [], [], [("n", .dataIngest)]⟩) relieved := by
  have hlist : Runs (.withholding "d") unmapper.ledger.list.run undivided
      [.asked (.call undivided (.listNamespaces none) (.ok [Space.object "n" ⟨halves "d" "d", .empty, "1"⟩]) undivided)]
      (.ok (Namespaces.records [Space.object "n" ⟨halves "d" "d", .empty, "1"⟩])) undivided :=
    .ask (withholding_refl _ _) ⟨rfl, undivided_lists⟩ (.done _ _)
  have hheld : claimsOf (.text "d") (Namespaces.records [Space.object "n" ⟨halves "d" "d", .empty, "1"⟩]) =
      [("n", .codeModules), ("n", .dataIngest)] := by
    rw [show Namespaces.records [Space.object "n" ⟨halves "d" "d", .empty, "1"⟩] =
      [⟨"n", halves "d" "d", .empty, some "1"⟩] by simp [Namespaces.records, Space.record]]
    rfl
  have hread : (Interference.withholding "d").Answers divided (.api (.readNamespace "n"))
      (.ok (Space.object "n" ⟨halves "e" "d", .empty, "2"⟩)) divided := ⟨rfl, _, rfl, rfl⟩
  have hpatched : (Interference.withholding "d").Answers divided
      (.api (updateCall "n" ⟨halves "e" "d", .empty, "2"⟩ remainder)) (.ok none) relieved :=
    ⟨_, "3", rfl, by simp, by simp [divided, undivided, Cluster.put, Cluster.blank], rfl⟩
  have hreleases : ∃ tr, Runs (.withholding "d") (unmapper.releaseAll "d" ("unmapping dynakube " ++ "d") none
      (fun c => Session.count (.releases c.2 .unmapped)) [("n", .codeModules), ("n", .dataIngest)]).run undivided tr
      (.ok [("n", .dataIngest)]) relieved :=
    ⟨_, .ask overtaking hread (.tell (.ask (withholding_refl _ _) hread (.ask (withholding_refl _ _) hpatched
      (.tell (.done _ _)))))⟩
  obtain ⟨tr, hreleases⟩ := hreleases
  rw [← hheld] at hreleases
  exact ⟨_, Attempt.runs_bind.mpr (.inr ⟨_, _, _, _, rfl, hlist, Attempt.runs_bind.mpr (.inr
    ⟨tr, _, _, _, rfl, hreleases, .tell (.done _ _)⟩)⟩)⟩

theorem unmap_complete_overtaken : ∃ tr v, Runs (.withholding "d") (unmapper.unmap (.text "d") none).run undivided tr
    (.ok v) relieved ∧ v.released = [("n", .dataIngest)] ∧ relieved.owner? "n" .codeModules = some "e" ∧
      (∀ f, relieved.owner? "n" f ≠ some "d") ∧ ∃ x ∈ accepted tr, x.Releases "n" .dataIngest "d" := by
  obtain ⟨tr, h⟩ := unmap_overtaken
  obtain ⟨hnone, honce⟩ := unmap_complete unmapper "d" none h
  obtain ⟨before, x, after, hacc, hreleases, -⟩ := honce ("n", .dataIngest) (List.mem_singleton_self _)
  refine ⟨tr, _, h, rfl, rfl, fun f => hnone _ (withholding_refl _ _) "n" f (by decide), x, ?_, hreleases⟩
  rw [hacc]
  exact List.mem_append_right _ List.mem_cons_self

end Overtaken

end Mapper
end NamespaceOwnership
