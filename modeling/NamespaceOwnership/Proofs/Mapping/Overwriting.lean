import NamespaceOwnership.Proofs.Mapping.Patches

/-!
# Overwriting another owner

A mapping takes a place over from another owner only after it has read the DynaKube of that owner and found
its claim void. Since a call reads a DynaKube once, that reading may be older than the reading of the namespace
on which the patch is based: then the owner may have come back in between, and is overwritten although it is
live all the time from the reading of the namespace to the patch.
-/
namespace NamespaceOwnership

open Session (Runs)

/-- An accepted patch takes a feature of a namespace, which stood as `s`, over from another owner. -/
def Exchange.Overwrites (x : Exchange) (space : String) (f : Feature) (owner self : String) (s : Space) :
    Prop :=
  ∃ patch, x.patch? = some (space, patch) ∧ x.before.spaces space = some s ∧
    Labels.owner? s.labels f = some owner ∧ owner ≠ self ∧ Labels.owner? patch.labels f = some self

/-- The cluster at some moment from right after a reading to right before a patch. -/
inductive Moment (reading : Exchange) (window : List Event) (x : Exchange) : Cluster → Prop where
  | first : Moment reading window x reading.after
  | before {z : Exchange} (hz : .asked z ∈ window) : Moment reading window x z.before
  | after {z : Exchange} (hz : .asked z ∈ window) : Moment reading window x z.after
  | last : Moment reading window x x.before

namespace Mapper

open Ledger

/-- Where a patch takes a feature over, it is a claim, and the guard knew the other owner. -/
theorem Ground.free {self : String} {stale : List Claim} {claims : List (String × List Feature)}
    {past : List Event} {x : Exchange} {space : String} {f : Feature} {owner : String} {s : Space}
    (h : Ground self stale claims past x) (hx : x.Overwrites space f owner self s) :
    Based space s past ∧ ∃ st : Memory, st.Known past ∧
      ∃ found, st.peers.lookup owner = some found ∧ Lapsed found f s.labels := by
  obtain ⟨patch, hpatch, hbefore, howner, hne, hnew⟩ := hx
  cases h with
  | @dropped _ g t mem held replaces =>
    obtain ⟨rfl, rfl⟩ := replaces.patch? hpatch
    have hs := replaces.2.1.symm.trans hbefore
    cases hs
    rw [owner?_erased] at hnew
    by_cases hf : f = g
    · rw [if_pos hf] at hnew
      cases hnew
    · rw [if_neg hf, howner] at hnew
      exact absurd (Option.some.inj hnew) hne
  | @claimed _ features t st mem replaces based known free =>
    obtain ⟨rfl, rfl⟩ := replaces.patch? hpatch
    have hs := replaces.2.1.symm.trans hbefore
    cases hs
    have hself : self ≠ "" := (Labels.owner?_eq_some_iff.mp hnew).2
    rw [owner?_claimed hself] at hnew
    by_cases hf : f ∈ features
    · exact ⟨based, st, known, free f hf owner howner hne⟩
    · rw [if_neg hf, howner] at hnew
      exact absurd (Option.some.inj hnew) hne

/-- Whenever a mapping takes a feature of a namespace over from another owner, it has read the DynaKube of that
owner once, and at that moment the claim of the owner was void. Between the reading of the namespace on which the
patch is based and the patch the claim was void at some moment as well, except exactly if the DynaKube was read
before the namespace, is another one at every moment since then, and is live at each of them. -/
theorem overwritten_owner_notLive (m : Mapper) (d : DynaKube) (deadline : Option Int) {i : Interference}
    (hi : i.Truthful) {c c' : Cluster} {tr pre post : List Event} {r : Except Fault MappingResult}
    (h : Runs i (m.map d deadline).run c tr r c') {x : Exchange} {space owner : String} {f : Feature}
    {s : Space} (htr : tr = pre ++ .asked x :: post) (hx : x.Overwrites space f owner d.name s) :
    ∃ old reading window y, pre = old ++ .asked reading :: window ∧
      reading.request = .api (.readNamespace space) ∧ reading.after.spaces space = some s ∧
      (∀ z, .asked z ∈ window → z.request.IsReading) ∧
      readings owner pre = [y] ∧ y.before.NotLive owner f s.labels ∧
      ((∃ z, Moment reading window x z ∧ z.NotLive owner f s.labels) ↔
        ¬(.asked y ∈ old ∧ ∀ z, Moment reading window x z →
          z.dynakubes owner ≠ y.before.dynakubes owner ∧ ¬z.NotLive owner f s.labels)) := by
  obtain ⟨patch, hpatch, -⟩ := id hx
  have hsome : x.patch?.isSome := by rw [hpatch]; rfl
  rcases map_grounded hi h with ⟨fault, -, hnone⟩ | ⟨c₁, objects, wanted, rest, -, -, -, -, hground, -⟩
  · have hmem : x ∈ accepted tr := mem_accepted.mpr ⟨by simp [htr], hsome⟩
    rw [hnone] at hmem
    cases hmem
  obtain ⟨⟨old, c₂, object, window, rfl, hheld, hwindow⟩, st, hknown, found, hfound, hlapsed⟩ :=
    (hground.split htr hsome).free hx
  have hread := hknown owner
  rw [hfound] at hread
  obtain ⟨y, hy, hshows⟩ := hread
  have hvoid : y.before.NotLive owner f s.labels := ⟨found, hshows, hlapsed⟩
  refine ⟨old, _, window, y, rfl, rfl, hheld, hwindow, hy, hvoid, ?_⟩
  have hwhere : .asked y ∈ old ∨ .asked y ∈ window := by
    obtain ⟨hmem, hreq⟩ := mem_readings.mp (hy ▸ List.mem_singleton_self y : y ∈ readings owner _)
    rcases List.mem_append.mp hmem with hold | hnew
    · exact .inl hold
    · rcases List.mem_cons.mp hnew with heq | hwin
      · cases heq
        cases hreq
      · exact .inr hwin
  constructor
  · rintro ⟨z, hz, hnot⟩ ⟨-, hall⟩
    exact (hall z hz).2 hnot
  · intro hstale
    by_contra hlive
    -- without a moment at which the claim is void, the only reading must be an old one
    have hall : ∀ z, Moment (.call c₂ (.readNamespace space) (.ok object) c₂) window x z →
        ¬z.NotLive owner f s.labels := fun z hz hnot => hlive ⟨z, hz, hnot⟩
    have hold : .asked y ∈ old := hwhere.resolve_right fun hwin => hall _ (.before hwin) hvoid
    refine hstale ⟨hold, fun z hz => ⟨fun hsame => hall z hz ?_, hall z hz⟩⟩
    exact hvoid.congr hsame

section Return

private def pair : Mapper := ⟨⟨2, Nat.two_pos⟩, "operator"⟩

private def taken : Labels := ⟨[(Feature.codeModules.labelKey, "a")]⟩

private def entry (version : String) : Option NamespaceObject :=
  some ⟨some "n", some taken, some .empty, some version⟩

/-- The label names a DynaKube that does not exist. -/
private def abandoned : Cluster := Cluster.blank.put "n" ⟨taken, .empty, "1"⟩

/-- The DynaKube is back and has claimed the namespace again. -/
private def returned : Cluster :=
  (abandoned.setDynaKube "a" (some (everywhereObject "a"))).put "n" ⟨taken, .empty, "2"⟩

private def usurped : Labels × Annotations := (claimed "d" [.codeModules] taken, marked .empty)

private def replaced : Cluster := returned.put "n" ⟨usurped.1, usurped.2, "3"⟩

private def lastReading : Exchange := .call returned (.readNamespace "n") (.ok (entry "2")) returned

private def usurpation : Exchange :=
  .call returned (updateCall "n" ⟨taken, .empty, "2"⟩ usurped) (.ok none) replaced

private theorem same (c : Cluster) : Interference.honest.moves c c := .refl

private theorem returns : Interference.honest.moves abandoned returned :=
  .tail (.single (.dynakube "a" _)) (.put "n" _ (by
    simp [abandoned, Cluster.put, Cluster.blank, Cluster.setDynaKube]))

private theorem claimAll_usurps : ∃ v pre n₁ n₂ post,
    Runs .honest ((pair.claimAll "d" none [("n", [.codeModules])]).run ⟨[], []⟩).run abandoned
      (pre ++ .asked lastReading :: [.told n₁, .told n₂] ++ .asked usurpation :: post) (.ok v) replaced := by
  have hfirst : Interference.honest.Answers abandoned (.api (.readNamespace "n")) (.ok (entry "1"))
      abandoned := ⟨rfl, _, rfl, rfl⟩
  have hmissed : Interference.honest.Answers abandoned (.api (.getDynaKube (.text "a")))
      (.error (.refused (some 404) none)) abandoned := ⟨fun _ => rfl, rfl⟩
  have hlost : Interference.honest.Answers returned (.api (updateCall "n" ⟨taken, .empty, "1"⟩ usurped))
      (.error (.refused (some 409) none)) returned := ⟨fun h => by simp [CallFailure.status?] at h, rfl⟩
  have hsecond : Interference.honest.Answers returned (.api (.readNamespace "n")) (.ok (entry "2"))
      returned := ⟨rfl, _, rfl, rfl⟩
  have hwon : Interference.honest.Answers returned (.api (updateCall "n" ⟨taken, .empty, "2"⟩ usurped))
      (.ok none) replaced := ⟨_, "3", rfl, by simp,
        by simp [returned, abandoned, Cluster.put, Cluster.blank, Cluster.setDynaKube], rfl⟩
  exact ⟨_, [_, _, _, _, _, _, _], _, _, _, .ask (same _) hfirst (.tell (.ask (same _) hmissed (.tell
    (.ask returns hlost (.tell (.tell (.ask (same _) hsecond (.tell (.tell (.ask (same _) hwon
      (.tell (.tell (.done _ _)))))))))))))⟩

private theorem candidates_everywhere :
    pair.candidates (everywhere "d") [⟨"n", taken, .empty, some "1"⟩] = .ok [(.codeModules, ["n"])] := by
  rw [candidates, show (everywhere "d").enabled = [.codeModules] from rfl]
  simp [selectedNames, everywhere, DynaKube.selectorFor, LabelSelector.read, pair, LabelSelector.everything,
    LabelSelector.selects]

private theorem lists_abandoned : abandoned.Lists [entry "1"] := by
  refine ⟨by simp, fun r => ⟨fun hr => ?_, ?_⟩⟩
  · obtain rfl : r = _ := by simpa using hr
    exact ⟨_, rfl, rfl⟩
  · rintro ⟨s, hs, hr⟩
    by_cases hn : r.name = "n"
    · rw [hn] at hs hr
      cases hs
      simp [hr, entry, NamespaceRecord.ofObject, Space.record]
    · simp [abandoned, hn, Cluster.blank] at hs

/-- The whole call, which misses the DynaKube, loses a race against its return and then overwrites it. -/
private theorem map_usurps : ∃ v old n₁ n₂ post,
    Runs .honest (pair.map (everywhere "d") none).run abandoned
      (old ++ .asked lastReading :: [.told n₁, .told n₂] ++ .asked usurpation :: post) (.ok v) replaced := by
  have hlist : Runs .honest pair.ledger.list.run abandoned
      [.asked (.call abandoned (.listNamespaces none) (.ok [entry "1"]) abandoned)]
      (.ok (Namespaces.records [entry "1"])) abandoned :=
    .ask (same _) ⟨rfl, lists_abandoned⟩ (.done _ _)
  have hrecords : Namespaces.records [entry "1"] = [⟨"n", taken, .empty, some "1"⟩] := by
    simp [Namespaces.records, entry, NamespaceRecord.ofObject]
  have hclaims : claimsByNamespace [(.codeModules, ["n"])] = [("n", [.codeModules])] := by
    simp [claimsByNamespace, List.eraseDups_cons]
  have hstale : staleClaims "d" [(.codeModules, ["n"])] [⟨"n", taken, .empty, some "1"⟩] = [] := rfl
  obtain ⟨⟨⟨accepted, reaffirmed⟩, st⟩, old, n₁, n₂, post, hall⟩ := claimAll_usurps
  rw [← hclaims] at hall
  have hnote : ∃ v note, Runs .honest (do
        let result : MappingResult := ⟨.text "d", accepted, reaffirmed, []⟩
        Session.info (s!"Mapped dynakube d: " ++ result.summary)
        return result : Attempt MappingResult).run replaced [.told note] (.ok v) replaced :=
    ⟨_, _, .tell (.done _ _)⟩
  obtain ⟨v, note, hnote⟩ := hnote
  refine ⟨v, .asked (.call abandoned (.listNamespaces none) (.ok [entry "1"]) abandoned) :: old, n₁, n₂,
    post ++ [.told note], Attempt.runs_bind.mpr (.inr
    ⟨_, _, _, _, ?_, hlist, Attempt.runs_bind.mpr (.inr ⟨[], [(.codeModules, ["n"])], abandoned, _, rfl, ?_,
      Attempt.runs_bind.mpr (.inr ⟨[], [], abandoned, _, rfl, ?_,
        Attempt.runs_bind.mpr (.inr ⟨_, (accepted, reaffirmed), replaced, _, rfl,
          Attempt.runs_state_forget.mpr ⟨_, hall, rfl⟩, hnote⟩)⟩)⟩)⟩)⟩
  · simp
  · exact Attempt.runs_except.mpr ⟨rfl, by rw [hrecords, candidates_everywhere], rfl⟩
  · rw [hrecords]
    exact Attempt.runs_pure.mpr ⟨rfl, rfl, rfl⟩

private theorem usurpation_overwrites :
    usurpation.Overwrites "n" .codeModules "a" "d" ⟨taken, .empty, "2"⟩ :=
  ⟨⟨some "2", usurped.1, usurped.2⟩, rfl, rfl, rfl, by decide, rfl⟩

/-- The guard was right once: the owner is live at every moment from the last reading to the patch. -/
theorem live_owner_overwritten : ∃ v tr old n₁ n₂ post,
    Runs .honest (pair.map (everywhere "d") none).run abandoned tr (.ok v) replaced ∧
      tr = old ++ .asked lastReading :: [.told n₁, .told n₂] ++ .asked usurpation :: post ∧
      usurpation.Overwrites "n" .codeModules "a" (everywhere "d").name ⟨taken, .empty, "2"⟩ ∧
      ∀ z, Moment lastReading [.told n₁, .told n₂] usurpation z → ¬z.NotLive "a" .codeModules taken := by
  obtain ⟨v, old, n₁, n₂, post, hrun⟩ := map_usurps
  refine ⟨v, _, old, n₁, n₂, post, hrun, rfl, usurpation_overwrites, fun z hz => ?_⟩
  have hreturned : z = returned := by
    cases hz with
    | first => rfl
    | before hz => simp at hz
    | after hz => simp at hz
    | last => rfl
  subst hreturned
  rintro ⟨found, hshows, hlapsed⟩
  cases found with
  | none => cases hshows
  | some d =>
    obtain ⟨object, hobject, hd⟩ := hshows
    cases hobject
    cases hd
    rcases hlapsed _ rfl with hoff | ⟨parsed, hread, hselects⟩
    · cases hoff
    · cases hread
      cases hselects

theorem overwritten_owner_notLive_returned : ∃ tr v pre post y,
    Runs .honest (pair.map (everywhere "d") none).run abandoned tr (.ok v) replaced ∧
      tr = pre ++ .asked usurpation :: post ∧ readings "a" pre = [y] ∧
      y.before.NotLive "a" .codeModules taken := by
  obtain ⟨v, old, n₁, n₂, post, hrun⟩ := map_usurps
  obtain ⟨_, _, _, y, _, _, _, _, hy, hvoid, _⟩ := overwritten_owner_notLive pair (everywhere "d") none
    Interference.honest_truthful hrun rfl usurpation_overwrites
  exact ⟨_, v, _, post, y, hrun, rfl, hy, hvoid⟩

end Return

end Mapper
end NamespaceOwnership
