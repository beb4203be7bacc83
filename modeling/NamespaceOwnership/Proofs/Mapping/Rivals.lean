import NamespaceOwnership.Proofs.Calm
import NamespaceOwnership.Proofs.Mapping.Patches

/-!
# Two mappings for one place

Two DynaKubes that both want a feature of a namespace are mapped at the same time. Whoever gets the label of the
feature first keeps it, because the guard of the other one finds it live, and so at most one of the two calls
returns. What carries this is that all that ever changes on the namespace are the labels of the features and
its marker, which no selector of the two can see (`Undisturbed`).
-/
namespace NamespaceOwnership

open Session (Runs)

namespace Mapper

open Ledger

/-- A DynaKube that exists, wants a feature of a namespace, and does not look at who owns what. -/
structure Contends (m : Mapper) (c : Cluster) (space : String) (s : Space) (f : Feature) (d : DynaKube) :
    Prop where
  stored : c.Shows d.name (some d)
  wants : m.Wants d f space s.labels
  plain : ∀ parsed, LabelSelector.read (d.selectorFor f) = .ok parsed → parsed.Plain

/-- The DynaKubes are those of the beginning, and so is the namespace apart from the labels of the features. -/
def Undisturbed (c₀ : Cluster) (space : String) (s₀ : Space) (c : Cluster) : Prop :=
  c.dynakubes = c₀.dynakubes ∧ ∃ s, c.spaces space = some s ∧ s.labels.AgreeElsewhere s₀.labels

variable {m : Mapper} {c₀ c c' : Cluster} {space : String} {s₀ : Space} {f : Feature} {d : DynaKube}
  {self : String} {stale : List Claim} {claims : List (String × List Feature)} {tr : List Event}
  {x : Exchange}

/-- A grounded patch replaces labels that differ at most in those of the features. -/
theorem Ground.replaces (h : Ground self stale claims tr x) :
    ∃ other s new, x.Replaces other s new ∧ new.1.AgreeElsewhere s.labels := by
  cases h with
  | @dropped other g s mem held replaces =>
    exact ⟨other, s, _, replaces, erased_agree s.labels g⟩
  | @claimed other features s st mem replaces based known free =>
    exact ⟨other, s, _, replaces, claimed_agree self features s.labels⟩

theorem Undisturbed.patched (h : Undisturbed c₀ space s₀ x.before) (hg : Ground self stale claims tr x)
    (hd : x.after.dynakubes = x.before.dynakubes) : Undisturbed c₀ space s₀ x.after := by
  obtain ⟨hdynakubes, s, hs, hagree⟩ := h
  obtain ⟨other, t, new, hreplaces, hnew⟩ := hg.replaces
  obtain ⟨version, hafter⟩ := hreplaces.spaces
  refine ⟨hd.trans hdynakubes, ?_⟩
  rw [hafter]
  by_cases hother : space = other
  · subst hother
    cases hreplaces.2.1.symm.trans hs
    exact ⟨_, if_pos rfl, hnew.trans hagree⟩
  · exact ⟨s, (if_neg hother).trans hs, hagree⟩

/-- The listing of a mapping and the ground of a later patch of it. -/
def Grounds (m : Mapper) (d : DynaKube) (tr : List Event) (x : Exchange) : Prop :=
  ∃ c₁ objects wanted, .asked (.call c₁ (.listNamespaces none) (.ok objects) c₁) ∈ tr ∧
    c₁.Lists objects ∧ m.candidates d (Namespaces.records objects) = .ok wanted ∧
    Ground d.name (staleClaims d.name wanted (Namespaces.records objects)) (claimsByNamespace wanted) tr x

/-- In a calm race every accepted patch of the mapping on the left is grounded. -/
theorem left_grounds {β : Type} {deadline : Option Int} {right : Session β}
    {r : Race (Except Fault MappingResult) β} {tr₁ tr₂ : List Event}
    {s : Session (Except Fault MappingResult)}
    (ht : Race.Traced .calm ⟨(m.map d deadline).run, right, c₀⟩ tr₁ tr₂ r)
    (hs : Session.Step .calm r.left r.cluster (.asked x) s c) (hx : x.patch?.isSome) :
    Grounds m d tr₁ x := by
  obtain ⟨tr', result, c', hrun⟩ := (Session.Begins.step ht.left_begins hs.honest).extends
  rw [List.append_assoc] at hrun
  rcases map_grounded Interference.honest_truthful hrun with ⟨fault, -, hnone⟩ |
    ⟨c₁, objects, wanted, rest, -, hlists, hwanted, htr, hground, -⟩
  · have hmem : x ∈ accepted (tr₁ ++ ([.asked x] ++ tr')) := mem_accepted.mpr ⟨by simp, hx⟩
    rw [hnone] at hmem
    cases hmem
  refine ⟨c₁, objects, wanted, ?_, hlists, hwanted, hground.split rfl hx⟩
  cases tr₁ with
  | nil =>
    obtain rfl : x = _ := by simpa using (List.cons.inj htr).1
    cases hx
  | cons e tr₁ => exact List.mem_cons.mpr (.inl (List.cons.inj htr).1.symm)

theorem Undisturbed.step {α : Type} {t t' : Session α} {e : Event} (h : Undisturbed c₀ space s₀ c)
    (hs : Session.Step .calm t c e t' c')
    (hg : ∀ x, e = .asked x → x.patch?.isSome → ∃ d tr, Grounds m d tr x) : Undisturbed c₀ space s₀ c' := by
  cases hs with
  | tell => exact h
  | @ask request next _ _ answer answered =>
    cases hx : (⟨c, request, answer, c'⟩ : Exchange).patch? with
    | none => rwa [answered.eq_of_not_patched hx]
    | some named =>
      obtain ⟨d, tr, c₁, objects, wanted, -, -, -, hground⟩ := hg _ rfl (by rw [hx]; rfl)
      exact h.patched hground answered.dynakubes

/-- Every exchange of a trace was before and after in an undisturbed cluster. -/
def Seen (c₀ : Cluster) (space : String) (s₀ : Space) (tr : List Event) : Prop :=
  ∀ y, .asked y ∈ tr → Undisturbed c₀ space s₀ y.before ∧ Undisturbed c₀ space s₀ y.after

theorem Seen.step {α : Type} {t t' : Session α} {e : Event} (h : Seen c₀ space s₀ tr)
    (hs : Session.Step .calm t c e t' c') (hc : Undisturbed c₀ space s₀ c)
    (hc' : Undisturbed c₀ space s₀ c') : Seen c₀ space s₀ (tr ++ [e]) := by
  intro y hy
  rcases List.mem_append.mp hy with hy | hy
  · exact h y hy
  · obtain rfl : .asked y = e := by simpa using hy
    obtain ⟨hbefore, hafter, -⟩ := hs.exchange
    exact ⟨hbefore ▸ hc, hafter ▸ hc'⟩

/-- The label of a feature on a namespace names somebody. -/
def Labelled (c : Cluster) (space : String) (f : Feature) (owner : String) : Prop :=
  ∃ s, c.spaces space = some s ∧ TextMap.get? s.labels f.labelKey = some owner

/-- The claim of one who contends is not stale, because its listing shows the namespace. -/
theorem not_stale {objects : List (Option NamespaceObject)} {wanted : List (Feature × List String)}
    (hd : Contends m c₀ space s₀ f d) (hne : space ≠ "") (hc : Undisturbed c₀ space s₀ c)
    (hlists : c.Lists objects) (hwanted : m.candidates d (Namespaces.records objects) = .ok wanted) :
    (space, f) ∉ staleClaims d.name wanted (Namespaces.records objects) := by
  intro hmem
  obtain ⟨-, s, hs, hagree⟩ := hc
  have hlisted : s.record space ∈ Namespaces.records objects :=
    (mem_records hlists).mpr ⟨hne, s, hs, rfl⟩
  exact ((mem_staleClaims hwanted).mp hmem).2
    ⟨_, hlisted, rfl, hd.wants.congr hagree.symm hd.plain⟩

/-- A guard that saw the DynaKubes as they are does not find one who contends free to be replaced. -/
theorem not_free {e : DynaKube} {st : Memory} {s : Space} (he : Contends m c₀ space s₀ f e)
    (hseen : Seen c₀ space s₀ tr) (hknown : st.Known tr) (hagree : s.labels.AgreeElsewhere s₀.labels)
    (howner : Labels.owner? s.labels f = some e.name) (hself : e.name ≠ self) :
    ¬Free self s.labels st f := by
  intro hfree
  obtain ⟨found, hfound, hlapsed⟩ := hfree e.name howner hself
  have hread := hknown e.name
  rw [hfound] at hread
  obtain ⟨y, hy, hshows⟩ := hread
  have hmem : .asked y ∈ tr := (mem_readings.mp (hy ▸ List.mem_singleton_self y)).1
  have hsame : y.before.dynakubes = c₀.dynakubes := (hseen y hmem).1.1
  obtain ⟨object, hobject, hvalid⟩ := he.stored
  cases found with
  | none =>
    have hnone : y.before.dynakubes e.name = none := hshows
    rw [hsame, hobject] at hnone
    cases hnone
  | some d =>
    obtain ⟨object', hobject', hvalid'⟩ := hshows
    rw [hsame, hobject] at hobject'
    cases hobject'
    cases hvalid.symm.trans hvalid'
    obtain ⟨henables, -, parsed, hparsed, hselects⟩ := he.wants.congr hagree.symm he.plain
    rcases hlapsed e rfl with hoff | ⟨parsed', hparsed', hmissed⟩
    · rw [henables] at hoff
      cases hoff
    · cases hparsed.symm.trans hparsed'
      rw [hselects] at hmissed
      cases hmissed

/-- No patch of one who contends takes the label from the other or from itself. -/
theorem Grounds.keeps {e : DynaKube} (h : Grounds m d tr x) (hd : Contends m c₀ space s₀ f d)
    (he : Contends m c₀ space s₀ f e) (hne : space ≠ "") (hseen : Seen c₀ space s₀ tr)
    (hx : Undisturbed c₀ space s₀ x.before) (hl : Labelled x.before space f e.name) :
    Labelled x.after space f e.name := by
  obtain ⟨c₁, objects, wanted, hlisted, hlists, hwanted, hground⟩ := h
  obtain ⟨s, hs, hlabel⟩ := hl
  cases hground with
  | @dropped other g t mem held replaces =>
    obtain ⟨version, hafter⟩ := replaces.spaces
    rw [Labelled, hafter]
    by_cases hother : space = other
    · subst hother
      cases replaces.2.1.symm.trans hs
      refine ⟨_, if_pos rfl, ?_⟩
      have hg : f ≠ g := by
        rintro rfl
        exact not_stale hd hne (hseen _ hlisted).1 hlists hwanted mem
      rw [TextMap.get?_erase, if_neg (mt Feature.labelKey_inj.mp hg), hlabel]
    · exact ⟨s, (if_neg hother).trans hs, hlabel⟩
  | @claimed other features t st mem replaces based known free =>
    obtain ⟨version, hafter⟩ := replaces.spaces
    rw [Labelled, hafter]
    by_cases hother : space = other
    · subst hother
      cases replaces.2.1.symm.trans hs
      refine ⟨_, if_pos rfl, ?_⟩
      rw [get?_claimed]
      by_cases hf : ∃ g ∈ features, f.labelKey = g.labelKey
      · rw [if_pos hf]
        obtain ⟨g, hg, hkey⟩ := hf
        obtain rfl := Feature.labelKey_inj.mp hkey
        by_contra hself
        obtain ⟨-, t, ht, hagree⟩ := hx
        cases hs.symm.trans ht
        obtain ⟨object, -, hvalid⟩ := he.stored
        have howner : Labels.owner? s.labels f = some e.name :=
          Labels.owner?_eq_some_iff.mpr ⟨hlabel, DynaKube.name_ne_empty hvalid⟩
        exact not_free he hseen known hagree howner (fun heq => hself (by rw [heq])) (free f hg)
      · rw [if_neg hf, hlabel]
    · exact ⟨s, (if_neg hother).trans hs, hlabel⟩

section Race

variable {a b : DynaKube} {deadline₁ deadline₂ : Option Int} {tr₁ tr₂ : List Event}
  {r r' : Race (Except Fault MappingResult) (Except Fault MappingResult)}

/-- Two mappings and the cluster on which they set out. -/
def contest (m : Mapper) (a b : DynaKube) (deadline₁ deadline₂ : Option Int) (c : Cluster) :
    Race (Except Fault MappingResult) (Except Fault MappingResult) :=
  ⟨(m.map a deadline₁).run, (m.map b deadline₂).run, c⟩

theorem contest_undisturbed (hs : c₀.spaces space = some s₀)
    (h : Race.Traced .calm (contest m a b deadline₁ deadline₂ c₀) tr₁ tr₂ r) :
    Undisturbed c₀ space s₀ r.cluster ∧ Seen c₀ space s₀ tr₁ ∧ Seen c₀ space s₀ tr₂ := by
  induction h with
  | start => exact ⟨⟨rfl, s₀, hs, fun _ _ => rfl⟩, by simp [Seen], by simp [Seen]⟩
  | left ht hstep ih =>
    obtain ⟨hc, hleft, hright⟩ := ih
    have hc' := hc.step hstep fun x hx hpatch => ⟨a, _, left_grounds ht (hx ▸ hstep) hpatch⟩
    exact ⟨hc', hleft.step hstep hc hc', hright⟩
  | right ht hstep ih =>
    obtain ⟨hc, hleft, hright⟩ := ih
    have hc' := hc.step hstep fun x hx hpatch => ⟨b, _, left_grounds ht.swap (hx ▸ hstep) hpatch⟩
    exact ⟨hc', hleft, hright.step hstep hc hc'⟩

/-- The parties are equal. -/
theorem contest_swap : (contest m a b deadline₁ deadline₂ c₀).swap = contest m b a deadline₂ deadline₁ c₀ :=
  rfl

/-- A turn of the mapping on the left leaves the label of one who contends alone. -/
theorem left_keeps {e : DynaKube} {t : Session (Except Fault MappingResult)} {event : Event}
    (hs : c₀.spaces space = some s₀) (hne : space ≠ "") (ha : Contends m c₀ space s₀ f a)
    (he : Contends m c₀ space s₀ f e)
    (ht : Race.Traced .calm (contest m a b deadline₁ deadline₂ c₀) tr₁ tr₂ r)
    (hstep : Session.Step .calm r.left r.cluster event t c) (hl : Labelled r.cluster space f e.name) :
    Labelled c space f e.name := by
  obtain ⟨hc, hseen, -⟩ := contest_undisturbed hs ht
  cases event with
  | told note => rwa [hstep.told]
  | asked x =>
    obtain ⟨hbefore, hafter, answered⟩ := hstep.exchange
    rw [← hbefore] at hc hl
    rw [← hafter]
    cases hx : x.patch? with
    | some named => exact (left_grounds ht hstep (by rw [hx]; rfl)).keeps ha he hne hseen hc hl
    | none =>
      rw [← hbefore, ← hafter] at answered
      rwa [answered.eq_of_not_patched hx]

/-- Whoever has the label keeps it. -/
theorem steps_keep {e : DynaKube} (hs : c₀.spaces space = some s₀) (hne : space ≠ "")
    (ha : Contends m c₀ space s₀ f a) (hb : Contends m c₀ space s₀ f b) (he : Contends m c₀ space s₀ f e)
    (h : Race.Steps .calm (contest m a b deadline₁ deadline₂ c₀) r) (h' : Race.Steps .calm r r')
    (hl : Labelled r.cluster space f e.name) : Labelled r'.cluster space f e.name := by
  induction h' with
  | refl => exact hl
  | tail h' hstep ih =>
    obtain ⟨tr₁, tr₂, ht⟩ := Race.Steps.traced (h.trans h')
    cases hstep with
    | left hstep => exact left_keeps hs hne ha he ht hstep ih
    | right hstep => exact left_keeps (r := Race.swap _) hs hne hb he (contest_swap ▸ ht.swap) hstep ih

/-- A mapping that has returned had the label at some moment, and has kept it. -/
theorem left_returned {v : MappingResult} (hs : c₀.spaces space = some s₀) (hne : space ≠ "")
    (ha : Contends m c₀ space s₀ f a) (hb : Contends m c₀ space s₀ f b)
    (h : Race.Steps .calm (contest m a b deadline₁ deadline₂ c₀) r) (hv : r.left = .done (.ok v)) :
    Labelled r.cluster space f a.name := by
  obtain ⟨tr₁, tr₂, ht⟩ := h.traced
  obtain ⟨-, hseen, -⟩ := contest_undisturbed hs ht
  have hdone : Runs .honest r.left r.cluster [] (.ok v) r.cluster := hv ▸ .done _ _
  obtain ⟨c', hrun⟩ := ht.left_begins.runs hdone
  rw [List.append_nil] at hrun
  rcases map_grounded Interference.honest_truthful hrun with ⟨fault, hf, -⟩ |
    ⟨c₁, objects, wanted, rest, -, hlists, hwanted, htr, -, hclaimed⟩
  · cases hf
  obtain ⟨⟨-, s, hheld, hagree⟩, -⟩ :=
    hseen (.call c₁ (.listNamespaces none) (.ok objects) c₁) (htr ▸ List.mem_cons_self)
  have hlisted : s.record space ∈ Namespaces.records objects :=
    (mem_records hlists).mpr ⟨hne, s, hheld, rfl⟩
  obtain ⟨features, hmem, hf⟩ := exists_claim hwanted hlisted (ha.wants.congr hagree.symm ha.plain)
  obtain ⟨x, hx, hwon | ⟨call, failure, hfail, h404, hcall⟩⟩ := hclaimed v rfl _ hmem
  · obtain ⟨r₁, hto, hcluster, hfrom⟩ := ht.turn hx
    obtain ⟨t, hspace, hlabels⟩ := hwon
    refine steps_keep hs hne ha hb ha hto hfrom ?_
    rw [hcluster]
    exact ⟨t, hspace, hlabels f hf⟩
  · -- the namespace is there at every moment, so nobody misses it
    obtain ⟨-, -, t, hthere, -⟩ := hseen x hx
    have hgone : x.after.spaces space = none := by
      rcases hcall with rfl | ⟨patch, rfl⟩ <;> exact hfail h404
    rw [hthere] at hgone
    cases hgone

/-- Of two mappings for one place at most one returns, and who has the label of the feature keeps it. -/
theorem rivals_exclusive (m : Mapper) (deadline₁ deadline₂ : Option Int) (hab : a.name ≠ b.name)
    (hne : space ≠ "") (hs : c₀.spaces space = some s₀) (ha : Contends m c₀ space s₀ f a)
    (hb : Contends m c₀ space s₀ f b)
    (h : Race.Steps .calm (contest m a b deadline₁ deadline₂ c₀) r) :
    (∀ r' owner, Race.Steps .calm r r' → owner = a.name ∨ owner = b.name →
        Labelled r.cluster space f owner → Labelled r'.cluster space f owner) ∧
      ¬∃ v w, r.left = .done (.ok v) ∧ r.right = .done (.ok w) := by
  constructor
  · rintro r' owner h' (rfl | rfl) hl
    · exact steps_keep hs hne ha hb ha h h' hl
    · exact steps_keep hs hne ha hb hb h h' hl
  · rintro ⟨v, w, hv, hw⟩
    obtain ⟨s, hspace, hleft⟩ := left_returned hs hne ha hb h hv
    obtain ⟨tr₁, tr₂, ht⟩ := h.traced
    obtain ⟨t, hspace', hright⟩ := left_returned hs hne hb ha (contest_swap ▸ ht.swap.steps) hw
    cases hspace.symm.trans hspace'
    exact hab (Option.some.inj (hleft.symm.trans hright))

/-- A namespace without labels and two DynaKubes that want it. -/
private def disputed : Cluster :=
  (((Cluster.blank.put "n" ⟨.empty, .empty, "1"⟩).setDynaKube "a" (some (everywhereObject "a"))).setDynaKube
    "b" (some (everywhereObject "b")))

private theorem contends_disputed (m : Mapper) (hm : "n" ≠ m.operatorNamespace) {name : String}
    (h : name = "a" ∨ name = "b") :
    Contends m disputed "n" ⟨.empty, .empty, "1"⟩ .codeModules (everywhere name) where
  stored := by
    rcases h with rfl | rfl
    · exact ⟨_, rfl, ofObject_everywhere (by decide)⟩
    · exact ⟨_, rfl, ofObject_everywhere (by decide)⟩
  wants := wants_everywhere hm _
  plain _ := everywhere_plain

/-- The race may be run to its end, and then one of the two calls has failed. -/
theorem rivals_exclusive_disputed : ∃ r : Race (Except Fault MappingResult) (Except Fault MappingResult),
    Race.Steps .calm (contest ⟨⟨2, by decide⟩, "operator"⟩ (everywhere "a") (everywhere "b") none none disputed)
        r ∧ ∃ x y, r.left = .done x ∧ r.right = .done y ∧
      ¬∃ v w, r.left = .done (.ok v) ∧ r.right = .done (.ok w) := by
  have hfinite : disputed.Finite := ((Cluster.blank_finite.put _ _).setDynaKube _ _).setDynaKube _ _
  have hm : "n" ≠ (⟨⟨2, by decide⟩, "operator"⟩ : Mapper).operatorNamespace := by decide
  obtain ⟨x, y, c', h⟩ := Race.exists_finished hfinite
    ((⟨⟨2, by decide⟩, "operator"⟩ : Mapper).map (everywhere "a") none).run
    ((⟨⟨2, by decide⟩, "operator"⟩ : Mapper).map (everywhere "b") none).run
  exact ⟨_, h, x, y, rfl, rfl, (rivals_exclusive _ none none (by decide) (by decide) rfl
    (contends_disputed _ hm (.inl rfl)) (contends_disputed _ hm (.inr rfl)) h).2⟩

end Race

end Mapper
end NamespaceOwnership
