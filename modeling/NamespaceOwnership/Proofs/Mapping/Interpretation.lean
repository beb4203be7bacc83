import NamespaceOwnership.Proofs.Mapping.Exactness

/-!
# Owners that cannot be interpreted

In the calm a mapping takes a place from the DynaKube of another name only if that DynaKube can be read and has lost its
claim; else the label stays and the mapping is over by then. A fault that is due to the object of an owner is a conflict
with that owner, unless the object cannot be interpreted: then it is the error of reading it
(`Mapper.map_overwrites_lapsed`).
-/
namespace NamespaceOwnership

open Session (Runs)

namespace Uninterpretable

variable {object : Value} {f : Feature} {fault fault' : Fault}

/-- There is one reason at most. -/
theorem unique (h : Uninterpretable object f fault) (h' : Uninterpretable object f fault') : fault = fault' := by
  cases h with
  | unreadable read =>
    cases h' with
    | unreadable read' =>
      cases read.symm.trans read'
      rfl
    | stuck read' => cases read.symm.trans read'
  | stuck read enables selector =>
    cases h' with
    | unreadable read' => cases read.symm.trans read'
    | stuck read' enables' selector' =>
      cases read.symm.trans read'
      exact Except.error.inj (selector.read.symm.trans selector'.read)

theorem not_lapsed {d : DynaKube} {labels : Labels} (h : Uninterpretable object f fault)
    (hd : DynaKube.ofObject object = .ok d) : ¬Lapsed (some d) f labels := by
  intro hlapsed
  cases h with
  | unreadable read => cases hd.symm.trans read
  | stuck read enables selector =>
    cases hd.symm.trans read
    rcases hlapsed _ rfl with hnot | ⟨parsed, hparsed, -⟩
    · cases enables.symm.trans hnot
    · cases hparsed.symm.trans selector.read

theorem not_live {c : Cluster} {owner : String} {labels : Labels} (h : Uninterpretable object f fault)
    (hobject : c.dynakubes owner = some object) : ¬c.Live owner f labels := by
  rintro ⟨d, ⟨object', hobject', hd⟩, hf, hselector⟩
  cases hobject.symm.trans hobject'
  cases h with
  | unreadable read => cases hd.symm.trans read
  | stuck read enables selector =>
    cases hd.symm.trans read
    rcases hselector with ⟨error, herror⟩ | ⟨parsed, hparsed, -⟩
    · cases herror.symm.trans selector.read
    · cases hparsed.symm.trans selector.read

end Uninterpretable

namespace Mapper

variable {m : Mapper} {d : DynaKube} {c c' : Cluster} {self space owner p : String} {s : Space} {f : Feature}
  {labels : Labels} {fault : Fault} {object : Value} {deadline : Option Int} {tr : List Event}
  {r : Except Fault MappingResult}

/-- An owner objects by a conflict, unless it cannot be interpreted. -/
theorem Objection.of_owner (h : Objection c self space labels f fault) (howner : Labels.owner? labels f = some owner)
    (hobject : c.dynakubes owner = some object) :
    (fault = .ownership ⟨space, f, owner, self⟩ ∧ ∀ reason, ¬Uninterpretable object f reason) ∨
      Uninterpretable object f fault := by
  cases h with
  | live owns other live =>
    cases howner.symm.trans owns
    exact .inl ⟨rfl, fun reason hreason => hreason.not_live hobject live⟩
  | unknown owns other stored uninterpretable =>
    cases howner.symm.trans owns
    cases hobject.symm.trans stored
    exact .inr uninterpretable

theorem owner?_freed_of_other (howner : Labels.owner? labels f = some owner) (hother : owner ≠ d.name) :
    Labels.owner? (m.freed d space labels) f = some owner := by
  rw [owner?_freed, if_neg, howner]
  rintro ⟨hself, -⟩
  exact hother (Option.some.inj (howner.symm.trans hself))

/-- Whoever objects first in a mapping was the owner before it. -/
theorem Foremost.of_owner (h : m.Foremost d c p f fault) (howner : c.owner? p f = some owner) (hother : owner ≠ d.name)
    (hobject : c.dynakubes owner = some object) :
    (fault = .ownership ⟨p, f, owner, d.name⟩ ∧ ∀ reason, ¬Uninterpretable object f reason) ∨
      Uninterpretable object f fault := by
  obtain ⟨-, s, hs, -⟩ := h.candidate
  rw [Cluster.owner?_eq hs] at howner
  exact (h.objection s hs).of_owner (owner?_freed_of_other howner hother) hobject

/-- A claim on a place of another DynaKube is made only if that has lost its own. -/
theorem Clear.lapsed (h : m.Clear d c p f) (hs : c.spaces p = some s) (howner : Labels.owner? s.labels f = some owner)
    (hother : owner ≠ d.name) (hobject : c.dynakubes owner = some object) :
    ∃ e, DynaKube.ofObject object = .ok e ∧ Lapsed (some e) f (m.freed d p s.labels) := by
  obtain ⟨found, hshows, hlapsed⟩ := h s hs owner (owner?_freed_of_other howner hother) hother
  cases found with
  | none => cases hobject.symm.trans hshows
  | some e =>
    obtain ⟨object', hobject', he⟩ := hshows
    cases hobject.symm.trans hobject'
    exact ⟨e, he, hlapsed⟩

/-- What a mapping in the calm does to a candidate that another DynaKube owns: it overwrites the label where that DynaKube
can be read and has lost its claim, and else leaves it and is over at this namespace or before. Only where the object of
an owner cannot be interpreted is a fault that it causes not a conflict. -/
theorem map_overwrites_lapsed (hf : m.Candidate d c p f) (hs : c.spaces p = some s)
    (howner : Labels.owner? s.labels f = some owner) (hother : owner ≠ d.name)
    (hobject : c.dynakubes owner = some object) (h : Runs .calm (m.map d deadline).run c tr r c') :
    (∃ t, c'.spaces p = some t ∧
      ((TextMap.get? t.labels f.labelKey = some d.name ∧
          ∃ e, DynaKube.ofObject object = .ok e ∧ Lapsed (some e) f (m.freed d p s.labels)) ∨
        TextMap.get? t.labels f.labelKey = some owner ∧ ∃ fault, r = .error fault ∧
          (Expired deadline fault ∨ (∃ g, d.FirstUnread g fault) ∨ ∃ q g, q ≤ p ∧ m.Foremost d c q g fault))) ∧
      ∀ q g fault, m.Foremost d c q g fault → c.owner? q g = some owner →
        (fault = .ownership ⟨q, g, owner, d.name⟩ ∧ ∀ reason, ¬Uninterpretable object g reason) ∨
          Uninterpretable object g fault := by
  refine ⟨?_, fun q g fault hforemost howns => hforemost.of_owner howns hother hobject⟩
  obtain ⟨claims, drops, hpursued⟩ := map_pursues h
  obtain ⟨t, ht, hrewritten⟩ := hpursued.rewrites.exists_space hs
  refine ⟨t, ht, ?_⟩
  by_cases hclaimed : claims p f
  · exact .inl ⟨hrewritten.claimed hclaimed, (hpursued.claimed hclaimed).2.lapsed hs howner hother hobject⟩
  · have hkept : ¬drops p f := fun hdrop => by
      have hself := (hpursued.dropped hdrop).2.1
      rw [Cluster.owner?_eq hs, howner] at hself
      exact hother (Option.some.inj hself)
    refine .inr ⟨(hrewritten.kept hclaimed hkept).trans (Labels.owner?_eq_some_iff.mp howner).1, ?_⟩
    cases r with
    | ok v => exact absurd (hpursued.ok v rfl hf) hclaimed
    | error fault =>
      refine ⟨fault, rfl, (hpursued.error fault rfl).imp_right (Or.imp_right ?_)⟩
      rintro ⟨q, g, hforemost, hmade⟩
      exact ⟨q, g, String.not_lt.mp fun hlt => hclaimed (hmade hf hlt), hforemost⟩

section Parted

/-- The only thing that `a` wants in a namespace that is parted is the code modules. -/
theorem candidate_parted {q : String} {g : Feature} (hc : c.spaces = forsaken.spaces)
    (h : warden.Candidate (everywhere "a") c q g) : q = "n" ∧ g = .codeModules := by
  obtain ⟨-, s, hs, hwants⟩ := h
  refine ⟨?_, ?_⟩
  · by_contra hq
    rw [hc, forsaken, Cluster.put_spaces_of_ne _ _ hq] at hs
    cases hs
  · cases g with
    | codeModules => rfl
    | dataIngest => cases hwants.1

theorem parted_owner : Labels.owner? parted.labels .codeModules = some "b" := by decide

theorem defended_live (labels : Labels) : defended.Live "b" .codeModules labels :=
  ⟨everywhere "b", defended_shows, rfl, .inr ⟨_, read_everywhere "b" _, rfl⟩⟩

theorem map_overwrites_lapsed_defended : ∃ (tr : List Event) (c' : Cluster) (t : Space),
    Runs .calm (warden.map (everywhere "a") none).run defended tr
        (.error (.ownership ⟨"n", .codeModules, "b", "a"⟩)) c' ∧
      c'.spaces "n" = some t ∧ TextMap.get? t.labels Feature.codeModules.labelKey = some "b" := by
  obtain ⟨tr, r, c', hrun, -, -⟩ := Session.exists_calm_run defended_finite 0 (warden.map (everywhere "a") none).run
  have hobject : defended.dynakubes "b" = some (everywhereObject "b") := by simp [defended, Cluster.setDynaKube]
  obtain ⟨⟨t, ht, houtcome⟩, hcause⟩ := map_overwrites_lapsed (parted_candidate defended_spaces) defended_spaces
    parted_owner (by decide) hobject hrun
  rcases houtcome with ⟨-, e, he, hlapsed⟩ |
    ⟨hlabel, fault, rfl, hexpired | ⟨g, -, -, -, -, hunread⟩ | ⟨q, g, -, hfirst⟩⟩
  · exact absurd (defended_live _) (not_live_of_notLive ⟨some e, ⟨_, hobject, he⟩, hlapsed⟩)
  · exact absurd hexpired not_expired
  · cases (read_everywhere "a" g).symm.trans hunread
  · obtain ⟨rfl, rfl⟩ := candidate_parted rfl hfirst.candidate
    rcases hcause _ _ _ hfirst (Cluster.owner?_eq defended_spaces _) with ⟨rfl, -⟩ | hreason
    · exact ⟨tr, c', t, hrun, ht, hlabel⟩
    · exact (hreason.not_live hobject (defended_live parted.labels)).elim

/-- The object of `b` says neither yes nor no to code modules. -/
def undecided : Value := .fields [("metadata", .fields [("name", .text "b")]),
  ("spec", .fields [("codeModules", .fields [("enabled", .int 5)])])]

/-- The expression `env In prod`, but for its operator, which is in a list. -/
private def listedExpression : List (String × Value) :=
  [("key", .text "env"), ("operator", .list [.text "In"]), ("values", .list [.text "prod"])]

/-- The object of `b` has a selector of that expression. -/
def misspelt : Value := .fields [("metadata", .fields [("name", .text "b")]), ("spec", .fields [("codeModules",
  .fields [("namespaceSelector", .fields [("matchExpressions", .list [.fields listedExpression])])])])]

theorem undecided_uninterpretable :
    Uninterpretable undecided .codeModules (.object (.flagNotBoolean .codeModules (.int 5))) := .unreadable rfl

theorem misspelt_uninterpretable : Uninterpretable misspelt .codeModules (.object (.noName "list")) := by
  have hcompound : LabelSelector.Compound listedExpression (.list [.text "In"]) :=
    ⟨by simp [listedExpression, LabelSelector.unknownKeys], .inr ⟨_, rfl⟩, ⟨"env", by rfl⟩, rfl, rfl⟩
  have hselector : LabelSelector.Stuck (.fields [("matchExpressions", .list [.fields listedExpression])])
      (.list [.text "In"]) :=
    ⟨_, rfl, by simp [LabelSelector.unknownKeys], ⟨[], rfl, nofun⟩, [], _, [], rfl, nofun, hcompound⟩
  change Uninterpretable misspelt .codeModules (LabelSelector.operatorFault (.list [.text "In"]))
  refine .stuck rfl rfl ?_
  exact hselector

/-- Where the object of `b` cannot be interpreted, a mapping of `a` fails with the error of reading it. -/
theorem map_fails_uninterpretable (h : Uninterpretable object .codeModules fault) :
    ∃ tr c', Runs .calm (warden.map (everywhere "a") none).run (forsaken.setDynaKube "b" (some object)) tr
      (.error fault) c' := by
  obtain ⟨tr, r, c', hrun, -, -⟩ := Session.exists_calm_run (forsaken_finite.setDynaKube "b" (some object)) 0
    (warden.map (everywhere "a") none).run
  have hspace : (forsaken.setDynaKube "b" (some object)).spaces "n" = some parted := forsaken_spaces
  have hobject : (forsaken.setDynaKube "b" (some object)).dynakubes "b" = some object := by simp [Cluster.setDynaKube]
  obtain ⟨claims, drops, hpursued⟩ := map_pursues hrun
  refine ⟨tr, c', ?_⟩
  cases r with
  | ok v =>
    have hclear := (hpursued.claimed (hpursued.ok v rfl (parted_candidate hspace))).2
    obtain ⟨e, he, hlapsed⟩ := hclear.lapsed hspace parted_owner (by decide) hobject
    exact absurd hlapsed (h.not_lapsed he)
  | error fault' =>
    rcases hpursued.error fault' rfl with hexpired | ⟨g, -, -, -, -, hunread⟩ | ⟨q, g, hfirst, -⟩
    · exact absurd hexpired not_expired
    · cases (read_everywhere "a" g).symm.trans hunread
    · obtain ⟨rfl, rfl⟩ := candidate_parted rfl hfirst.candidate
      have howner := (Cluster.owner?_eq hspace _).trans parted_owner
      rcases hfirst.of_owner howner (by decide) hobject with ⟨-, hnone⟩ | hreason
      · exact absurd h (hnone fault)
      · rwa [h.unique hreason]

theorem uninterpretable_owner_escapes : ∃ (tr tr' : List Event) (c c' : Cluster),
    Runs .calm (warden.map (everywhere "a") none).run (forsaken.setDynaKube "b" (some undecided)) tr
        (.error (.object (.flagNotBoolean .codeModules (.int 5)))) c ∧
      Runs .calm (warden.map (everywhere "a") none).run (forsaken.setDynaKube "b" (some misspelt)) tr'
        (.error (.object (.noName "list"))) c' ∧
      Labels.owner? parted.labels .codeModules = some "b" ∧
      warden.Candidate (everywhere "a") (forsaken.setDynaKube "b" (some undecided)) "n" .codeModules ∧
      warden.Candidate (everywhere "a") (forsaken.setDynaKube "b" (some misspelt)) "n" .codeModules := by
  obtain ⟨tr, c, hundecided⟩ := map_fails_uninterpretable undecided_uninterpretable
  obtain ⟨tr', c', hmisspelt⟩ := map_fails_uninterpretable misspelt_uninterpretable
  exact ⟨tr, tr', c, c', hundecided, hmisspelt, parted_owner, parted_candidate forsaken_spaces,
    parted_candidate forsaken_spaces⟩

end Parted

end Mapper
end NamespaceOwnership
