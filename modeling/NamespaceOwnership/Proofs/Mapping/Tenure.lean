import NamespaceOwnership.Proofs.Mapping.Releases
import NamespaceOwnership.Proofs.Moments

/-!
# Who has a right to a place keeps it

A DynaKube has a right to a feature of a namespace if it enables the feature and its selector selects the namespace
or cannot be read. An owner with such a right is not stale to its own mapping, and the guard of every other
mapping finds it live, so that no patch takes the place away. What carries this is that all that ever changes
are the labels of the features (`Cluster.Steady`), which its selector cannot see.
-/
namespace NamespaceOwnership

open Session (Runs)

/-- The DynaKubes are the same, and every namespace is still there with labels that differ at most in those of the
features. -/
structure Cluster.Steady (c c' : Cluster) : Prop where
  dynakubes : c'.dynakubes = c.dynakubes
  some : ∀ {space s}, c.spaces space = some s → ∃ s', c'.spaces space = some s' ∧ s'.labels.AgreeElsewhere s.labels

namespace Cluster.Steady

variable {c c₁ c₂ c₃ : Cluster}

theorem refl (c : Cluster) : c.Steady c := ⟨rfl, fun hs => ⟨_, hs, fun _ _ => rfl⟩⟩

theorem trans (h : c₁.Steady c₂) (h' : c₂.Steady c₃) : c₁.Steady c₃ where
  dynakubes := h'.dynakubes.trans h.dynakubes
  some hs := by
    obtain ⟨s₂, hs₂, hagree⟩ := h.some hs
    obtain ⟨s₃, hs₃, hagree'⟩ := h'.some hs₂
    exact ⟨s₃, hs₃, hagree'.trans hagree⟩

end Cluster.Steady

/-- A replacement that leaves the other labels alone. -/
theorem Exchange.Replaces.steady {x : Exchange} {space : String} {s : Space} {new : Labels × Annotations}
    (h : x.Replaces space s new) (hagree : new.1.AgreeElsewhere s.labels) : x.before.Steady x.after where
  dynakubes := by
    obtain ⟨-, -, version, -, hafter⟩ := h
    rw [hafter, Cluster.put_dynakubes]
  some := by
    intro other t ht
    obtain ⟨version, hspaces⟩ := h.spaces
    by_cases hother : other = space
    · subst hother
      cases h.2.1.symm.trans ht
      exact ⟨_, (hspaces other).trans (if_pos rfl), hagree⟩
    · exact ⟨t, ((hspaces other).trans (if_neg hother)).trans ht, fun _ _ => rfl⟩

namespace Mapper

open Ledger

/-- The DynaKube has a right to the feature, or it cannot be told that it has none. -/
def Entitled (m : Mapper) (d : DynaKube) (f : Feature) (space : String) (labels : Labels) : Prop :=
  m.Wants d f space labels ∨ d.enables f = true ∧ ∃ fault, LabelSelector.read (d.selectorFor f) = .error fault

/-- The DynaKube owns the feature and has a right to it. -/
def Rightful (m : Mapper) (d : DynaKube) (f : Feature) (space : String) (c : Cluster) : Prop :=
  ∃ s, c.spaces space = some s ∧ Labels.owner? s.labels f = some d.name ∧ m.Entitled d f space s.labels

variable {i : Interference} {m : Mapper} {a d : DynaKube} {f : Feature} {space other : String} {c c' : Cluster}
  {s : Space} {x : Exchange} {tr : List Event} {labels labels' : Labels} {st : Memory}

theorem Entitled.congr (h : m.Entitled a f space labels) (hagree : labels.AgreeElsewhere labels')
    (hplain : ∀ parsed, LabelSelector.read (a.selectorFor f) = .ok parsed → parsed.Plain) :
    m.Entitled a f space labels' :=
  h.imp_left fun hw => hw.congr hagree hplain

/-- A claim is not void while there is a right to it. -/
theorem Entitled.not_lapsed (h : m.Entitled a f space labels) : ¬Lapsed (some a) f labels := by
  intro hlapsed
  rcases hlapsed a rfl with hoff | ⟨parsed, hread, hmissed⟩
  · have hf : a.enables f = true := h.elim (·.1) (·.1)
    rw [hoff] at hf
    cases hf
  · rcases h with ⟨-, -, parsed', hread', hselects⟩ | ⟨-, fault, hunread⟩
    · cases hread.symm.trans hread'
      rw [hmissed] at hselects
      cases hselects
    · cases hread.symm.trans hunread

/-- Nobody has a right to a claim of its own that is stale. -/
theorem Entitled.not_stale {objects : List (Option NamespaceObject)} {wanted : List (Feature × List String)}
    (h : m.Entitled a f space s.labels) (hs : c'.spaces space = some s)
    (hplain : ∀ parsed, LabelSelector.read (a.selectorFor f) = .ok parsed → parsed.Plain)
    (hlists : c.Lists objects) (hsteady : c.Steady c')
    (hwanted : m.candidates a (Namespaces.records objects) = .ok wanted) :
    (space, f) ∉ staleClaims a.name wanted (Namespaces.records objects) := by
  intro hmem
  obtain ⟨⟨r, hr, rfl, -⟩, hunwanted⟩ := (mem_staleClaims hwanted).mp hmem
  obtain ⟨-, t, ht, hrecord⟩ := (mem_records hlists).mp hr
  obtain ⟨s', hs', hagree⟩ := hsteady.some ht
  cases hs.symm.trans hs'
  rcases h with hw | ⟨hf, fault, hunread⟩
  · refine hunwanted ⟨r, hr, rfl, ?_⟩
    rw [hrecord]
    exact hw.congr hagree hplain
  · obtain ⟨parsed, hread⟩ := candidates_readable hwanted hf
    cases hread.symm.trans hunread

/-- A replacement takes the place away only if it changes its label. -/
theorem Rightful.replaced {new : Labels × Annotations} (h : m.Rightful a f space x.before)
    (hplain : ∀ parsed, LabelSelector.read (a.selectorFor f) = .ok parsed → parsed.Plain)
    (hrep : x.Replaces other s new) (hagree : new.1.AgreeElsewhere s.labels)
    (hkept : other = space → TextMap.get? s.labels f.labelKey = some a.name → m.Entitled a f space s.labels →
      TextMap.get? new.1 f.labelKey = some a.name) : m.Rightful a f space x.after := by
  obtain ⟨t, ht, howner, hentitled⟩ := h
  obtain ⟨version, hspaces⟩ := hrep.spaces
  by_cases hother : space = other
  · subst hother
    cases hrep.2.1.symm.trans ht
    obtain ⟨hlabel, hne⟩ := Labels.owner?_eq_some_iff.mp howner
    exact ⟨_, (hspaces space).trans (if_pos rfl), Labels.owner?_eq_some_iff.mpr ⟨hkept rfl hlabel hentitled, hne⟩,
      hentitled.congr hagree.symm hplain⟩
  · exact ⟨t, ((hspaces space).trans (if_neg hother)).trans ht, howner, hentitled⟩

/-- Claims of another name may be dropped. -/
theorem Rightful.dropped {name : String} {todo : List Claim} (h : m.Rightful a f space x.before)
    (hplain : ∀ parsed, LabelSelector.read (a.selectorFor f) = .ok parsed → parsed.Plain)
    (hdrops : Drops name todo x) (hname : name ≠ a.name) : m.Rightful a f space x.after := by
  obtain ⟨⟨other, g⟩, s, -, hheld, hrep⟩ := hdrops
  refine h.replaced hplain hrep (erased_agree s.labels g) fun _ hlabel _ => ?_
  have hg : f ≠ g := by
    rintro rfl
    exact hname (Option.some.inj (hheld.symm.trans hlabel))
  rw [TextMap.get?_erase, if_neg (mt Feature.labelKey_inj.mp hg), hlabel]

/-- A guard that saw the DynaKube of the owner, as it is, finds the place taken. -/
theorem Entitled.not_free {self : String} (h : m.Entitled a f space labels)
    (howner : Labels.owner? labels f = some a.name) (hself : a.name ≠ self) (hknown : st.Known tr)
    (hseen : ∀ y, .asked y ∈ tr → y.before.Stored a) : ¬Free self labels st f := by
  intro hfree
  obtain ⟨found, hfound, hlapsed⟩ := hfree a.name howner hself
  have hread := hknown a.name
  rw [hfound] at hread
  obtain ⟨y, hy, hshows⟩ := hread
  have hmem : .asked y ∈ tr := (mem_readings.mp (hy ▸ List.mem_singleton_self y)).1
  obtain ⟨object, hobject, hvalid⟩ := hseen y hmem
  cases found with
  | none =>
    have hnone : y.before.dynakubes a.name = none := hshows
    rw [hobject] at hnone
    cases hnone
  | some d =>
    obtain ⟨object', hobject', hvalid'⟩ := hshows
    cases hobject.symm.trans hobject'
    cases hvalid.symm.trans hvalid'
    exact h.not_lapsed hlapsed

/-- Every patch of a mapping is steady, whatever it is mapped for. -/
theorem map_steady {deadline : Option Int} {r : Except Fault MappingResult} (hi : i.Truthful)
    (h : Runs i (m.map d deadline).run c tr r c') : ∀ x ∈ accepted tr, x.before.Steady x.after := by
  intro x hx
  rcases map_grounded hi h with ⟨fault, -, hnone⟩ | ⟨c₁, objects, wanted, rest, -, -, -, -, hground, -⟩
  · rw [hnone] at hx
    cases hx
  obtain ⟨past, hpast⟩ := hground.of_mem hx
  cases hpast with
  | dropped mem held replaces => exact replaces.steady (erased_agree _ _)
  | claimed mem replaces based known free => exact replaces.steady (claimed_agree _ _ _)

/-- Among bystanders no mapping takes a place from one who has a right to it. -/
theorem map_keeps {deadline : Option Int} {r : Except Fault MappingResult} (hi : i.Truthful)
    (hmoves : ∀ {c c'}, i.moves c c' → c.Steady c' ∧ c'.Stored a) (hd : d.name = a.name → d = a)
    (hplain : ∀ parsed, LabelSelector.read (a.selectorFor f) = .ok parsed → parsed.Plain)
    (h : Runs i (m.map d deadline).run c tr r c') (hx : x ∈ accepted tr)
    (hright : m.Rightful a f space x.before) : m.Rightful a f space x.after := by
  have hsteady : (moments c tr c').Pairwise Cluster.Steady :=
    h.pairwise .refl .trans (fun hm => (hmoves hm).1) (map_steady hi h)
  rcases map_grounded hi h with ⟨fault, -, hnone⟩ | ⟨c₁, objects, wanted, rest, -, hlists, hwanted, rfl, hground, -⟩
  · rw [hnone] at hx
    cases hx
  obtain ⟨hmem, hsome⟩ := mem_accepted.mp hx
  obtain ⟨pre, post, htr⟩ := List.append_of_mem hmem
  cases hground.split htr hsome with
  | @dropped other g s mem held replaces =>
    refine hright.replaced hplain replaces (erased_agree s.labels g) fun hother hlabel hentitled => ?_
    have hg : f ≠ g := by
      rintro rfl
      subst hother
      -- then the claim is dropped as stale by its own DynaKube, which has wanted it ever since the listing
      obtain rfl := hd (Option.some.inj (held.symm.trans hlabel))
      have hrest : .asked x ∈ rest := (List.mem_cons.mp hmem).resolve_left fun heq => by
        cases heq
        cases hsome
      have hlisted : c₁.Steady x.before :=
        List.rel_of_pairwise_cons (List.pairwise_cons.mp hsteady).2 (before_mem_moments hrest c₁ c')
      exact hentitled.not_stale replaces.2.1 hplain hlists hlisted hwanted mem
    rw [TextMap.get?_erase, if_neg (mt Feature.labelKey_inj.mp hg), hlabel]
  | @claimed other features s st mem replaces based known free =>
    refine hright.replaced hplain replaces (claimed_agree _ _ _) fun hother hlabel hentitled => ?_
    rw [get?_claimed]
    by_cases hf : ∃ g ∈ features, f.labelKey = g.labelKey
    · rw [if_pos hf]
      obtain ⟨g, hg, hkey⟩ := hf
      obtain rfl := Feature.labelKey_inj.mp hkey
      by_contra hself
      -- a rival that overwrites the claim has found the DynaKube not to be live, which it is whenever it is read
      have hseen : ∀ y, .asked y ∈ pre → y.before.Stored a := fun y hy => by
        obtain ⟨c₀, hm⟩ := h.exists_moved (htr ▸ List.mem_append_left _ hy)
        exact (hmoves hm).2
      obtain ⟨t, -, howner, -⟩ := hright
      have hne : a.name ≠ "" := (Labels.owner?_eq_some_iff.mp howner).2
      have howner : Labels.owner? s.labels f = some a.name := Labels.owner?_eq_some_iff.mpr ⟨hlabel, hne⟩
      exact hentitled.not_free howner (fun heq => hself (by rw [heq])) known hseen (free f hg)
    · rw [if_neg hf, hlabel]

end Mapper
end NamespaceOwnership
