import Mathlib.Data.Set.Insert
import Mathlib.Logic.Relation
import NamespaceOwnership.Session.Basic

/-!
# The cluster behind the API

A `Cluster` is what the API server holds: namespaces, each at a version, and DynaKubes. Whoever changes a
namespace, it gets a version that was never given out before. A namespace that is seen twice at one version
was therefore not touched in between, and this is all that the pinning of versions rests on.

`Replies` says how the server may answer a call. Which calls may fail, and what other parties do between two
calls, is left to an `Interference`.
-/
namespace NamespaceOwnership

/-- A namespace as the API server holds it. -/
structure Space where
  labels : Labels
  annotations : Annotations
  version : String

def Space.record (name : String) (s : Space) : NamespaceRecord :=
  ⟨name, s.labels, s.annotations, some s.version⟩

@[simp] theorem Space.record_name (name : String) (s : Space) : (s.record name).name = name := rfl

@[simp] theorem Space.record_labels (name : String) (s : Space) :
    (s.record name).labels = s.labels := rfl

@[simp] theorem Space.record_annotations (name : String) (s : Space) :
    (s.record name).annotations = s.annotations := rfl

@[simp] theorem Space.record_version (name : String) (s : Space) :
    (s.record name).version = some s.version := rfl

/-- The versions that were ever given out are remembered. -/
structure Cluster where
  spaces : String → Option Space
  dynakubes : String → Option Value
  issued : Set String
  version_mem : ∀ {name s}, spaces name = some s → s.version ∈ issued

namespace Cluster

def blank : Cluster := ⟨fun _ => none, fun _ => none, ∅, by simp⟩

def put (c : Cluster) (name : String) (s : Space) : Cluster where
  spaces := Function.update c.spaces name (some s)
  dynakubes := c.dynakubes
  issued := insert s.version c.issued
  version_mem := by
    intro other t ht
    by_cases h : other = name
    · subst h
      simp only [Function.update_self, Option.some.injEq] at ht
      exact .inl (ht ▸ rfl)
    · exact .inr (c.version_mem (by simpa [h] using ht))

def drop (c : Cluster) (name : String) : Cluster where
  spaces := Function.update c.spaces name none
  dynakubes := c.dynakubes
  issued := c.issued
  version_mem := by
    intro other t ht
    by_cases h : other = name
    · subst h
      simp at ht
    · exact c.version_mem (by simpa [h] using ht)

def setDynaKube (c : Cluster) (name : String) (object : Option Value) : Cluster :=
  { c with dynakubes := Function.update c.dynakubes name object }

@[simp] theorem put_spaces_self (c : Cluster) (name : String) (s : Space) :
    (c.put name s).spaces name = some s := by simp [put]

@[simp] theorem put_spaces_of_ne (c : Cluster) {name other : String} (s : Space) (h : other ≠ name) :
    (c.put name s).spaces other = c.spaces other := by simp [put, h]

@[simp] theorem put_dynakubes (c : Cluster) (name : String) (s : Space) :
    (c.put name s).dynakubes = c.dynakubes := rfl

@[simp] theorem drop_spaces_self (c : Cluster) (name : String) :
    (c.drop name).spaces name = none := by simp [drop]

@[simp] theorem drop_spaces_of_ne (c : Cluster) {name other : String} (h : other ≠ name) :
    (c.drop name).spaces other = c.spaces other := by simp [drop, h]

/-- A change that some party makes. -/
inductive Change (c : Cluster) : Cluster → Prop where
  | put (name : String) (s : Space) (fresh : s.version ∉ c.issued) : Change c (c.put name s)
  | drop (name : String) : Change c (c.drop name)
  | dynakube (name : String) (object : Option Value) : Change c (c.setDynaKube name object)

/-- Any number of changes. -/
abbrev Evolves : Cluster → Cluster → Prop := Relation.ReflTransGen Change

/-- A version was given out and the namespace has another one or is gone. -/
def Past (c : Cluster) (name version : String) : Prop :=
  version ∈ c.issued ∧ ∀ s, c.spaces name = some s → s.version ≠ version

theorem Change.past {c c' : Cluster} {name version : String} (h : Change c c')
    (hp : c.Past name version) : c'.Past name version := by
  cases h with
  | put other t fresh =>
    refine ⟨.inr hp.1, fun s hs => ?_⟩
    by_cases hn : name = other
    · subst hn
      simp only [put_spaces_self, Option.some.injEq] at hs
      rintro rfl
      exact fresh (hs ▸ hp.1)
    · exact hp.2 s (by simpa [hn] using hs)
  | drop other =>
    refine ⟨hp.1, fun s hs => ?_⟩
    by_cases hn : name = other
    · subst hn
      simp at hs
    · exact hp.2 s (by simpa [hn] using hs)
  | dynakube => exact hp

/-- A change leaves a namespace alone or takes its version away for good. -/
theorem Change.same_or_past {c c' : Cluster} {name : String} {s : Space} (h : Change c c')
    (hs : c.spaces name = some s) : c'.spaces name = some s ∨ c'.Past name s.version := by
  have hissued := c.version_mem hs
  cases h with
  | put other t fresh =>
    by_cases hn : name = other
    · subst hn
      refine .inr ⟨.inr hissued, fun u hu => ?_⟩
      simp only [put_spaces_self, Option.some.injEq] at hu
      rintro hv
      exact fresh (hu ▸ hv ▸ hissued)
    · exact .inl (by simpa [hn] using hs)
  | drop other =>
    by_cases hn : name = other
    · subst hn
      exact .inr ⟨hissued, by simp⟩
    · exact .inl (by simpa [hn] using hs)
  | dynakube => exact .inl hs

theorem Evolves.past {c c' : Cluster} {name version : String} (h : Evolves c c')
    (hp : c.Past name version) : c'.Past name version := by
  induction h with
  | refl => exact hp
  | tail _ hstep ih => exact hstep.past ih

theorem Evolves.same_or_past {c c' : Cluster} {name : String} {s : Space} (h : Evolves c c')
    (hs : c.spaces name = some s) : c'.spaces name = some s ∨ c'.Past name s.version := by
  induction h with
  | refl => exact .inl hs
  | tail _ hstep ih =>
    rcases ih with ih | ih
    · exact hstep.same_or_past ih
    · exact .inr (hstep.past ih)

/-- Between two moments at which a namespace has the same version it is the same. -/
theorem Evolves.same_of_version {c₁ c₂ c₃ : Cluster} {name : String} {s t : Space}
    (h : Evolves c₁ c₂) (h' : Evolves c₂ c₃) (hs : c₁.spaces name = some s)
    (ht : c₃.spaces name = some t) (hv : t.version = s.version) :
    c₂.spaces name = some s ∧ t = s := by
  rcases h.same_or_past hs with h₂ | hp
  · rcases h'.same_or_past h₂ with h₃ | hp
    · exact ⟨h₂, by simpa [h₃] using ht.symm⟩
    · exact absurd hv (hp.2 t ht)
  · exact absurd hv ((h'.past hp).2 t ht)

/-- Each namespace is listed once, as it is. -/
def Lists (c : Cluster) (objects : List (Option NamespaceObject)) : Prop :=
  ((objects.map NamespaceRecord.ofObject).map (·.name)).Nodup ∧
    ∀ r, r ∈ objects.map NamespaceRecord.ofObject ↔
      ∃ s, c.spaces r.name = some s ∧ r = s.record r.name

/-- Each DynaKube is listed once. -/
def ListsDynaKubes (c : Cluster) (response : Value) : Prop :=
  ∃ (entries : List (String × Value)) (names : List String), response = .fields entries ∧ names.Nodup ∧
    (∀ name, name ∈ names ↔ c.dynakubes name ≠ none) ∧
    Value.entry entries "items" = .list (names.filterMap c.dynakubes)

/-- What the server may answer to a call, and the cluster as it is then. A call that fails has no effect;
one that pins a version goes through only at that version. -/
def Replies (fails : Cluster → ApiCall → CallFailure → Prop) (c : Cluster) :
    (call : ApiCall) → Except CallFailure call.Reply → Cluster → Prop
  | call, .error failure, c' => fails c call failure ∧ c' = c
  | .readNamespace name, .ok object, c' =>
    c' = c ∧ ∃ s, c.spaces name = some s ∧ NamespaceRecord.ofObject object = s.record name
  | .listNamespaces _, .ok objects, c' => c' = c ∧ c.Lists objects
  | .patchNamespace name patch, .ok _, c' =>
    ∃ s version, c.spaces name = some s ∧ (∀ pin ∈ patch.pinned, pin = s.version) ∧
      version ∉ c.issued ∧ c' = c.put name ⟨patch.labels, patch.annotations, version⟩
  | .getDynaKube name, .ok object, c' =>
    c' = c ∧ ∃ text, name = .text text ∧ c.dynakubes text = some object
  | .listDynaKubes, .ok response, c' => c' = c ∧ c.ListsDynaKubes response
  | _, .ok _, c' => c' = c

theorem Replies.evolves {fails : Cluster → ApiCall → CallFailure → Prop} {c c' : Cluster}
    {call : ApiCall} {reply : Except CallFailure call.Reply} (h : c.Replies fails call reply c') :
    Evolves c c' := by
  cases reply with
  | error failure => exact h.2 ▸ .refl
  | ok reply =>
    cases call with
    | patchNamespace name patch =>
      obtain ⟨s, version, -, -, fresh, rfl⟩ := h
      exact .single (.put name _ fresh)
    | readNamespace name => exact h.1 ▸ .refl
    | listNamespaces selector => exact h.1 ▸ .refl
    | getDynaKube name => exact h.1 ▸ .refl
    | listDynaKubes => exact h.1 ▸ .refl
    | patchStatus name report => exact Eq.subst (h : c' = c).symm .refl
    | openWatch version timeout => exact Eq.subst (h : c' = c).symm .refl
    | readLease lease => exact Eq.subst (h : c' = c).symm .refl
    | createLease lease spec => exact Eq.subst (h : c' = c).symm .refl
    | replaceLease lease spec version => exact Eq.subst (h : c' = c).symm .refl

end Cluster
end NamespaceOwnership
