/-!
# Maps from texts to texts

Labels and annotations are finite maps whose keys keep the order of arrival: a new key goes to the
end, a present one keeps its place. All that a map means is what `get?` returns, and `same` compares
two maps by that.
-/
namespace NamespaceOwnership

structure TextMap where
  entries : List (String × String)
  deriving DecidableEq, Repr, Inhabited

namespace TextMap

def empty : TextMap := ⟨[]⟩

def get? (m : TextMap) (key : String) : Option String := m.entries.lookup key

def contains (m : TextMap) (key : String) : Bool := (m.get? key).isSome

def keys (m : TextMap) : List String := m.entries.map Prod.fst

private def replace (key value : String) : List (String × String) → List (String × String)
  | [] => [(key, value)]
  | (k, v) :: rest => if k = key then (k, value) :: rest else (k, v) :: replace key value rest

def set (m : TextMap) (key value : String) : TextMap := ⟨replace key value m.entries⟩

def erase (m : TextMap) (key : String) : TextMap := ⟨m.entries.filter (·.1 != key)⟩

/-- Both maps have the same keys with the same values, in whatever order. -/
def same (a b : TextMap) : Bool := (a.keys ++ b.keys).all fun key => a.get? key == b.get? key

@[simp] theorem get?_empty (key : String) : empty.get? key = none := rfl

theorem lookup_cons_ite {α β : Type} [BEq α] [LawfulBEq α] [DecidableEq α] (key : α) (e : α × β)
    (es : List (α × β)) :
    (e :: es).lookup key = if key = e.1 then some e.2 else es.lookup key := by
  obtain ⟨k, v⟩ := e
  by_cases h : key = k
  · simp [h]
  · have hb : (key == k) = false := beq_false_of_ne h
    simp [List.lookup_cons, hb, h]

private theorem lookup_replace (key value k : String) (es : List (String × String)) :
    (replace key value es).lookup k = if k = key then some value else es.lookup k := by
  induction es with
  | nil => simp [replace, lookup_cons_ite]
  | cons e es ih =>
    by_cases h : e.1 = key
    · by_cases hk : k = key <;> simp [replace, lookup_cons_ite, h, hk]
    · by_cases hk : k = e.1
      · simp [replace, lookup_cons_ite, h, hk]
      · simp [replace, lookup_cons_ite, h, hk, ih]

@[simp] theorem get?_set (m : TextMap) (key value k : String) :
    (m.set key value).get? k = if k = key then some value else m.get? k :=
  lookup_replace key value k m.entries

@[simp] theorem get?_erase (m : TextMap) (key k : String) :
    (m.erase key).get? k = if k = key then none else m.get? k := by
  obtain ⟨es⟩ := m
  simp only [get?, erase]
  induction es with
  | nil => simp
  | cons e es ih =>
    by_cases h : e.1 = key
    · by_cases hk : k = key
      · simpa [lookup_cons_ite, h, hk] using ih
      · simpa [lookup_cons_ite, h, hk] using ih
    · by_cases hk : k = e.1
      · simp [lookup_cons_ite, h, hk]
      · simpa [lookup_cons_ite, h, hk] using ih

private theorem lookup_isSome_iff (es : List (String × String)) (key : String) :
    (es.lookup key).isSome ↔ key ∈ es.map Prod.fst := by
  induction es with
  | nil => simp
  | cons e es ih => by_cases h : key = e.1 <;> simp [lookup_cons_ite, h, ih]

theorem contains_iff (m : TextMap) (key : String) : m.contains key = true ↔ key ∈ m.keys :=
  lookup_isSome_iff m.entries key

theorem same_iff (a b : TextMap) : a.same b = true ↔ ∀ key, a.get? key = b.get? key := by
  simp only [same, List.all_eq_true, List.mem_append, beq_iff_eq]
  refine ⟨fun h key => ?_, fun h key _ => h key⟩
  by_cases ha : key ∈ a.keys
  · exact h key (.inl ha)
  · by_cases hb : key ∈ b.keys
    · exact h key (.inr hb)
    · have ha' : a.get? key = none := by
        simpa [contains] using mt (contains_iff a key).1 ha
      have hb' : b.get? key = none := by
        simpa [contains] using mt (contains_iff b key).1 hb
      rw [ha', hb']

end TextMap

abbrev Labels := TextMap

abbrev Annotations := TextMap

end NamespaceOwnership
