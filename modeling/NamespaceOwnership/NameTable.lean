import NamespaceOwnership.Value.Basic

/-!
# Tables of names

A table has at most one entry for each name, and new names go to its end. A name read from an event may be
any raw value; lists and mappings have no entries.
-/
namespace NamespaceOwnership

structure NameTable (α : Type) where
  entries : List (Value × α)
  deriving Repr

namespace NameTable

variable {α : Type}

def empty : NameTable α := ⟨[]⟩

def size (t : NameTable α) : Nat := t.entries.length

def isEmpty (t : NameTable α) : Bool := t.entries.isEmpty

def get? (t : NameTable α) (name : Value) : Option α :=
  (t.entries.find? fun e => e.1.sameName name).map Prod.snd

def contains (t : NameTable α) (name : Value) : Bool := (t.get? name).isSome

private def replace (name : Value) (a : α) : List (Value × α) → List (Value × α)
  | [] => [(name, a)]
  | e :: rest => if e.1.sameName name then (e.1, a) :: rest else e :: replace name a rest

def set (t : NameTable α) (name : Value) (a : α) : NameTable α := ⟨replace name a t.entries⟩

def erase (t : NameTable α) (name : Value) : NameTable α :=
  ⟨t.entries.filter fun e => !e.1.sameName name⟩

@[simp] theorem get?_empty (name : Value) : (empty : NameTable α).get? name = none := rfl

theorem get?_set_self (t : NameTable α) {name : Value} (h : name.sameName name = true) (a : α) :
    (t.set name a).get? name = some a := by
  obtain ⟨es⟩ := t
  simp only [get?, set, Option.map_eq_some_iff]
  induction es with
  | nil => exact ⟨(name, a), by simp [replace, h], rfl⟩
  | cons e es ih =>
    by_cases he : e.1.sameName name = true
    · exact ⟨(e.1, a), by simp [replace, he], rfl⟩
    · simpa [replace, he] using ih

theorem get?_erase_self (t : NameTable α) (name : Value) : (t.erase name).get? name = none := by
  simp only [get?, erase, Option.map_eq_none_iff, List.find?_eq_none, List.mem_filter]
  rintro e ⟨-, he⟩
  simpa using he

theorem get?_set_text (t : NameTable α) (name : Value) (a : α) (text : String) :
    (t.set name a).get? (.text text) =
      if name.sameName (.text text) = true then some a else t.get? (.text text) := by
  obtain ⟨es⟩ := t
  simp only [get?, set]
  induction es with
  | nil => by_cases h : name.sameName (.text text) = true <;> simp [replace, h]
  | cons e es ih =>
    by_cases he : e.1.sameName name = true
    · -- the entry that is replaced has the text as its name if and only if the new one has
      have hsame : e.1.sameName (.text text) = name.sameName (.text text) := by
        rw [Bool.eq_iff_iff]
        constructor
        · intro h
          rw [Value.sameName_eq_text_iff.mp h, Value.text_sameName_iff] at he
          simp [he]
        · intro h
          rwa [Value.sameName_eq_text_iff.mp h] at he
      by_cases h : name.sameName (.text text) = true <;> simp [replace, he, hsame, h]
    · by_cases h : e.1.sameName (.text text) = true
      · have hname : ¬name.sameName (.text text) = true := fun hname => by
          rw [Value.sameName_eq_text_iff.mp hname] at he
          exact he h
        simp [replace, he, h, hname]
      · simpa [replace, he, h] using ih

theorem get?_erase_text (t : NameTable α) (name : Value) (text : String) :
    (t.erase name).get? (.text text) = if name.sameName (.text text) = true then none else t.get? (.text text) := by
  obtain ⟨es⟩ := t
  simp only [get?, erase]
  induction es with
  | nil => simp
  | cons e es ih =>
    by_cases he : e.1.sameName name = true
    · by_cases h : name.sameName (.text text) = true
      · simpa [he, h] using ih
      · have hother : ¬e.1.sameName (.text text) = true := fun hother => by
          rw [Value.sameName_eq_text_iff.mp hother, Value.text_sameName_iff] at he
          exact h (by simp [he])
        simpa [he, h, hother] using ih
    · by_cases h : e.1.sameName (.text text) = true
      · have hname : ¬name.sameName (.text text) = true := fun hname => by
          rw [Value.sameName_eq_text_iff.mp hname] at he
          exact he h
        simp [he, h, hname]
      · simpa [he, h] using ih

/-- What cannot be looked up cannot be crossed out. -/
theorem erase_of_not_scalar (t : NameTable α) {name : Value} (h : name.isScalar = false) : t.erase name = t := by
  obtain ⟨es⟩ := t
  simp [erase, Value.sameName_of_not_scalar h]

/-- What holds of all names of a table still does when a name is entered of which it holds. -/
theorem forall_set (P : Value → Prop) (t : NameTable α) (h : ∀ e ∈ t.entries, P e.1) {name : Value} (hname : P name)
    (a : α) : ∀ e ∈ (t.set name a).entries, P e.1 := by
  obtain ⟨es⟩ := t
  simp only [set] at h ⊢
  induction es with
  | nil => simpa [replace] using hname
  | cons e es ih =>
    have hrest : ∀ e ∈ es, P e.1 := fun e' he' => h e' (List.mem_cons_of_mem _ he')
    have hfirst : P e.1 := h e List.mem_cons_self
    by_cases he : e.1.sameName name = true
    · simpa [replace, he, hfirst] using fun v b hmem => hrest (v, b) hmem
    · simpa [replace, he, hfirst] using fun v b hmem => ih hrest (v, b) hmem

/-- No name has two entries. -/
def Distinct (t : NameTable α) : Prop := t.entries.Pairwise fun e e' => e.1.sameName e'.1 = false

theorem Distinct.set {t : NameTable α} (h : t.Distinct) (name : Value) (a : α) : (t.set name a).Distinct := by
  obtain ⟨es⟩ := t
  simp only [Distinct, NameTable.set] at h ⊢
  induction es with
  | nil => simp [replace]
  | cons e es ih =>
    obtain ⟨hfirst, hrest⟩ := List.pairwise_cons.mp h
    by_cases he : e.1.sameName name = true
    · simpa [replace, he, hrest] using fun v b hmem => hfirst (v, b) hmem
    · have hother : e.1.sameName name = false := by simpa using he
      simp only [replace, he]
      exact List.pairwise_cons.mpr ⟨forall_set (fun v => e.1.sameName v = false) ⟨es⟩ hfirst hother a, ih hrest⟩

theorem Distinct.erase {t : NameTable α} (h : t.Distinct) (name : Value) : (t.erase name).Distinct := h.filter _

/-- Each name is a text. -/
def Textual (t : NameTable α) : Prop := ∀ e ∈ t.entries, ∃ text, e.1 = .text text

theorem Textual.set {t : NameTable α} (h : t.Textual) (text : String) (a : α) : (t.set (.text text) a).Textual :=
  forall_set (fun v => ∃ text, v = .text text) t h ⟨text, rfl⟩ a

theorem Textual.erase {t : NameTable α} (h : t.Textual) (name : Value) : (t.erase name).Textual :=
  fun e he => h e (List.mem_filter.mp he).1

end NameTable
end NamespaceOwnership
