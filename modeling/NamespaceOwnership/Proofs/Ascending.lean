import Mathlib.Data.List.Sort

/-!
# Lists in the order of a text

A list that is sorted by a text ascends by it, and strictly so if no text comes twice. A list that ascends strictly is
determined by its elements.
-/
namespace NamespaceOwnership

variable {α : Type}

theorem nodup_eraseDups [BEq α] [LawfulBEq α] (l : List α) : l.eraseDups.Nodup := by
  induction hn : l.length using Nat.strongRecOn generalizing l with
  | ind n ih =>
    cases l with
    | nil => simp
    | cons a l =>
      have hshorter : (l.filter fun b => !b == a).length < n := by
        have hle := List.length_filter_le (fun b => !b == a) l
        rw [List.length_cons] at hn
        omega
      rw [List.eraseDups_cons, List.nodup_cons]
      exact ⟨by simp, ih _ hshorter _ rfl⟩

theorem ascending_mergeSort (key : α → String) (l : List α) :
    (l.mergeSort fun a b => decide (key a ≤ key b)).Pairwise fun a b => key a ≤ key b := by
  have htrans : ∀ a b c, decide (key a ≤ key b) = true → decide (key b ≤ key c) = true →
      decide (key a ≤ key c) = true := fun a b c hab hbc =>
    decide_eq_true (String.le_trans (of_decide_eq_true hab) (of_decide_eq_true hbc))
  have htotal : ∀ a b, (decide (key a ≤ key b) || decide (key b ≤ key a)) = true := fun a b => by
    simpa using String.le_total (key a) (key b)
  exact (List.pairwise_mergeSort htrans htotal l).imp of_decide_eq_true

/-- Sorting a list in which nothing comes twice leaves it strictly ascending. -/
theorem mergeSort_ascending (key : α → String) {l : List α} (h : (l.map key).Nodup) :
    (l.mergeSort fun a b => decide (key a ≤ key b)).Pairwise fun a b => key a < key b := by
  have hnodup : ((l.mergeSort fun a b => decide (key a ≤ key b)).map key).Nodup :=
    ((l.mergeSort_perm _).map key).nodup_iff.mpr h
  rw [List.Nodup, List.pairwise_map] at hnodup
  refine ((ascending_mergeSort key l).and hnodup).imp fun {a b} hab => ?_
  by_contra hnot
  exact hab.2 (String.le_antisymm hab.1 hnot)

theorem eq_of_ascending {r : α → α → Prop} (hasymm : ∀ a b, r a b → ¬r b a) {l l' : List α}
    (h : l.Pairwise r) (h' : l'.Pairwise r) (hmem : ∀ a, a ∈ l ↔ a ∈ l') : l = l' :=
  haveI : Std.Irrefl r := ⟨fun a ha => hasymm a a ha ha⟩
  haveI : Std.Antisymm r := ⟨fun a b hab hba => absurd hba (hasymm a b hab)⟩
  h.eq_of_mem_iff h' hmem

end NamespaceOwnership
