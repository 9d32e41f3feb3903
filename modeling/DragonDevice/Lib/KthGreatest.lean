/-
  Lib/KthGreatest.lean --- the element in a place of a list that is sorted downwards.
-/
import Mathlib.Data.List.Sort

set_option autoImplicit false

namespace DragonDevice.Lib

universe u

variable {α : Type u} [LinearOrder α]

/-- The elements, the greatest first. -/
def greatestFirst (l : List α) : List α := l.insertionSort (· ≥ ·)

theorem perm_greatestFirst (l : List α) : (greatestFirst l).Perm l :=
  List.perm_insertionSort _ l

/-- What comes from a place on is not above the element in that place. -/
theorem greatestFirst_drop_le {l : List α} {k : Nat} {t : α}
    (h : (greatestFirst l)[k]? = some t) : ∀ a ∈ (greatestFirst l).drop k, a ≤ t := by
  have hsorted : (greatestFirst l).Pairwise (· ≥ ·) := List.pairwise_insertionSort _ l
  obtain ⟨hk, hget⟩ := List.getElem?_eq_some_iff.mp h
  have hdrop := hsorted.drop (i := k)
  rw [List.drop_eq_getElem_cons hk, hget] at hdrop ⊢
  intro a ha
  rcases List.mem_cons.mp ha with rfl | hrest
  · exact le_refl a
  · exact List.rel_of_pairwise_cons hdrop hrest

/-- The element in the last place is the least. -/
theorem greatestFirst_last_le {l : List α} {k : Nat} {t : α}
    (h : (greatestFirst l)[k]? = some t) (hlast : l.length ≤ k + 1) : ∀ a ∈ l, t ≤ a := by
  have hsorted : (greatestFirst l).Pairwise (· ≥ ·) := List.pairwise_insertionSort _ l
  obtain ⟨hk, hget⟩ := List.getElem?_eq_some_iff.mp h
  intro a ha
  obtain ⟨i, hi, rfl⟩ := List.mem_iff_getElem.mp ((perm_greatestFirst l).mem_iff.mpr ha)
  have hlen := (perm_greatestFirst l).length_eq
  rcases Nat.lt_or_eq_of_le (show i ≤ k by omega) with hlt | rfl
  · rw [← hget]
    exact List.pairwise_iff_getElem.mp hsorted i k hi hk hlt
  · exact le_of_eq hget.symm

/-- No more elements are above the one in place `k` than come before it. -/
theorem length_filter_above_le {l : List α} {k : Nat} {t : α}
    (h : (greatestFirst l)[k]? = some t) : (l.filter fun a => t < a).length ≤ k := by
  have hrest : ((greatestFirst l).drop k).filter (fun a => t < a) = [] := by
    rw [List.filter_eq_nil_iff]
    intro a ha
    rw [decide_eq_true_iff]
    exact not_lt_of_ge (greatestFirst_drop_le h a ha)
  calc (l.filter fun a => t < a).length
      = ((greatestFirst l).filter fun a => t < a).length :=
        ((perm_greatestFirst l).filter _).length_eq.symm
    _ = (((greatestFirst l).take k ++ (greatestFirst l).drop k).filter fun a => t < a).length := by
        rw [List.take_append_drop]
    _ = (((greatestFirst l).take k).filter fun a => t < a).length := by
        rw [List.filter_append, hrest, List.append_nil]
    _ ≤ ((greatestFirst l).take k).length := List.length_filter_le _ _
    _ ≤ k := List.length_take_le _ _

end DragonDevice.Lib
