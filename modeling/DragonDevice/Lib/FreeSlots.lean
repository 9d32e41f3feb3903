/-
  Lib/FreeSlots.lean --- slots of a fixed pool, taken lowest first and given back.

  A pool is a list of flags, set for the slots that are in use.  The elements of a list take
  slots one after the other, each the lowest that is free; the search for it starts where the
  one before it ended.  An index outside the pool is an error.
-/
import Mathlib.Data.List.Nodup

set_option autoImplicit false

namespace DragonDevice.Lib

universe u

/-! ## Taking and giving back -/

/-- The lowest free slot from `k` on, or `none` when the search leaves the pool. -/
def nextFree (pool : List Bool) (k : Nat) : Option Nat :=
  ((pool.drop k).findIdx? fun used => !used).map fun d => k + d

/-- Each element of the list takes the lowest free slot from `k` on. -/
def takeSlots {α : Type u} (assign : α → Nat → α) :
    List α → Nat → List Bool → Option (List α × List Bool)
  | [], _, pool => some ([], pool)
  | a :: rest, k, pool =>
      (nextFree pool k).bind fun s =>
        (takeSlots assign rest s (pool.set s true)).bind fun r =>
          some (assign a s :: r.1, r.2)

def giveBack : List Nat → List Bool → Option (List Bool)
  | [], pool => some pool
  | s :: rest, pool => if s < pool.length then giveBack rest (pool.set s false) else none

/-! ## One slot -/

theorem nextFree_spec {pool : List Bool} {k : Nat} (hbelow : ∀ i < k, pool[i]? = some true)
    (hroom : pool.count true < pool.length) :
    ∃ s, nextFree pool k = some s ∧ k ≤ s ∧ pool[s]? = some false ∧
      ∀ i < s, pool[i]? = some true := by
  unfold nextFree
  cases hfind : (pool.drop k).findIdx? fun used => !used with
  | none =>
      have hall : ∀ x ∈ pool, true = x := by
        intro x hx
        obtain ⟨i, hi⟩ := List.getElem?_of_mem hx
        by_cases hik : i < k
        · rw [hbelow i hik] at hi
          exact Option.some.inj hi
        · have hdrop : (pool.drop k)[i - k]? = some x := by
            rw [List.getElem?_drop, Nat.add_sub_cancel' (Nat.le_of_not_lt hik)]
            exact hi
          have hused := List.findIdx?_eq_none_iff.mp hfind x (List.mem_of_getElem? hdrop)
          simpa using hused.symm
      rw [List.count_eq_length.mpr hall] at hroom
      exact absurd hroom (Nat.lt_irrefl _)
  | some d =>
      obtain ⟨hd, hfree, hbusy⟩ := List.findIdx?_eq_some_iff_getElem.mp hfind
      rw [List.getElem_drop, Bool.not_eq_true'] at hfree
      rw [List.length_drop] at hd
      refine ⟨k + d, rfl, Nat.le_add_right k d, ?_, fun i hi => ?_⟩
      · rw [List.getElem?_eq_getElem (by omega), hfree]
      · by_cases hik : i < k
        · exact hbelow i hik
        · have hused := hbusy (i - k) (by omega)
          have hindex : k + (i - k) = i := by omega
          simp only [List.getElem_drop, hindex, Bool.not_eq_true', Bool.not_eq_false] at hused
          rw [List.getElem?_eq_getElem (by omega), hused]

theorem getElem?_set_true {pool : List Bool} {s : Nat} (hs : pool[s]? = some false) (i : Nat) :
    (pool.set s true)[i]? = some true ↔ pool[i]? = some true ∨ i = s := by
  have hlt := (List.getElem?_eq_some_iff.mp hs).1
  by_cases his : i = s
  · subst his
    simp [hlt]
  · rw [List.getElem?_set_ne (Ne.symm his)]
    simp [his]

theorem getElem?_set_false {pool : List Bool} (s i : Nat) :
    (pool.set s false)[i]? = some true ↔ pool[i]? = some true ∧ i ≠ s := by
  by_cases his : i = s
  · subst his
    simp [List.getElem?_set_self']
  · rw [List.getElem?_set_ne (Ne.symm his)]
    simp [his]

theorem count_set_true {pool : List Bool} {s : Nat} (hs : pool[s]? = some false) :
    (pool.set s true).count true = pool.count true + 1 := by
  obtain ⟨hlt, hget⟩ := List.getElem?_eq_some_iff.mp hs
  rw [List.count_set hlt, hget]
  rfl

theorem count_set_false {pool : List Bool} {s : Nat} (hs : pool[s]? = some true) :
    (pool.set s false).count true + 1 = pool.count true := by
  obtain ⟨hlt, hget⟩ := List.getElem?_eq_some_iff.mp hs
  have hpos : 0 < pool.count true := List.count_pos_iff.mpr (hget ▸ List.getElem_mem hlt)
  rw [List.count_set hlt, hget]
  simp only [beq_self_eq_true, if_true]
  have hne : (false == true) = false := rfl
  rw [hne]
  simp only [Bool.false_eq_true, if_false]
  omega

/-! ## A list of slots -/

/-- The slots taken from a pool. -/
structure SlotsTaken (pool pool' : List Bool) (slots : List Nat) : Prop where
  length : pool'.length = pool.length
  ascending : slots.Pairwise (· < ·)
  free : ∀ s ∈ slots, pool[s]? = some false
  taken : ∀ i, pool'[i]? = some true ↔ pool[i]? = some true ∨ i ∈ slots
  lowest : ∀ s ∈ slots, ∀ i < s, pool'[i]? = some true
  count : pool'.count true = pool.count true + slots.length

theorem SlotsTaken.nodup {pool pool' : List Bool} {slots : List Nat}
    (h : SlotsTaken pool pool' slots) : slots.Nodup :=
  h.ascending.imp fun hlt => Nat.ne_of_lt hlt

/-- There is a slot for each element while the pool has room. -/
theorem takeSlots_spec {α : Type u} (assign : α → Nat → α) :
    ∀ (l : List α) (k : Nat) (pool : List Bool), (∀ i < k, pool[i]? = some true) →
      l.length + pool.count true ≤ pool.length →
      ∃ slots pool', slots.length = l.length ∧
        takeSlots assign l k pool = some (List.zipWith assign l slots, pool') ∧
        SlotsTaken pool pool' slots := by
  intro l
  induction l with
  | nil =>
      intro k pool _ _
      refine ⟨[], pool, rfl, rfl, rfl, List.Pairwise.nil, ?_, fun i => ?_, ?_, rfl⟩
      · exact fun s hs => nomatch hs
      · simp
      · exact fun s hs => nomatch hs
  | cons a rest ih =>
      intro k pool hbelow hroom
      rw [List.length_cons] at hroom
      obtain ⟨s, hnext, _, hfree, hbusy⟩ := nextFree_spec hbelow (by omega)
      have hbelow' : ∀ i < s, (pool.set s true)[i]? = some true := fun i hi =>
        (getElem?_set_true hfree i).mpr (Or.inl (hbusy i hi))
      obtain ⟨slots, pool', hlen, htake, htaken⟩ := ih s (pool.set s true) hbelow'
        (by rw [count_set_true hfree, List.length_set]; omega)
      have habove : ∀ s' ∈ slots, s < s' := by
        intro s' hs'
        have hfree' := htaken.free s' hs'
        apply Nat.lt_of_not_le
        intro hle
        have hused : (pool.set s true)[s']? = some true := by
          rw [getElem?_set_true hfree]
          cases Nat.lt_or_eq_of_le hle with
          | inl hlt => exact Or.inl (hbusy s' hlt)
          | inr heq => exact Or.inr heq
        rw [hfree'] at hused
        cases hused
      refine ⟨s :: slots, pool', congrArg (· + 1) hlen, ?_, ?_, ?_, fun s' hs' => ?_, fun i => ?_,
        fun s' hs' i hi => ?_, ?_⟩
      · rw [takeSlots, hnext, Option.bind_some, htake]
        rfl
      · rw [htaken.length, List.length_set]
      · exact List.Pairwise.cons habove htaken.ascending
      · cases List.mem_cons.mp hs' with
        | inl heq =>
            rw [heq]
            exact hfree
        | inr hs' =>
            have hget := htaken.free s' hs'
            rw [List.getElem?_set_ne (Nat.ne_of_lt (habove s' hs'))] at hget
            exact hget
      · rw [htaken.taken, getElem?_set_true hfree, List.mem_cons, or_assoc]
      · cases List.mem_cons.mp hs' with
        | inl heq =>
            rw [heq] at hi
            exact (htaken.taken i).mpr (Or.inl (hbelow' i hi))
        | inr hs' => exact htaken.lowest s' hs' i hi
      · rw [htaken.count, count_set_true hfree, List.length_cons]
        omega

/-- The slots given back to a pool. -/
structure SlotsGiven (pool pool' : List Bool) (slots : List Nat) : Prop where
  length : pool'.length = pool.length
  given : ∀ i, pool'[i]? = some true ↔ pool[i]? = some true ∧ i ∉ slots
  count : pool'.count true + slots.length = pool.count true

theorem giveBack_spec :
    ∀ (slots : List Nat) (pool : List Bool), slots.Nodup →
      (∀ s ∈ slots, pool[s]? = some true) →
      ∃ pool', giveBack slots pool = some pool' ∧ SlotsGiven pool pool' slots := by
  intro slots
  induction slots with
  | nil =>
      intro pool _ _
      exact ⟨pool, rfl, rfl, fun i => by simp, rfl⟩
  | cons s rest ih =>
      intro pool hnodup hused
      obtain ⟨hs, hrest⟩ := List.nodup_cons.mp hnodup
      have hs' := hused s List.mem_cons_self
      have hlt := (List.getElem?_eq_some_iff.mp hs').1
      obtain ⟨pool', hgive, hgiven⟩ := ih (pool.set s false) hrest fun s' hmem => by
        rw [getElem?_set_false]
        exact ⟨hused s' (List.mem_cons_of_mem s hmem), fun heq => hs (heq ▸ hmem)⟩
      refine ⟨pool', ?_, ?_, fun i => ?_, ?_⟩
      · rw [giveBack, if_pos hlt, hgive]
      · rw [hgiven.length, List.length_set]
      · rw [hgiven.given, getElem?_set_false, List.mem_cons, not_or, and_assoc]
      · have hcount := hgiven.count
        have hone := count_set_false hs'
        rw [List.length_cons]
        omega

/-! ## What a success tells -/

theorem nextFree_some {pool : List Bool} {k s : Nat} (h : nextFree pool k = some s) :
    k ≤ s ∧ pool[s]? = some false := by
  obtain ⟨d, hfind, rfl⟩ := Option.map_eq_some_iff.mp h
  obtain ⟨hd, hfree, _⟩ := List.findIdx?_eq_some_iff_getElem.mp hfind
  rw [List.getElem_drop, Bool.not_eq_true'] at hfree
  rw [List.length_drop] at hd
  exact ⟨Nat.le_add_right k d, by rw [List.getElem?_eq_getElem (by omega), hfree]⟩

/-- The slots of a success are ascending, and were free. -/
theorem takeSlots_some {α : Type u} {assign : α → Nat → α} :
    ∀ {l l' : List α} {k : Nat} {pool pool' : List Bool},
      takeSlots assign l k pool = some (l', pool') →
      ∃ slots, slots.length = l.length ∧ l' = List.zipWith assign l slots ∧
        slots.Pairwise (· < ·) ∧ (∀ s ∈ slots, k ≤ s ∧ pool[s]? = some false) ∧
        pool'.length = pool.length := by
  intro l
  induction l with
  | nil =>
      intro l' k pool pool' h
      cases h
      exact ⟨[], rfl, rfl, List.Pairwise.nil, fun s hs => absurd hs List.not_mem_nil, rfl⟩
  | cons a rest ih =>
      intro l' k pool pool' h
      obtain ⟨s, hnext, h⟩ := Option.bind_eq_some_iff.mp h
      obtain ⟨⟨rest', pool₁⟩, htake, h⟩ := Option.bind_eq_some_iff.mp h
      cases h
      obtain ⟨hks, hfree⟩ := nextFree_some hnext
      obtain ⟨slots, hlen, hzip, hasc, hslots, hpool⟩ := ih htake
      -- the slot that was just taken is not free any more
      have habove : ∀ s' ∈ slots, s < s' ∧ pool[s']? = some false := by
        intro s' hs'
        obtain ⟨hle, hfree'⟩ := hslots s' hs'
        have hne : s ≠ s' := by
          intro heq
          rw [heq, List.getElem?_set_self'] at hfree'
          cases hget : pool[s']? with
          | none =>
              rw [hget] at hfree'
              cases hfree'
          | some b =>
              rw [hget] at hfree'
              cases hfree'
        rw [List.getElem?_set_ne hne] at hfree'
        exact ⟨Nat.lt_of_le_of_ne hle hne, hfree'⟩
      refine ⟨s :: slots, congrArg (· + 1) hlen, congrArg (assign a s :: ·) hzip,
        List.Pairwise.cons (fun s' hs' => (habove s' hs').1) hasc, fun s' hs' => ?_, ?_⟩
      · cases List.mem_cons.mp hs' with
        | inl heq =>
            rw [heq]
            exact ⟨hks, hfree⟩
        | inr hs' =>
            have hs := habove s' hs'
            exact ⟨by omega, hs.2⟩
      · rw [hpool, List.length_set]

/-- What is given back are slots of the pool. -/
theorem giveBack_some {slots : List Nat} {pool pool' : List Bool}
    (h : giveBack slots pool = some pool') :
    (∀ s ∈ slots, s < pool.length) ∧ pool'.length = pool.length := by
  induction slots generalizing pool with
  | nil =>
      cases h
      exact ⟨fun s hs => absurd hs List.not_mem_nil, rfl⟩
  | cons s rest ih =>
      unfold giveBack at h
      split at h
      · rename_i hlt
        obtain ⟨hrest, hlen⟩ := ih h
        rw [List.length_set] at hrest hlen
        refine ⟨fun s' hs' => ?_, hlen⟩
        cases List.mem_cons.mp hs' with
        | inl heq =>
            rw [heq]
            exact hlt
        | inr hs' => exact hrest s' hs'
      · cases h

end DragonDevice.Lib
