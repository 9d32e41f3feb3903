/-
  Lib/DelayLine.lean --- a ring of cells that gives back what was put in some steps ago.

  A step puts a value at the write index, takes the one at the read index, and moves both
  on, around the end.  Between the read and the write index stands what has been put in and
  not taken yet.  Stretches that do not go around the end and do not meet can be copied
  at once.
-/
import DragonDevice.Lib.FlatMemory
import DragonDevice.Lib.Transducer
import Mathlib.Data.Nat.ModEq

set_option autoImplicit false

namespace DragonDevice.Lib

variable {α : Type}

/-- Cells with the two indices. -/
structure DelayRing (α : Type) where
  cells : Nat → α
  read : Nat
  write : Nat

/-- One value in, one value out. -/
def exchange (size : Nat) (ring : DelayRing α) (a : α) : DelayRing α × α :=
  (⟨Function.update ring.cells ring.write a, (ring.read + 1) % size, (ring.write + 1) % size⟩,
    Function.update ring.cells ring.write a ring.read)

/-- A stretch in, a stretch of the same length out. -/
def exchangeStretch (size : Nat) (ring : DelayRing α) (data : List α) : DelayRing α × List α :=
  (⟨store ring.cells ring.write data, (ring.read + data.length) % size,
      (ring.write + data.length) % size⟩,
    load (store ring.cells ring.write data) ring.read data.length)

theorem store_nil (cells : Nat → α) (off : Nat) : store cells off [] = cells := by
  funext k
  simp [store]

theorem store_cons (cells : Nat → α) (off : Nat) (a : α) (data : List α) :
    store cells off (a :: data) = store (Function.update cells off a) (off + 1) data := by
  funext k
  unfold store
  by_cases hk : k = off
  · subst hk
    rw [if_pos (Nat.le_refl k), if_neg (by omega), Nat.sub_self, Function.update_self]
    rfl
  · by_cases hle : off ≤ k
    · have hpos : k - off = k - (off + 1) + 1 := by omega
      rw [if_pos hle, if_pos (by omega), hpos, List.getElem?_cons_succ, Function.update_of_ne hk]
    · rw [if_neg hle, if_neg (by omega), Function.update_of_ne hk]

theorem store_of_ge (cells : Nat → α) {off k : Nat} (data : List α) (hk : off + data.length ≤ k) :
    store cells off data k = cells k := by
  unfold store
  rw [if_pos (by omega), List.getElem?_eq_none (by omega), Option.getD_none]

theorem load_succ (cells : Nat → α) (off len : Nat) :
    load cells off (len + 1) = cells off :: load cells (off + 1) len := by
  rw [Nat.add_comm len 1, load_add]
  rfl

/-- A stretch is copied as if value by value. -/
theorem exchangeStretch_eq_transduce {size : Nat} (data : List α) :
    ∀ ring : DelayRing α, ring.read < size → ring.write < size → ring.read + data.length ≤ size →
      ring.write + data.length ≤ size →
      ring.read + data.length ≤ ring.write ∨ ring.write + data.length ≤ ring.read →
      exchangeStretch size ring data = transduce (exchange size) ring data := by
  induction data with
  | nil =>
      intro ring hread hwrite _ _ _
      rw [exchangeStretch, store_nil, List.length_nil, Nat.add_zero, Nat.add_zero,
        Nat.mod_eq_of_lt hread, Nat.mod_eq_of_lt hwrite]
      rfl
  | cons a data ih =>
      intro ring hread hwrite hr hw hapart
      rw [List.length_cons] at hr hw hapart
      have hfirst : store ring.cells ring.write (a :: data) ring.read =
          Function.update ring.cells ring.write a ring.read := by
        rw [store_cons]
        rcases hapart with h | h
        · exact store_of_lt _ data (by omega)
        · exact store_of_ge _ data (by omega)
      cases data with
      | nil =>
          simp only [exchangeStretch, transduce, exchange, List.length_singleton, load_succ,
            hfirst, load_zero]
          rw [store_cons, store_nil]
      | cons b data =>
          rw [List.length_cons] at hr hw hapart
          have hread' : (ring.read + 1) % size = ring.read + 1 := Nat.mod_eq_of_lt (by omega)
          have hwrite' : (ring.write + 1) % size = ring.write + 1 := Nat.mod_eq_of_lt (by omega)
          have hrest := ih (exchange size ring a).1
          simp only [exchange, hread', hwrite', List.length_cons] at hrest
          rw [transduce]
          simp only [exchange, hread', hwrite']
          rw [← hrest (by omega) (by omega) (by omega) (by omega) (by omega)]
          simp only [exchangeStretch, List.length_cons (a := a), load_succ, hfirst]
          rw [store_cons, List.length_cons, Nat.add_right_comm ring.read,
            Nat.add_right_comm ring.write]
          rfl

/-! ## The values in between -/

/-- The write index is `delay` cells ahead of the read index. -/
structure DelayRing.Delays (size delay : Nat) (ring : DelayRing α) : Prop where
  read_lt : ring.read < size
  write_eq : ring.write = (ring.read + delay) % size

/-- What has not been taken yet. -/
def DelayRing.held (size delay : Nat) (ring : DelayRing α) : List α :=
  (List.range delay).map fun k => ring.cells ((ring.read + k) % size)

theorem DelayRing.Delays.exchange {size delay : Nat} {ring : DelayRing α}
    (h : ring.Delays size delay) (a : α) :
    (Lib.exchange size ring a).1.Delays size delay where
  read_lt := Nat.mod_lt _ (Nat.zero_lt_of_lt h.read_lt)
  write_eq := by
    show (ring.write + 1) % size = ((ring.read + 1) % size + delay) % size
    rw [h.write_eq, Nat.mod_add_mod, Nat.mod_add_mod]
    congr 1
    omega

/-- Cells less than a round apart are different. -/
theorem mod_add_ne {size i j k : Nat} (hj : j < size) (hk : k < size) (hne : j ≠ k) :
    (i + j) % size ≠ (i + k) % size := by
  intro heq
  have hmod : Nat.ModEq size j k := Nat.ModEq.add_left_cancel' i heq
  exact hne (hmod.eq_of_lt_of_lt hj hk)

/-- The value taken was first in line, and the value put in is last now. -/
theorem exchange_held {size delay : Nat} (hpos : 0 < delay) (hlt : delay < size)
    {ring : DelayRing α} (h : ring.Delays size delay) (a : α) :
    (exchange size ring a).2 :: (exchange size ring a).1.held size delay =
      ring.held size delay ++ [a] := by
  have hout : (exchange size ring a).2 = ring.cells (ring.read % size) := by
    have hne : ring.read ≠ ring.write := by
      have hne := mod_add_ne (i := ring.read) (show 0 < size by omega) hlt (by omega)
      rwa [Nat.add_zero, Nat.mod_eq_of_lt h.read_lt, ← h.write_eq] at hne
    rw [Nat.mod_eq_of_lt h.read_lt]
    exact Function.update_of_ne hne _ _
  obtain ⟨d, rfl⟩ : ∃ d, delay = d + 1 := ⟨delay - 1, by omega⟩
  have hcell : ∀ k, k < d + 1 → (exchange size ring a).1.cells
      (((exchange size ring a).1.read + k) % size) =
        if k = d then a else ring.cells ((ring.read + (k + 1)) % size) := by
    intro k hk
    show Function.update ring.cells ring.write a (((ring.read + 1) % size + k) % size) = _
    rw [Nat.mod_add_mod, Nat.add_assoc, Nat.add_comm 1 k]
    by_cases hkd : k = d
    · rw [if_pos hkd, hkd, h.write_eq, Function.update_self]
    · rw [if_neg hkd, h.write_eq, Function.update_of_ne]
      exact mod_add_ne (by omega) (by omega) (by omega)
  rw [hout]
  unfold DelayRing.held
  rw [List.range_succ, List.map_append, List.map_singleton, hcell d (by omega), if_pos rfl,
    ← List.range_succ, List.range_succ_eq_map, List.map_cons, List.map_map, List.cons_append,
    Nat.add_zero]
  congr 2
  refine List.map_congr_left fun k hk => ?_
  have hk := List.mem_range.mp hk
  rw [hcell k (by omega), if_neg (by omega)]
  rfl

theorem DelayRing.Delays.transduce {size delay : Nat} {ring : DelayRing α}
    (h : ring.Delays size delay) (l : List α) :
    (Lib.transduce (Lib.exchange size) ring l).1.Delays size delay := by
  induction l generalizing ring with
  | nil => exact h
  | cons a l ih => exact ih (h.exchange a)

/-- What comes out, and then what is held, is what was held and then what went in. -/
theorem transduce_held {size delay : Nat} (hpos : 0 < delay) (hlt : delay < size) (l : List α) :
    ∀ {ring : DelayRing α}, ring.Delays size delay →
      (transduce (exchange size) ring l).2 ++
          (transduce (exchange size) ring l).1.held size delay =
        ring.held size delay ++ l := by
  induction l with
  | nil =>
      intro ring _
      rw [List.append_nil]
      rfl
  | cons a l ih =>
      intro ring h
      rw [transduce, List.cons_append, ih (h.exchange a), ← List.cons_append,
        exchange_held hpos hlt h a, List.append_assoc]
      rfl

end DragonDevice.Lib
