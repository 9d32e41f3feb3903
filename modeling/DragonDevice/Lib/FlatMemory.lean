/-
  Lib/FlatMemory.lean --- cells that are read and written in stretches.

  A memory is a function of the cell.  `load` reads a stretch, `store` writes one, and
  `memcpy` copies one to another.  Where the two overlap it has no defined result, and what it
  leaves is a parameter.
-/
import Mathlib.Data.List.Basic

set_option autoImplicit false

namespace DragonDevice.Lib

variable {α : Type}

/-- The stretch of a memory from a cell on. -/
def load (mem : Nat → α) (off len : Nat) : List α :=
  (List.range len).map fun k => mem (off + k)

/-- The memory with data written from a cell on. -/
def store (mem : Nat → α) (off : Nat) (data : List α) : Nat → α := fun k =>
  if off ≤ k then (data[k - off]?).getD (mem k) else mem k

/-- The memory after `memcpy`. -/
def memcpy (overlapped : (Nat → α) → (dst src len : Nat) → Nat → α) (mem : Nat → α)
    (dst src len : Nat) : Nat → α :=
  if dst + len ≤ src ∨ src + len ≤ dst then store mem dst (load mem src len)
  else overlapped mem dst src len

@[simp] theorem length_load (mem : Nat → α) (off len : Nat) : (load mem off len).length = len := by
  simp [load]

@[simp] theorem load_zero (mem : Nat → α) (off : Nat) : load mem off 0 = [] := rfl

theorem getElem?_load (mem : Nat → α) (off len k : Nat) :
    (load mem off len)[k]? = if k < len then some (mem (off + k)) else none := by
  unfold load
  rw [List.getElem?_map]
  split
  · rename_i hk
    rw [List.getElem?_range hk, Option.map_some]
  · rename_i hk
    rw [List.getElem?_eq_none (by simpa using hk), Option.map_none]

/-- Two stretches are equal when their cells are. -/
theorem load_congr {mem mem' : Nat → α} {off off' len : Nat}
    (h : ∀ k, k < len → mem (off + k) = mem' (off' + k)) :
    load mem off len = load mem' off' len := by
  unfold load
  refine List.map_congr_left fun k hk => h k ?_
  exact List.mem_range.mp hk

theorem load_add (mem : Nat → α) (off a b : Nat) :
    load mem off (a + b) = load mem off a ++ load mem (off + a) b := by
  unfold load
  rw [List.range_add, List.map_append, List.map_map]
  congr 1
  refine List.map_congr_left fun k _ => ?_
  rw [Function.comp_apply, Nat.add_assoc]

theorem store_of_lt (mem : Nat → α) {off k : Nat} (data : List α) (hk : k < off) :
    store mem off data k = mem k := by
  unfold store
  rw [if_neg (Nat.not_le.mpr hk)]

/-- What was written is read back. -/
theorem load_store_self (mem : Nat → α) (off : Nat) (data : List α) :
    load (store mem off data) off data.length = data := by
  refine List.ext_getElem? fun k => ?_
  rw [getElem?_load]
  split
  · rename_i hk
    unfold store
    rw [if_pos (Nat.le_add_right off k), Nat.add_sub_cancel_left, List.getElem?_eq_getElem hk,
      Option.getD_some]
  · rename_i hk
    rw [List.getElem?_eq_none (Nat.not_lt.mp hk)]

/-- A copy between stretches that lie apart moves the stretch. -/
theorem load_memcpy {overlapped : (Nat → α) → Nat → Nat → Nat → Nat → α} {mem : Nat → α}
    {dst src len : Nat} (hapart : dst + len ≤ src ∨ src + len ≤ dst) :
    load (memcpy overlapped mem dst src len) dst len = load mem src len := by
  have hself := load_store_self mem dst (load mem src len)
  rw [length_load] at hself
  rw [memcpy, if_pos hapart]
  exact hself

end DragonDevice.Lib
