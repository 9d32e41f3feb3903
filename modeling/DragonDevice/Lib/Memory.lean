/-
  Lib/Memory.lean --- byte ranges of a flat memory.

  A memory is a list; `slice` reads a range and `splice` replaces one.  The
  lemmas say what a slice sees of a splice: the data itself, nothing of it, or,
  when the splice lies inside the slice, the splice of the slice.
-/
import Mathlib.Data.List.Basic

set_option autoImplicit false

namespace DragonDevice.Lib

universe u

variable {α : Type u}

/-- The `len` elements from `off` on, fewer when the memory ends before. -/
def slice (mem : List α) (off len : Nat) : List α := (mem.drop off).take len

/-- The memory with `data` laid over it from `off` on. -/
def splice (mem : List α) (off : Nat) (data : List α) : List α :=
  mem.take off ++ data ++ mem.drop (off + data.length)

theorem getElem?_slice (mem : List α) (off len i : Nat) :
    (slice mem off len)[i]? = if i < len then mem[off + i]? else none := by
  rw [slice, List.getElem?_take]
  simp only [List.getElem?_drop]

@[simp] theorem length_slice {mem : List α} {off len : Nat} (h : off + len ≤ mem.length) :
    (slice mem off len).length = len := by
  rw [slice, List.length_take, List.length_drop]
  omega

@[simp] theorem length_splice {mem : List α} {off : Nat} {data : List α}
    (h : off + data.length ≤ mem.length) : (splice mem off data).length = mem.length := by
  simp only [splice, List.length_append, List.length_take, List.length_drop]
  omega

theorem getElem?_splice {mem : List α} {off : Nat} {data : List α}
    (h : off + data.length ≤ mem.length) (i : Nat) :
    (splice mem off data)[i]? =
      if off ≤ i ∧ i < off + data.length then data[i - off]? else mem[i]? := by
  have htake : (mem.take off).length = off := by
    rw [List.length_take]
    omega
  rw [splice, List.append_assoc]
  by_cases hlow : i < off
  · rw [List.getElem?_append_left (by omega), List.getElem?_take, if_pos hlow,
      if_neg (by omega)]
  · rw [List.getElem?_append_right (by omega), htake]
    by_cases hmid : i < off + data.length
    · rw [List.getElem?_append_left (by omega), if_pos (by omega)]
    · rw [List.getElem?_append_right (by omega), List.getElem?_drop, if_neg (by omega)]
      congr 1
      omega

/-- A read of the written range gives the data back. -/
theorem slice_splice_self {mem : List α} {off : Nat} {data : List α}
    (h : off + data.length ≤ mem.length) :
    slice (splice mem off data) off data.length = data := by
  apply List.ext_getElem?
  intro i
  rw [getElem?_slice]
  split
  · rename_i hi
    rw [getElem?_splice h, if_pos (by omega)]
    congr 1
    omega
  · rename_i hi
    rw [List.getElem?_eq_none (by omega)]

/-- A read that misses the written range sees the old memory. -/
theorem slice_splice_disjoint {mem : List α} {off off' len : Nat} {data : List α}
    (h : off + data.length ≤ mem.length)
    (hdisj : off' + len ≤ off ∨ off + data.length ≤ off') :
    slice (splice mem off data) off' len = slice mem off' len := by
  apply List.ext_getElem?
  intro i
  rw [getElem?_slice, getElem?_slice]
  split
  · rw [getElem?_splice h, if_neg (by omega)]
  · rfl

/-- A read around the written range sees the write inside what it reads. -/
theorem slice_splice_inside {mem : List α} {off len k : Nat} {data : List α}
    (h : off + len ≤ mem.length) (hk : k + data.length ≤ len) :
    slice (splice mem (off + k) data) off len = splice (slice mem off len) k data := by
  have hlen : (slice mem off len).length = len := length_slice h
  apply List.ext_getElem?
  intro i
  rw [getElem?_slice, getElem?_splice (by omega), getElem?_splice (by omega), getElem?_slice]
  by_cases hi : i < len
  · rw [if_pos hi, if_pos hi]
    by_cases hin : k ≤ i ∧ i < k + data.length
    · rw [if_pos (by omega), if_pos hin]
      congr 1
      omega
    · rw [if_neg (by omega), if_neg hin]
  · rw [if_neg hi, if_neg hi, if_neg (by omega)]

/-- The second of two writes to one range is the one that stays. -/
theorem splice_splice {mem : List α} {off : Nat} {data data' : List α}
    (hlen : data.length = data'.length) (h : off + data.length ≤ mem.length) :
    splice (splice mem off data) off data' = splice mem off data' := by
  have hmem : off + data'.length ≤ mem.length := by
    rw [← hlen]
    exact h
  have hspliced : off + data'.length ≤ (splice mem off data).length := by
    rw [length_splice h]
    exact hmem
  apply List.ext_getElem?
  intro i
  rw [getElem?_splice hspliced, getElem?_splice h, getElem?_splice hmem, hlen]
  split
  · rfl
  · rfl

/-- Two writes, the second behind the first, are one write of both. -/
theorem splice_append {mem : List α} {off : Nat} {data data' : List α}
    (h : off + data.length + data'.length ≤ mem.length) :
    splice (splice mem off data) (off + data.length) data' = splice mem off (data ++ data') := by
  have hfirst : off + data.length ≤ mem.length := by omega
  have hboth : off + (data ++ data').length ≤ mem.length := by
    rw [List.length_append]
    omega
  apply List.ext_getElem?
  intro i
  rw [getElem?_splice (by rw [length_splice hfirst]; exact h), getElem?_splice hfirst,
    getElem?_splice hboth, List.length_append]
  by_cases hlow : off + data.length ≤ i
  · by_cases hhigh : i < off + data.length + data'.length
    · rw [if_pos ⟨hlow, hhigh⟩, if_pos (by omega), List.getElem?_append_right (by omega)]
      congr 1
      omega
    · rw [if_neg (by omega), if_neg (by omega), if_neg (by omega)]
  · rw [if_neg (by omega)]
    by_cases hin : off ≤ i
    · rw [if_pos (by omega), if_pos (by omega), List.getElem?_append_left (by omega)]
    · rw [if_neg (by omega), if_neg (by omega)]

theorem splice_nil (mem : List α) (off : Nat) : splice mem off [] = mem := by
  rw [splice, List.append_nil, List.length_nil, Nat.add_zero, List.take_append_drop]

theorem slice_slice {mem : List α} {off len off' len' : Nat} (h : off' + len' ≤ len) :
    slice (slice mem off len) off' len' = slice mem (off + off') len' := by
  apply List.ext_getElem?
  intro i
  rw [getElem?_slice, getElem?_slice, getElem?_slice]
  split
  · rw [if_pos (by omega), Nat.add_assoc]
  · rfl

end DragonDevice.Lib
