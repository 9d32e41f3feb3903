/-
  Lib/SparseFile.lean --- files written at positions.

  A write behind the end of a file fills the gap.  A file that is only ever written
  behind everything it holds keeps every piece: `Laid` lists the pieces and where they
  end.
-/
import Mathlib.Data.List.Basic
import DragonDevice.Lib.Memory

set_option autoImplicit false

namespace DragonDevice.Lib

universe u

variable {α : Type u}

/-- A write of `data` at `pos`, with `fill` in a gap.  No data leave the file alone. -/
def writeAt (fill : α) (file : List α) (pos : Nat) (data : List α) : List α :=
  if data.isEmpty then file
  else splice (file ++ List.replicate (pos + data.length - file.length) fill) pos data

/-- The file holds `data` at `pos`. -/
def Placed (file : List α) (pos : Nat) (data : List α) : Prop :=
  ∀ i, i < data.length → file[pos + i]? = data[i]?

theorem Placed.slice_eq {file : List α} {pos : Nat} {data : List α}
    (h : Placed file pos data) : slice file pos data.length = data := by
  apply List.ext_getElem?
  intro i
  rw [getElem?_slice]
  split
  · rename_i hi
    exact h i hi
  · rename_i hi
    rw [List.getElem?_eq_none (by omega)]

/-- What a write, or several that follow each other, leaves. -/
structure Wrote (file file' : List α) (pos : Nat) (data : List α) : Prop where
  placed : Placed file' pos data
  keeps : ∀ i, i < file.length → i < pos ∨ pos + data.length ≤ i → file'[i]? = file[i]?
  grows : file.length ≤ file'.length

theorem Wrote.refl (file : List α) (pos : Nat) : Wrote file file pos [] :=
  ⟨fun i hi => absurd hi (Nat.not_lt_zero i), fun _ _ _ => rfl, Nat.le_refl _⟩

theorem writeAt_wrote (fill : α) (file : List α) (pos : Nat) (data : List α) :
    Wrote file (writeAt fill file pos data) pos data := by
  unfold writeAt
  cases data with
  | nil => exact Wrote.refl file pos
  | cons b rest =>
      rw [if_neg (by simp)]
      have hlen : (file ++ List.replicate (pos + (b :: rest).length - file.length) fill).length =
          max file.length (pos + (b :: rest).length) := by
        rw [List.length_append, List.length_replicate]
        omega
      have hroom : pos + (b :: rest).length ≤
          (file ++ List.replicate (pos + (b :: rest).length - file.length) fill).length := by
        omega
      refine ⟨fun i hi => ?_, fun i hi hout => ?_, ?_⟩
      · rw [getElem?_splice hroom, if_pos (by omega)]
        congr 1
        omega
      · rw [getElem?_splice hroom, if_neg (by omega), List.getElem?_append_left hi]
      · rw [length_splice hroom, hlen]
        exact Nat.le_max_left _ _

theorem Wrote.append {file file₁ file₂ : List α} {pos : Nat} {data data' : List α}
    (h : Wrote file file₁ pos data) (h' : Wrote file₁ file₂ (pos + data.length) data') :
    Wrote file file₂ pos (data ++ data') := by
  refine ⟨fun i hi => ?_, fun i hi hout => ?_, Nat.le_trans h.grows h'.grows⟩
  · rw [List.length_append] at hi
    by_cases hfirst : i < data.length
    · have hplaced := h.placed i hfirst
      have hin : pos + i < file₁.length := by
        by_contra hge
        rw [List.getElem?_eq_none (Nat.le_of_not_lt hge),
          List.getElem?_eq_getElem hfirst] at hplaced
        cases hplaced
      rw [h'.keeps (pos + i) hin (.inl (by omega)), hplaced,
        List.getElem?_append_left hfirst]
    · have hplaced := h'.placed (i - data.length) (by omega)
      rw [List.getElem?_append_right (by omega), ← hplaced]
      congr 1
      omega
  · rw [List.length_append] at hout
    rw [h'.keeps i (Nat.lt_of_lt_of_le hi h.grows) (by omega), h.keeps i hi (by omega)]

/-! ## Files that grow at the end -/

/-- The file holds the pieces, and all of them end at or before `frontier`. -/
def Laid (file : List α) (frontier : Nat) (pieces : List (Nat × List α)) : Prop :=
  ∀ piece ∈ pieces, Placed file piece.1 piece.2 ∧ piece.1 + piece.2.length ≤ frontier

theorem Laid.nil (file : List α) (frontier : Nat) : Laid file frontier [] :=
  fun _ hmem => absurd hmem List.not_mem_nil

/-- A write at or behind the frontier keeps the pieces and adds one. -/
theorem Laid.wrote {file file' : List α} {frontier pos : Nat} {data : List α}
    {pieces : List (Nat × List α)} (h : Laid file frontier pieces)
    (hwrote : Wrote file file' pos data) (hpos : frontier ≤ pos) :
    Laid file' (pos + data.length) (pieces ++ [(pos, data)]) := by
  intro piece hmem
  rcases List.mem_append.mp hmem with hold | hnew
  · obtain ⟨hplaced, hend⟩ := h piece hold
    refine ⟨fun i hi => ?_, by omega⟩
    have hat := hplaced i hi
    have hin : piece.1 + i < file.length := by
      by_contra hge
      rw [List.getElem?_eq_none (Nat.le_of_not_lt hge), List.getElem?_eq_getElem hi] at hat
      cases hat
    rw [hwrote.keeps _ hin (.inl (by omega)), hat]
  · rw [List.mem_singleton.mp hnew]
    exact ⟨hwrote.placed, Nat.le_refl _⟩

end DragonDevice.Lib
