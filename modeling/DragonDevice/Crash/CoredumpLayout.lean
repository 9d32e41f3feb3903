/-
  Crash/CoredumpLayout.lean --- the new layout of a filtered coredump, and the address
  ranges that decide which segments it drops.

  As long as no sum leaves the offset type, the segments follow each other, each at a
  multiple of its alignment, and a header differs from the original in its offset and its
  size alone.
-/
import Mathlib.Data.List.Forall2
import DragonDevice.Crash.CoredumpWriter

set_option autoImplicit false

namespace DragonDevice.Crash

open DragonDevice.Lib

/-! ## Alignment -/

theorem le_alignOffset (align offset : Nat) : offset ≤ alignOffset id align offset := by
  unfold alignOffset
  split
  · exact Nat.le_add_right _ _
  · exact Nat.le_refl _

theorem dvd_alignOffset {align offset : Nat} (h : align ≠ 0) :
    align ∣ alignOffset id align offset := by
  unfold alignOffset
  split
  · have hlt : offset % align < align := Nat.mod_lt _ (Nat.pos_of_ne_zero h)
    have hsum : offset + (align - offset % align) = align * (offset / align + 1) := by
      have hdiv := Nat.div_add_mod offset align
      rw [Nat.mul_add, Nat.mul_one]
      omega
    rw [id_eq, hsum]
    exact Nat.dvd_mul_right _ _
  · rename_i hmod
    have hzero : offset % align = 0 := by
      by_contra hne
      exact hmod ⟨h, hne⟩
    exact Nat.dvd_of_mod_eq_zero hzero

/-- Rounding up does not wrap when its result is in range. -/
theorem alignOffset_wrap {cls : ElfClass} {align offset : Nat}
    (h : alignOffset id align offset < cls.range) :
    alignOffset (wrapOffset cls) align offset = alignOffset id align offset := by
  unfold alignOffset at h ⊢
  split
  · rename_i hcond
    rw [if_pos hcond] at h
    exact Nat.mod_eq_of_lt h
  · rfl

/-! ## The segments in a row -/

/-- The segments follow each other from `frontier` on. -/
def Ascending : Nat → List Phdr → Prop
  | _, [] => True
  | frontier, p :: rest => frontier ≤ p.offset ∧ Ascending (p.offset + p.filesz) rest

theorem filterFrom_ascending (cls : ElfClass) (mappings : List (Nat × Nat)) (prev : Phdr)
    (l : List Phdr) :
    Ascending (prev.offset + prev.filesz) (filterFrom cls id mappings prev l) := by
  induction l generalizing prev with
  | nil => exact trivial
  | cons p rest ih => exact ⟨le_alignOffset p.align _, ih _⟩

/-- What `FilterSegments` makes of a header behind the note. -/
structure Relocated (cls : ElfClass) (mappings : List (Nat × Nat)) (p q : Phdr) : Prop where
  fields : q = { p with offset := q.offset, filesz := q.filesz }
  filesz : q.filesz = if p.Backed cls mappings then 0 else p.filesz
  aligned : p.align ≠ 0 → p.align ∣ q.offset

theorem filterFrom_relocated (cls : ElfClass) (mappings : List (Nat × Nat)) (prev : Phdr)
    (l : List Phdr) :
    List.Forall₂ (Relocated cls mappings) l (filterFrom cls id mappings prev l) := by
  induction l generalizing prev with
  | nil => exact .nil
  | cons p rest ih => exact .cons ⟨rfl, rfl, fun h => dvd_alignOffset h⟩ (ih _)

/-- The arithmetic of the offset type gives the layout when that layout is in range. -/
theorem filterFrom_wrap {cls : ElfClass} {mappings : List (Nat × Nat)} {prev : Phdr}
    {l : List Phdr}
    (h : ∀ q ∈ filterFrom cls id mappings prev l, q.offset + q.filesz < cls.range) :
    filterFrom cls (wrapOffset cls) mappings prev l = filterFrom cls id mappings prev l := by
  induction l generalizing prev with
  | nil => rfl
  | cons p rest ih =>
      have hfirst := h (filterSegment cls id mappings prev p) List.mem_cons_self
      have hoffset : alignOffset id p.align (prev.offset + prev.filesz) < cls.range :=
        Nat.lt_of_le_of_lt (Nat.le_add_right _ _) hfirst
      have hsum : wrapOffset cls (prev.offset + prev.filesz) = prev.offset + prev.filesz :=
        Nat.mod_eq_of_lt (Nat.lt_of_le_of_lt (le_alignOffset p.align _) hoffset)
      have hseg : filterSegment cls (wrapOffset cls) mappings prev p =
          filterSegment cls id mappings prev p := by
        unfold filterSegment
        rw [hsum, alignOffset_wrap hoffset]
        rfl
      unfold filterFrom
      rw [hseg, ih fun q hq => h q (List.mem_cons_of_mem _ hq)]

theorem filterSegments_wrap {cls : ElfClass} {mappings : List (Nat × Nat)} {l : List Phdr}
    (h : ∀ q ∈ filterSegments cls id mappings l, q.offset + q.filesz < cls.range) :
    filterSegments cls (wrapOffset cls) mappings l = filterSegments cls id mappings l := by
  cases l with
  | nil => rfl
  | cons note rest =>
      unfold filterSegments
      dsimp only
      rw [filterFrom_wrap fun q hq => h q (List.mem_cons_of_mem _ hq)]

/-- The end of the last of the segments that follow each other is at or behind every end. -/
theorem Ascending.le_coredumpEnd {frontier : Nat} {first : Phdr} {l : List Phdr}
    (h : Ascending frontier (first :: l)) :
    ∀ p ∈ first :: l, p.offset + p.filesz ≤ coredumpEnd (first :: l) := by
  induction l generalizing frontier first with
  | nil =>
      intro p hp
      rw [List.mem_singleton.mp hp]
      exact Nat.le_refl _
  | cons second rest ih =>
      have hrest := ih h.2
      intro p hp
      rcases List.mem_cons.mp hp with rfl | hmem
      · have hsecond := hrest second List.mem_cons_self
        have hnext := h.2.1
        unfold coredumpEnd
        omega
      · exact hrest p hmem

theorem coredumpEnd_mem {first : Phdr} {l : List Phdr} :
    ∃ p ∈ first :: l, coredumpEnd (first :: l) = p.offset + p.filesz := by
  induction l generalizing first with
  | nil => exact ⟨first, List.mem_cons_self, rfl⟩
  | cons second rest ih =>
      obtain ⟨p, hp, hend⟩ := @ih second
      exact ⟨p, List.mem_cons_of_mem _ hp, hend⟩

/-! ## The mapped files -/

theorem validWordAt_eq {cls : ElfClass} {desc : List Byte} {index word : Nat}
    (h : validWordAt cls desc index = some word) : wordAt cls desc index = some word := by
  unfold validWordAt at h
  cases hword : wordAt cls desc index with
  | none =>
      rw [hword] at h
      cases h
  | some v =>
      rw [hword] at h
      dsimp only at h
      split at h
      · cases h
      · exact h

/-- The loop collects the first two words of each of the files. -/
theorem mem_fileRanges {cls : ElfClass} {desc : List Byte} {left i : Nat}
    {ranges : List (Nat × Nat)} (h : fileRanges cls desc left i = some ranges)
    (range : Nat × Nat) :
    range ∈ ranges ↔ ∃ j, i ≤ j ∧ j < i + left ∧
      wordAt cls desc (2 + 3 * j) = some range.1 ∧
      wordAt cls desc (2 + 3 * j + 1) = some range.2 := by
  induction left generalizing i ranges with
  | zero =>
      cases h
      refine ⟨fun hmem => absurd hmem List.not_mem_nil, ?_⟩
      rintro ⟨j, hlo, hhi, -⟩
      omega
  | succ left ih =>
      unfold fileRanges at h
      simp only [Option.bind_eq_bind, Option.bind_eq_some_iff, Option.some.injEq] at h
      obtain ⟨start, hstart, stop, hstop, _, _, rest, hrest, rfl⟩ := h
      have hstart := validWordAt_eq hstart
      have hstop := validWordAt_eq hstop
      rw [List.mem_cons, ih hrest]
      constructor
      · rintro (rfl | ⟨j, hlo, hhi, hwords⟩)
        · exact ⟨i, Nat.le_refl i, by omega, hstart, hstop⟩
        · exact ⟨j, by omega, by omega, hwords⟩
      · rintro ⟨j, hlo, hhi, hw₁, hw₂⟩
        rcases Nat.eq_or_lt_of_le hlo with rfl | hlt
        · rw [hstart] at hw₁
          rw [hstop] at hw₂
          cases hw₁
          cases hw₂
          exact .inl rfl
        · exact .inr ⟨j, hlt, by omega, hw₁, hw₂⟩

/-- The mappings are the ranges that the first NT_FILE note lists. -/
theorem mem_getFileMappings {cls : ElfClass} {findNote : FindNote} {noteBuf : List Byte}
    {mappings : List (Nat × Nat)}
    (h : getFileMappings cls findNote noteBuf = some mappings) (range : Nat × Nat) :
    range ∈ mappings ↔
      ∃ desc, findNote ntFile noteBuf = some desc ∧ ListsRange cls desc range := by
  unfold getFileMappings at h
  simp only [Option.bind_eq_bind, Option.bind_eq_some_iff] at h
  obtain ⟨desc, hdesc, count, hcount, _, _, hranges⟩ := h
  have hcount := validWordAt_eq hcount
  rw [mem_fileRanges hranges]
  constructor
  · rintro ⟨j, -, hj, hwords⟩
    rw [Nat.zero_add] at hj
    exact ⟨desc, hdesc, count, j, hcount, hj, hwords⟩
  · rintro ⟨desc', hdesc', count', j, hcount', hj, hwords⟩
    rw [hdesc] at hdesc'
    cases hdesc'
    rw [hcount] at hcount'
    cases hcount'
    exact ⟨j, Nat.zero_le j, by omega, hwords⟩

end DragonDevice.Crash
