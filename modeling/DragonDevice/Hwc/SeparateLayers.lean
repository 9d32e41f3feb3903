/-
  Hwc/SeparateLayers.lean --- the regions of the precomposition.

  The precomp plane lies above the dedicated ones, so a layer of it must not be
  drawn where a dedicated layer that belongs above it is shown.  What is left at a
  point is what `VisibleIn` says, and `separateLayers` cuts the screen into regions
  that show exactly this.
-/
import DragonDevice.Hwc.DisplayComposition
import DragonDevice.Hwc.SeparateRectsCorrect
import DragonDevice.Lib.PartialMap

set_option autoImplicit false

namespace DragonDevice.Hwc

open DragonDevice.Lib

variable {F : Type}

/-! ## Bits -/

theorem getLsbD_low_mask {n : Nat} (hn : n < 64) (i : Nat) :
    ((1#64 <<< n) - 1#64).getLsbD i = decide (i < n) := by
  have hpow : 2 ^ n < 2 ^ 64 := Nat.pow_lt_pow_right (by decide) hn
  have hpos : 0 < 2 ^ n := Nat.two_pow_pos n
  have hbits : ((1#64 <<< n) - 1#64) = BitVec.ofNat 64 (2 ^ n - 1) := by
    apply BitVec.eq_of_toNat_eq
    simp only [BitVec.toNat_sub, BitVec.toNat_shiftLeft, BitVec.toNat_ofNat, Nat.shiftLeft_eq]
    omega
  rw [hbits, BitVec.getLsbD_ofNat, Nat.testBit_two_pow_sub_one]
  by_cases hi : i < n
  · have h64 : i < 64 := Nat.lt_trans hi hn
    simp [hi, h64]
  · simp [hi]

theorem getLsbD_bit {k : Nat} (hk : k < 64) (i : Nat) :
    (1#64 <<< k).getLsbD i = decide (i = k) := by
  rw [BitVec.getLsbD_shiftLeft, BitVec.getLsbD_one]
  by_cases hik : i = k
  · simp [hik, hk]
  · by_cases hlt : i < k
    · simp [hik, hlt]
    · have hsub : ¬ i - k = 0 := by omega
      simp [hik, hsub]

theorem eq_zero_iff_getLsbD {x : BitVec 64} : x = 0#64 ↔ ∀ i, x.getLsbD i = false := by
  refine ⟨fun h i => by rw [h, BitVec.getLsbD_zero], fun h => ?_⟩
  apply BitVec.eq_of_getLsbD_eq
  intro i _
  rw [h i, BitVec.getLsbD_zero]

/-- No bit below `n` is set. -/
theorem and_low_mask_eq_zero_iff {x : BitVec 64} {n : Nat} (hn : n < 64) :
    x &&& ((1#64 <<< n) - 1#64) = 0#64 ↔ ∀ i, i < n → x.getLsbD i = false := by
  rw [eq_zero_iff_getLsbD]
  simp only [BitVec.getLsbD_and, getLsbD_low_mask hn]
  refine ⟨fun h i hi => ?_, fun h i => ?_⟩
  · simpa [hi] using h i
  · by_cases hi : i < n
    · rw [h i hi]
      rfl
    · simp [hi]

theorem uint64Bit_eq {n : Nat} (hn : n < 64) : uint64Bit n = some (1#64 <<< n) := if_pos hn

theorem uint64Bit_eq_none {n : Nat} (hn : ¬ n < 64) : uint64Bit n = none := if_neg hn

theorem getLsbD_intBit {n : Nat} (hn : n < 32) {i : Nat} (hi : i < 32) :
    ((1#32 <<< n).signExtend 64).getLsbD i = decide (i = n) := by
  have h64 : i < 64 := by omega
  rw [BitVec.getLsbD_signExtend, if_pos hi, decide_eq_true h64, Bool.true_and,
    BitVec.getLsbD_shiftLeft, BitVec.getLsbD_one]
  by_cases hin : i = n
  · simp [hin, hn]
  · by_cases hlt : i < n
    · simp [hin, hlt]
    · have hsub : ¬ i - n = 0 := by omega
      simp [hin, hsub]

/-- Among 32 bits the shift of an `int` finds the one it is meant to find; the sign of the
last one is spread over bits that are not set. -/
theorem and_intBit_eq_zero_iff {n : Nat} (hn : n < 32) {x : BitVec 64}
    (hx : ∀ i, 32 ≤ i → x.getLsbD i = false) :
    x &&& (1#32 <<< n).signExtend 64 = 0#64 ↔ x.getLsbD n = false := by
  rw [eq_zero_iff_getLsbD]
  simp only [BitVec.getLsbD_and]
  refine ⟨fun h => ?_, fun h i => ?_⟩
  · have hbit := h n
    rw [getLsbD_intBit hn hn, decide_eq_true rfl, Bool.and_true] at hbit
    exact hbit
  · by_cases hi : i < 32
    · rw [getLsbD_intBit hn hi]
      by_cases hin : i = n
      · rw [hin, h, Bool.false_and]
      · rw [decide_eq_false hin, Bool.and_false]
    · rw [hx i (Nat.le_of_not_lt hi), Bool.false_and]

/-! ## Holes -/

theorem mem_foldl_subtract (layerOffset d : Nat) :
    ∀ (compLayers : List Nat) (k : Nat) (s : IdSet) (i : Nat),
      ((compLayers.zipIdx k).foldl (fun s (layer, j) =>
        if layer < d then s.subtract (j + layerOffset) else s) s).Mem i ↔
      s.Mem i ∧ ∀ j c, compLayers[j]? = some c → c < d → i ≠ k + j + layerOffset := by
  intro compLayers
  induction compLayers with
  | nil => intro k s i; simp
  | cons c rest ih =>
      intro k s i
      rw [List.zipIdx_cons, List.foldl_cons, ih]
      have hsplit : (∀ j c', (c :: rest)[j]? = some c' → c' < d → i ≠ k + j + layerOffset) ↔
          (c < d → i ≠ k + layerOffset) ∧
            ∀ j c', rest[j]? = some c' → c' < d → i ≠ k + 1 + j + layerOffset := by
        refine ⟨fun h => ⟨fun hc => h 0 c rfl hc, fun j c' hj hc => ?_⟩, fun h j c' hj hc => ?_⟩
        · have := h (j + 1) c' hj hc
          omega
        · cases j with
          | zero =>
              cases hj
              exact h.1 hc
          | succ j =>
              have := h.2 j c' hj hc
              omega
      rw [hsplit]
      by_cases hc : c < d
      · simp only [hc, if_true, IdSet.mem_subtract, forall_const, and_assoc]
      · simp only [hc, if_false, false_implies, true_and]

theorem mem_subtractBelow {layerOffset d : Nat} {compLayers : List Nat} {s : IdSet} {i : Nat} :
    (subtractBelow layerOffset compLayers d s).Mem i ↔
      s.Mem i ∧ ∀ j c, compLayers[j]? = some c → c < d → i ≠ j + layerOffset := by
  have h := mem_foldl_subtract layerOffset d compLayers 0 s i
  simp only [Nat.zero_add] at h
  exact h

/-- The mask of the dedicated layers. -/
theorem getLsbD_dedicated_mask {m n : Nat} (hm : m < 64) (hmn : n + m ≤ 64) (i : Nat) :
    (((1#64 <<< m) - 1#64) <<< n).getLsbD i = decide (n ≤ i ∧ i < n + m) := by
  rw [BitVec.getLsbD_shiftLeft, getLsbD_low_mask hm]
  by_cases hlow : n ≤ i
  · by_cases hhigh : i < n + m
    · have h64 : i < 64 := by omega
      have hsub : i - n < m := by omega
      simp [hlow, hhigh, h64, hsub, Nat.not_lt.mpr hlow]
    · have hsub : ¬ i - n < m := by omega
      simp [hhigh, hsub]
  · simp [hlow, Nat.lt_of_not_le hlow]

/-- One dedicated layer after the other takes what is below it out of the region. -/
theorem foldlM_punchHoles {numExcludeRects layerOffset : Nat} {compLayers : List Nat}
    {dedicatedIntersect : BitVec 64} (hlow : ∀ i, 32 ≤ i → dedicatedIntersect.getLsbD i = false) :
    ∀ (dedicatedLayers : List Nat) (k : Nat) (s : IdSet),
      k + dedicatedLayers.length + numExcludeRects ≤ 32 →
      ∃ s', (dedicatedLayers.zipIdx k).foldlM
          (punchHole numExcludeRects layerOffset compLayers dedicatedIntersect) s = some s' ∧
        ∀ i, s'.Mem i ↔ s.Mem i ∧ ∀ a d, dedicatedLayers[a]? = some d →
          dedicatedIntersect.getLsbD (k + a + numExcludeRects) = true →
          ∀ j c, compLayers[j]? = some c → c < d → i ≠ j + layerOffset := by
  intro dedicatedLayers
  induction dedicatedLayers with
  | nil => intro k s _; exact ⟨s, rfl, by simp⟩
  | cons d rest ih =>
      intro k s hfit
      rw [List.length_cons] at hfit
      have hk : k + numExcludeRects < 32 := by omega
      generalize hs₁ : (if dedicatedIntersect &&& (1#32 <<< (k + numExcludeRects)).signExtend 64 =
        0#64 then s else subtractBelow layerOffset compLayers d s) = s₁
      obtain ⟨s', hrun, hmem⟩ := ih (k + 1) s₁ (by omega)
      refine ⟨s', ?_, fun i => ?_⟩
      · have hfirst : punchHole numExcludeRects layerOffset compLayers dedicatedIntersect s
            (d, k) = some s₁ := by
          rw [punchHole, intBit, if_pos hk, ← hs₁]
          rfl
        rw [List.zipIdx_cons, List.foldlM_cons, hfirst]
        exact hrun
      · rw [hmem i, ← hs₁]
        have hsplit : (∀ a d', (d :: rest)[a]? = some d' →
            dedicatedIntersect.getLsbD (k + a + numExcludeRects) = true →
            ∀ j c, compLayers[j]? = some c → c < d' → i ≠ j + layerOffset) ↔
            (dedicatedIntersect.getLsbD (k + numExcludeRects) = true →
              ∀ j c, compLayers[j]? = some c → c < d → i ≠ j + layerOffset) ∧
            ∀ a d', rest[a]? = some d' →
              dedicatedIntersect.getLsbD (k + 1 + a + numExcludeRects) = true →
              ∀ j c, compLayers[j]? = some c → c < d' → i ≠ j + layerOffset := by
          refine ⟨fun h => ⟨fun hbit => h 0 d rfl hbit, fun a d' ha hbit => ?_⟩,
            fun h a d' ha hbit => ?_⟩
          · exact h (a + 1) d' ha (by rw [← hbit]; congr 1; omega)
          · cases a with
            | zero =>
                cases ha
                exact h.1 hbit
            | succ a => exact h.2 a d' ha (by rw [← hbit]; congr 1; omega)
        rw [hsplit, ← and_assoc]
        refine and_congr_left fun _ => ?_
        have hbit := and_intBit_eq_zero_iff hk hlow
        cases hset : dedicatedIntersect.getLsbD (k + numExcludeRects) with
        | false =>
            rw [if_pos (hbit.mpr hset)]
            simp
        | true =>
            rw [if_neg (fun h => by rw [hbit.mp h] at hset; cases hset), mem_subtractBelow]
            simp

/-- What is left of a region's set after all holes. -/
theorem punchHoles_spec {numExcludeRects layerOffset : Nat} {dedicatedLayers compLayers : List Nat}
    {dedicatedIntersect : BitVec 64} {s : IdSet}
    (hlow : ∀ i, numExcludeRects + dedicatedLayers.length ≤ i →
      dedicatedIntersect.getLsbD i = false)
    (hfit : numExcludeRects + dedicatedLayers.length ≤ 32 ∨ dedicatedIntersect = 0#64) :
    ∃ s', punchHoles numExcludeRects layerOffset dedicatedLayers compLayers dedicatedIntersect s =
        some s' ∧
      ∀ i, s'.Mem i ↔ s.Mem i ∧ ∀ a d, dedicatedLayers[a]? = some d →
        dedicatedIntersect.getLsbD (a + numExcludeRects) = true →
        ∀ j c, compLayers[j]? = some c → c < d → i ≠ j + layerOffset := by
  rw [punchHoles]
  by_cases hzero : dedicatedIntersect = 0#64
  · rw [if_pos hzero]
    refine ⟨s, rfl, fun i => ?_⟩
    rw [hzero]
    simp
  · rw [if_neg hzero]
    have hle := hfit.resolve_right hzero
    obtain ⟨s', hrun, hmem⟩ := @foldlM_punchHoles numExcludeRects layerOffset compLayers
      dedicatedIntersect (fun i hi => hlow i (Nat.le_trans hle hi)) dedicatedLayers 0 s (by omega)
    refine ⟨s', hrun, fun i => ?_⟩
    rw [hmem i]
    simp only [Nat.zero_add]

/-! ## Source layers of a region -/

/-- The layers whose bits are set, from the last one down. -/
theorem setBitsToVector_spec {bits : BitVec 64} {indexMap : List Nat}
    (hbits : ∀ i, bits.getLsbD i = true → i < indexMap.length)
    (hsorted : indexMap.Pairwise (· < ·)) :
    ∃ out, setBitsToVector bits indexMap = some out ∧ out.Pairwise (· > ·) ∧
      ∀ c, c ∈ out ↔ ∃ j, indexMap[j]? = some c ∧ bits.getLsbD j = true := by
  have hrange : ∀ i ∈ (List.range 64).reverse.filter fun i => bits.getLsbD i,
      i < indexMap.length := fun i hi => hbits i (List.mem_filter.mp hi).2
  have hmapped : ((List.range 64).reverse.filter fun i => bits.getLsbD i).mapM
      (fun i => indexMap[i]?) = some (((List.range 64).reverse.filter fun i =>
        bits.getLsbD i).map fun i => indexMap.getD i 0) :=
    mapM_eq_map fun i hi => by
      rw [List.getD_eq_getElem?_getD, List.getElem?_eq_getElem (hrange i hi), Option.getD_some]
  refine ⟨_, hmapped, ?_, fun c => ?_⟩
  · rw [List.pairwise_map]
    have hdesc : ((List.range 64).reverse.filter fun i => bits.getLsbD i).Pairwise (· > ·) := by
      refine List.Pairwise.filter _ ?_
      rw [List.pairwise_reverse]
      exact List.pairwise_lt_range
    refine List.Pairwise.imp_of_mem ?_ hdesc
    intro a b ha hb hab
    have ha' := hrange a ha
    have hb' := hrange b hb
    have hlt := List.pairwise_iff_getElem.mp hsorted b a hb' ha' hab
    simpa [List.getD_eq_getElem?_getD, ha', hb'] using hlt
  · rw [List.mem_map]
    refine ⟨fun h => ?_, fun h => ?_⟩
    · obtain ⟨j, hj, hc⟩ := h
      have hlt := hrange j hj
      refine ⟨j, ?_, (List.mem_filter.mp hj).2⟩
      rw [← hc, List.getD_eq_getElem?_getD, List.getElem?_eq_getElem hlt]
      rfl
    · obtain ⟨j, hj, hbit⟩ := h
      have h64 : j < 64 := BitVec.lt_of_getLsbD hbit
      refine ⟨j, List.mem_filter.mpr ⟨List.mem_reverse.mpr (List.mem_range.mpr h64), hbit⟩, ?_⟩
      rw [List.getD_eq_getElem?_getD, hj]
      rfl

/-! ## One region -/

/-- The precomposed layer `c` stays in a region with the set `s`: no dedicated layer of
the region belongs above it. -/
def Shown (numExcludeRects : Nat) (dedicatedLayers compLayers : List Nat) (s : IdSet)
    (c : Nat) : Prop :=
  ∃ j, compLayers[j]? = some c ∧ s.Mem (j + (numExcludeRects + dedicatedLayers.length)) ∧
    ∀ a d, dedicatedLayers[a]? = some d → s.Mem (a + numExcludeRects) → ¬ c < d

/-- What the loop over the regions makes of one of them. -/
inductive RegionOf (numExcludeRects : Nat) (dedicatedLayers compLayers : List Nat)
    (region : RectSet Int) : List DrmCompositionRegion → Prop where
  | excluded (i : Nat) (hi : i < numExcludeRects) (hmem : region.idSet.Mem i) :
      RegionOf numExcludeRects dedicatedLayers compLayers region []
  | hidden (hno : ∀ i, i < numExcludeRects → ¬ region.idSet.Mem i)
      (hnone : ∀ c, ¬ Shown numExcludeRects dedicatedLayers compLayers region.idSet c) :
      RegionOf numExcludeRects dedicatedLayers compLayers region []
  | visible (sourceLayers : List Nat)
      (hno : ∀ i, i < numExcludeRects → ¬ region.idSet.Mem i)
      (hdesc : sourceLayers.Pairwise (· > ·))
      (hsources : ∀ c, c ∈ sourceLayers ↔
        Shown numExcludeRects dedicatedLayers compLayers region.idSet c)
      (hsome : ∃ c, Shown numExcludeRects dedicatedLayers compLayers region.idSet c) :
      RegionOf numExcludeRects dedicatedLayers compLayers region [⟨region.rect, sourceLayers⟩]

/-- The bits of the exclude rectangles are there when one of them is in the set. -/
theorem and_low_mask_ne_zero_iff {n : Nat} (hn : n < 64) {s : IdSet} :
    s.getBits &&& ((1#64 <<< n) - 1#64) ≠ 0#64 ↔ ∃ i, i < n ∧ s.Mem i := by
  rw [ne_eq, and_low_mask_eq_zero_iff hn]
  constructor
  · intro h
    by_contra hno
    exact h fun i hi => Bool.eq_false_iff.mpr fun hmem => hno ⟨i, hi, hmem⟩
  · rintro ⟨i, hi, hmem⟩ h
    have hmem : s.getBits.getLsbD i = true := hmem
    rw [h i hi] at hmem
    cases hmem

section Punched

variable {numExcludeRects : Nat} {dedicatedLayers compLayers : List Nat} {s : IdSet}

/-- Without dedicated layers in the set their bits are all clear. -/
theorem and_dedicated_mask_eq_zero (hdedicated : dedicatedLayers.length < 64)
    (hall : numExcludeRects + dedicatedLayers.length ≤ 64)
    (h : ∀ a, a < dedicatedLayers.length → ¬ s.Mem (a + numExcludeRects)) :
    s.getBits &&& ((1#64 <<< dedicatedLayers.length) - 1#64) <<< numExcludeRects = 0#64 := by
  refine eq_zero_iff_getLsbD.mpr fun i => ?_
  rw [BitVec.getLsbD_and, getLsbD_dedicated_mask hdedicated hall]
  by_cases hi : numExcludeRects ≤ i ∧ i < numExcludeRects + dedicatedLayers.length
  · have hnot := h (i - numExcludeRects) (by omega)
    rw [Nat.sub_add_cancel hi.1] at hnot
    have hfalse : s.getBits.getLsbD i = false := Bool.eq_false_iff.mpr hnot
    rw [hfalse, Bool.false_and]
  · rw [decide_eq_false hi, Bool.and_false]

/-- With the holes punched, a bit behind the offset is a precomposed layer without a dedicated
one above it. -/
theorem punchHoles_shown (hdedicated : dedicatedLayers.length < 64)
    (hall : numExcludeRects + dedicatedLayers.length ≤ 64)
    (hsafe : numExcludeRects + dedicatedLayers.length ≤ 32 ∨
      ∀ a, a < dedicatedLayers.length → ¬ s.Mem (a + numExcludeRects)) :
    ∃ s', punchHoles numExcludeRects (numExcludeRects + dedicatedLayers.length) dedicatedLayers
        compLayers (s.getBits &&&
          ((1#64 <<< dedicatedLayers.length) - 1#64) <<< numExcludeRects) s = some s' ∧
      (∀ i, s'.Mem i → s.Mem i) ∧
      ∀ j c, compLayers[j]? = some c →
        (s'.Mem (j + (numExcludeRects + dedicatedLayers.length)) ↔
          s.Mem (j + (numExcludeRects + dedicatedLayers.length)) ∧
            ∀ a d, dedicatedLayers[a]? = some d → s.Mem (a + numExcludeRects) → ¬ c < d) := by
  have hmask := getLsbD_dedicated_mask hdedicated hall
  obtain ⟨s', hpunch, hmem⟩ := @punchHoles_spec numExcludeRects
    (numExcludeRects + dedicatedLayers.length) dedicatedLayers compLayers
    (s.getBits &&& ((1#64 <<< dedicatedLayers.length) - 1#64) <<< numExcludeRects) s
    (fun i hi => by rw [BitVec.getLsbD_and, hmask, decide_eq_false (by omega), Bool.and_false])
    (hsafe.imp_right (and_dedicated_mask_eq_zero hdedicated hall))
  refine ⟨s', hpunch, fun i hi => ((hmem i).mp hi).1, fun j c hj => ?_⟩
  rw [hmem]
  refine and_congr_right fun _ =>
    ⟨fun h a d ha hin hlt => ?_, fun h a d ha hbits j' c' hj' hlt heq => ?_⟩
  · have ha' : a < dedicatedLayers.length := (List.getElem?_eq_some_iff.mp ha).1
    refine h a d ha ?_ j c hj hlt rfl
    rw [BitVec.getLsbD_and, hmask]
    have hrange : numExcludeRects ≤ a + numExcludeRects ∧
        a + numExcludeRects < numExcludeRects + dedicatedLayers.length := by omega
    rw [decide_eq_true hrange, Bool.and_true]
    exact hin
  · have hjj : j' = j := by omega
    rw [hjj, hj] at hj'
    cases hj'
    rw [BitVec.getLsbD_and, Bool.and_eq_true] at hbits
    exact h a d ha hbits.1 hlt

end Punched

theorem separateRegion_spec {numExcludeRects : Nat} {dedicatedLayers compLayers : List Nat}
    {region : RectSet Int} (hexclude : numExcludeRects < 64)
    (hdedicated : dedicatedLayers.length < 64)
    (hall : numExcludeRects + dedicatedLayers.length ≤ 64)
    (hsorted : compLayers.Pairwise (· < ·)) (hne : ∃ i, region.idSet.Mem i)
    (hbound : ∀ i, region.idSet.Mem i →
      i < numExcludeRects + dedicatedLayers.length + compLayers.length)
    (hsafe : numExcludeRects + dedicatedLayers.length ≤ 32 ∨
      ((∀ i, i < numExcludeRects → ¬ region.idSet.Mem i) →
        ∀ a, a < dedicatedLayers.length → ¬ region.idSet.Mem (a + numExcludeRects))) :
    ∃ out, separateRegion numExcludeRects (numExcludeRects + dedicatedLayers.length)
        dedicatedLayers compLayers ((1#64 <<< numExcludeRects) - 1#64)
        (((1#64 <<< dedicatedLayers.length) - 1#64) <<< numExcludeRects) region = some out ∧
      RegionOf numExcludeRects dedicatedLayers compLayers region out := by
  rw [separateRegion]
  by_cases hex : region.idSet.getBits &&& ((1#64 <<< numExcludeRects) - 1#64) ≠ 0#64
  · rw [if_pos hex]
    obtain ⟨i, hi, hmem⟩ := (and_low_mask_ne_zero_iff hexclude).mp hex
    exact ⟨[], rfl, .excluded i hi hmem⟩
  rw [if_neg hex]
  have hno : ∀ i, i < numExcludeRects → ¬ region.idSet.Mem i := fun i hi hmem =>
    hex ((and_low_mask_ne_zero_iff hexclude).mpr ⟨i, hi, hmem⟩)
  have hsafe := hsafe.imp_right fun h => h hno
  obtain ⟨s, hpunch, hsub, hshown⟩ := @punchHoles_shown _ _ compLayers _ hdedicated hall hsafe
  rw [hpunch]
  simp only [Option.bind_eq_bind, Option.bind_some]
  -- the region is none of the exclude rectangles, so that it is one of the others
  have hoffset : ¬ 64 ≤ numExcludeRects + dedicatedLayers.length := by
    intro hfull
    obtain ⟨i, hi⟩ := hne
    have h64 : i < 64 := BitVec.lt_of_getLsbD hi
    have hge : ¬ i < numExcludeRects := fun hlt => hno i hlt hi
    have hsome := (hsafe.resolve_left (by omega)) (i - numExcludeRects) (by omega)
    rw [Nat.sub_add_cancel (Nat.le_of_not_lt hge)] at hsome
    exact hsome hi
  rw [if_neg hoffset]
  have hbit : ∀ j, (s.getBits >>> (numExcludeRects + dedicatedLayers.length)).getLsbD j = true ↔
      s.Mem (j + (numExcludeRects + dedicatedLayers.length)) := by
    intro j
    rw [BitVec.getLsbD_ushiftRight, Nat.add_comm _ j]
    rfl
  have hrange : ∀ j, (s.getBits >>> (numExcludeRects + dedicatedLayers.length)).getLsbD j = true →
      j < compLayers.length := by
    intro j hj
    have hlt := hbound _ (hsub _ ((hbit j).mp hj))
    omega
  have hshown : ∀ j c, compLayers[j]? = some c →
      ((s.getBits >>> (numExcludeRects + dedicatedLayers.length)).getLsbD j = true ↔
        region.idSet.Mem (j + (numExcludeRects + dedicatedLayers.length)) ∧
          ∀ a d, dedicatedLayers[a]? = some d → region.idSet.Mem (a + numExcludeRects) →
            ¬ c < d) :=
    fun j c hj => (hbit j).trans (hshown j c hj)
  by_cases hzero : s.getBits >>> (numExcludeRects + dedicatedLayers.length) = 0#64
  · rw [if_pos hzero]
    refine ⟨[], rfl, .hidden hno fun c hc => ?_⟩
    obtain ⟨j, hj, hin, habove⟩ := hc
    have hset := (hshown j c hj).mpr ⟨hin, habove⟩
    rw [hzero, BitVec.getLsbD_zero] at hset
    cases hset
  · rw [if_neg hzero]
    obtain ⟨sourceLayers, hset, hdesc, hsources⟩ := setBitsToVector_spec hrange hsorted
    have hsources' : ∀ c, c ∈ sourceLayers ↔
        Shown numExcludeRects dedicatedLayers compLayers region.idSet c := by
      intro c
      rw [hsources c]
      exact exists_congr fun j => and_congr_right fun hj => hshown j c hj
    rw [hset]
    refine ⟨[⟨region.rect, sourceLayers⟩], rfl, .visible sourceLayers hno hdesc hsources' ?_⟩
    by_contra hnone
    refine hzero (eq_zero_iff_getLsbD.mpr fun j => Bool.eq_false_iff.mpr fun hset => ?_)
    have hget := List.getElem?_eq_getElem (hrange j hset)
    exact hnone ⟨_, j, hget, (hshown j _ hget).mp hset⟩

/-! ## The frames and their indices -/

/-- The display frame of layer `i` covers the point. -/
def FrameCovers (layers : List (DrmHwcLayer F)) (x y : Int) (i : Nat) : Prop :=
  ∃ layer, layers[i]? = some layer ∧ layer.displayFrame.Contains x y

theorem displayFrames_spec {layers : List (DrmHwcLayer F)} :
    ∀ {indices : List Nat}, (∀ i ∈ indices, i < layers.length) →
      ∃ frames, displayFrames layers indices = some frames ∧
        frames.length = indices.length ∧
        ∀ x y j i, indices[j]? = some i → (Covers frames x y j ↔ FrameCovers layers x y i) := by
  intro indices
  induction indices with
  | nil => intro _; exact ⟨[], rfl, rfl, fun _ _ j i h => by simp at h⟩
  | cons i indices ih =>
      intro h
      obtain ⟨frames, hframes, hlen, hcovers⟩ := ih fun j hj => h j (List.mem_cons_of_mem i hj)
      have hlt := h i List.mem_cons_self
      have hi := List.getElem?_eq_getElem hlt
      refine ⟨layers[i].displayFrame :: frames, ?_, by simp [hlen], fun x y j k hj => ?_⟩
      · rw [displayFrames] at hframes ⊢
        rw [List.mapM_cons, hframes, hi]
        rfl
      · cases j with
        | zero =>
            cases hj
            simp [Covers, FrameCovers, hi]
        | succ j => exact hcovers x y j k hj

theorem covers_append_left {TNum : Type} [LinearOrder TNum] {a b : List (Rect TNum)} {x y : TNum}
    {i : Nat} (hi : i < a.length) : Covers (a ++ b) x y i ↔ Covers a x y i := by
  rw [Covers, Covers, List.getElem?_append_left hi]

theorem covers_append_right {TNum : Type} [LinearOrder TNum] {a b : List (Rect TNum)} {x y : TNum}
    {i n : Nat} (hn : a.length = n) : Covers (a ++ b) x y (i + n) ↔ Covers b x y i := by
  rw [Covers, Covers, List.getElem?_append_right (by omega), hn, Nat.add_sub_cancel]

theorem Covers.lt_length {TNum : Type} [LinearOrder TNum] {rects : List (Rect TNum)}
    {x y : TNum} {i : Nat} (h : Covers rects x y i) : i < rects.length := by
  obtain ⟨r, hr, _⟩ := h
  exact (List.getElem?_eq_some_iff.mp hr).1

/-! ## The regions of a frame -/

/-- The precomposed layer `c` has to be seen at the point: it covers it, and no dedicated
layer there belongs above it. -/
def VisibleIn (layers : List (DrmHwcLayer F)) (dedicatedLayers compLayers : List Nat)
    (x y : Int) (c : Nat) : Prop :=
  c ∈ compLayers ∧ FrameCovers layers x y c ∧
    ∀ d ∈ dedicatedLayers, FrameCovers layers x y d → ¬ c < d

/-- The regions show, at every point outside the exclude rectangles, exactly the layers
that have to be seen there. -/
structure HolePunched (layers : List (DrmHwcLayer F)) (dedicatedLayers compLayers : List Nat)
    (excludeRects : List (Rect Int)) (regions : List DrmCompositionRegion) : Prop where
  disjoint : regions.Pairwise fun a b => a.frame.Disjoint b.frame
  covers : ∀ x y, (∃ region ∈ regions, region.frame.Contains x y) ↔
    (∀ r ∈ excludeRects, ¬ r.Contains x y) ∧
      ∃ c, VisibleIn layers dedicatedLayers compLayers x y c
  sources : ∀ region ∈ regions, ∀ x y, region.frame.Contains x y → ∀ c,
    c ∈ region.sourceLayers ↔ VisibleIn layers dedicatedLayers compLayers x y c
  descending : ∀ region ∈ regions, region.sourceLayers.Pairwise (· > ·)

section Assembly

variable {layers : List (DrmHwcLayer F)} {dedicatedLayers compLayers : List Nat}
  {excludeRects dedicatedFrames compFrames : List (Rect Int)} {x y : Int}

theorem RegionOf.region {numExcludeRects : Nat} {region : RectSet Int}
    {out : List DrmCompositionRegion}
    (h : RegionOf numExcludeRects dedicatedLayers compLayers region out) :
    ∀ r ∈ out, r.frame = region.rect ∧ r.sourceLayers.Pairwise (· > ·) ∧
      ∀ c, c ∈ r.sourceLayers ↔
        Shown numExcludeRects dedicatedLayers compLayers region.idSet c := by
  intro r hr
  cases h with
  | excluded i hi hmem => cases hr
  | hidden hno hnone => cases hr
  | visible sourceLayers hno hdesc hsources hsome =>
      cases List.mem_singleton.mp hr
      exact ⟨rfl, hdesc, hsources⟩

theorem RegionOf.exists_iff {numExcludeRects : Nat} {region : RectSet Int}
    {out : List DrmCompositionRegion}
    (h : RegionOf numExcludeRects dedicatedLayers compLayers region out) :
    (∃ r, r ∈ out) ↔ (∀ i, i < numExcludeRects → ¬ region.idSet.Mem i) ∧
      ∃ c, Shown numExcludeRects dedicatedLayers compLayers region.idSet c := by
  cases h with
  | excluded i hi hmem => exact ⟨by simp, fun h => absurd hmem (h.1 i hi)⟩
  | hidden hno hnone => exact ⟨by simp, fun h => absurd h.2 (not_exists.mpr hnone)⟩
  | visible sourceLayers hno hdesc hsources hsome =>
      exact ⟨fun _ => ⟨hno, hsome⟩, fun _ => ⟨_, List.mem_singleton_self _⟩⟩

theorem RegionOf.pairwise {numExcludeRects : Nat} {region : RectSet Int}
    {out : List DrmCompositionRegion}
    (h : RegionOf numExcludeRects dedicatedLayers compLayers region out)
    (R : DrmCompositionRegion → DrmCompositionRegion → Prop) : out.Pairwise R := by
  cases h with
  | excluded i hi hmem => exact List.Pairwise.nil
  | hidden hno hnone => exact List.Pairwise.nil
  | visible sourceLayers hno hdesc hsources hsome => exact List.pairwise_singleton R _

theorem mem_excluded_iff {s : IdSet}
    (hs : ∀ i, s.Mem i ↔ Covers (excludeRects ++ dedicatedFrames ++ compFrames) x y i) :
    (∀ i, i < excludeRects.length → ¬ s.Mem i) ↔ ∀ r ∈ excludeRects, ¬ r.Contains x y := by
  have hex : ∀ i, i < excludeRects.length → (s.Mem i ↔ Covers excludeRects x y i) := by
    intro i hi
    rw [hs, covers_append_left (by rw [List.length_append]; omega), covers_append_left hi]
  refine ⟨fun h r hr hc => ?_, fun h i hi hmem => ?_⟩
  · obtain ⟨i, hi⟩ := List.mem_iff_getElem?.mp hr
    have hlt : i < excludeRects.length := (List.getElem?_eq_some_iff.mp hi).1
    exact h i hlt ((hex i hlt).mpr ⟨r, hi, hc⟩)
  · obtain ⟨r, hr, hc⟩ := (hex i hi).mp hmem
    exact h r (List.mem_of_getElem? hr) hc

/-! ## The sweep over the frames -/

/-- The rectangles of the sweep know, by their index sets, which exclude rectangles, dedicated
layers and precomposed layers are at their points. -/
structure SweptLayers (layers : List (DrmHwcLayer F)) (dedicatedLayers compLayers : List Nat)
    (excludeRects : List (Rect Int)) (sep : List (RectSet Int)) : Prop where
  disjoint : sep.Pairwise fun a b => a.rect.Disjoint b.rect
  point : ∀ o ∈ sep, ∃ x y, o.rect.Contains x y
  mem : ∀ o ∈ sep, ∃ i, o.idSet.Mem i
  bound : ∀ o ∈ sep, ∀ i, o.idSet.Mem i →
    i < excludeRects.length + dedicatedLayers.length + compLayers.length
  excluded : ∀ o ∈ sep, ∀ x y, o.rect.Contains x y →
    ((∀ i, i < excludeRects.length → ¬ o.idSet.Mem i) ↔ ∀ r ∈ excludeRects, ¬ r.Contains x y)
  dedicated : ∀ o ∈ sep, ∀ x y, o.rect.Contains x y → ∀ a d, dedicatedLayers[a]? = some d →
    (o.idSet.Mem (a + excludeRects.length) ↔ FrameCovers layers x y d)
  composed : ∀ o ∈ sep, ∀ x y, o.rect.Contains x y → ∀ j c, compLayers[j]? = some c →
    (o.idSet.Mem (j + (excludeRects.length + dedicatedLayers.length)) ↔ FrameCovers layers x y c)
  covers : ∀ x y i, i ∈ dedicatedLayers ∨ i ∈ compLayers → FrameCovers layers x y i →
    ∃ o ∈ sep, o.rect.Contains x y

theorem ExactCover.sweptLayers {sep : List (RectSet Int)}
    (hcover : ExactCover (excludeRects ++ dedicatedFrames ++ compFrames) sep)
    (hdedLen : dedicatedFrames.length = dedicatedLayers.length)
    (hcompLen : compFrames.length = compLayers.length)
    (hdedCovers : ∀ x y j i, dedicatedLayers[j]? = some i →
      (Covers dedicatedFrames x y j ↔ FrameCovers layers x y i))
    (hcompCovers : ∀ x y j i, compLayers[j]? = some i →
      (Covers compFrames x y j ↔ FrameCovers layers x y i)) :
    SweptLayers layers dedicatedLayers compLayers excludeRects sep := by
  have hpoint : ∀ o ∈ sep, ∃ x y, o.rect.Contains x y := fun o ho =>
    ⟨_, _, (hcover.nonempty o ho).contains_corner⟩
  have hcompIndex : ∀ x y j c, compLayers[j]? = some c →
      (Covers (excludeRects ++ dedicatedFrames ++ compFrames) x y
        (j + (excludeRects.length + dedicatedLayers.length)) ↔ FrameCovers layers x y c) := by
    intro x y j c hj
    rw [covers_append_right (by rw [List.length_append, hdedLen]), hcompCovers x y j c hj]
  have hdedIndex : ∀ x y a d, dedicatedLayers[a]? = some d →
      (Covers (excludeRects ++ dedicatedFrames ++ compFrames) x y (a + excludeRects.length) ↔
        FrameCovers layers x y d) := by
    intro x y a d ha
    have hlt : a < dedicatedLayers.length := (List.getElem?_eq_some_iff.mp ha).1
    rw [covers_append_left (by rw [List.length_append, hdedLen]; omega), covers_append_right rfl,
      hdedCovers x y a d ha]
  refine ⟨hcover.disjoint, hpoint, fun o ho => ?_, fun o ho i hi => ?_, fun o ho x y hc => ?_,
    fun o ho x y hc a d ha => ?_, fun o ho x y hc j c hj => ?_, fun x y i hi hcovers => ?_⟩
  · obtain ⟨x, y, hc⟩ := hpoint o ho
    obtain ⟨i, hi⟩ := (hcover.covers x y).mp ⟨o, ho, hc⟩
    exact ⟨i, (hcover.idSet o ho x y hc i).mpr hi⟩
  · obtain ⟨x, y, hc⟩ := hpoint o ho
    have hlt := ((hcover.idSet o ho x y hc i).mp hi).lt_length
    rw [List.length_append, List.length_append, hdedLen, hcompLen] at hlt
    exact hlt
  · exact mem_excluded_iff (hcover.idSet o ho x y hc)
  · rw [hcover.idSet o ho x y hc, hdedIndex x y a d ha]
  · rw [hcover.idSet o ho x y hc, hcompIndex x y j c hj]
  · refine (hcover.covers x y).mpr ?_
    cases hi with
    | inl hmem =>
        obtain ⟨a, ha⟩ := List.mem_iff_getElem?.mp hmem
        exact ⟨_, (hdedIndex x y a i ha).mpr hcovers⟩
    | inr hmem =>
        obtain ⟨j, hj⟩ := List.mem_iff_getElem?.mp hmem
        exact ⟨_, (hcompIndex x y j i hj).mpr hcovers⟩

/-- In a rectangle of the sweep, the layers that stay are those to be seen at its points. -/
theorem SweptLayers.shown_iff {sep : List (RectSet Int)}
    (h : SweptLayers layers dedicatedLayers compLayers excludeRects sep) {o : RectSet Int}
    (ho : o ∈ sep) (hc : o.rect.Contains x y) (c : Nat) :
    Shown excludeRects.length dedicatedLayers compLayers o.idSet c ↔
      VisibleIn layers dedicatedLayers compLayers x y c := by
  refine ⟨fun hshown => ?_, fun hvisible => ?_⟩
  · obtain ⟨j, hj, hin, habove⟩ := hshown
    refine ⟨List.mem_of_getElem? hj, (h.composed o ho x y hc j c hj).mp hin, ?_⟩
    intro d hd hcovers
    obtain ⟨a, ha⟩ := List.mem_iff_getElem?.mp hd
    exact habove a d ha ((h.dedicated o ho x y hc a d ha).mpr hcovers)
  · obtain ⟨hmem, hcovers, habove⟩ := hvisible
    obtain ⟨j, hj⟩ := List.mem_iff_getElem?.mp hmem
    refine ⟨j, hj, (h.composed o ho x y hc j c hj).mpr hcovers, ?_⟩
    intro a d ha hin
    exact habove d (List.mem_of_getElem? ha) ((h.dedicated o ho x y hc a d ha).mp hin)

end Assembly

/-! ## The loop over the regions -/

section Regions

variable {layers : List (DrmHwcLayer F)} {planes : List DrmCompositionPlane}
  {dedicatedLayers compLayers : List Nat} {excludeRects : List (Rect Int)}
  {sep : List (RectSet Int)}

/-- The loop over the rectangles of the sweep. -/
def separateRegions (excludeRects : List (Rect Int)) (dedicatedLayers compLayers : List Nat)
    (sep : List (RectSet Int)) : Option (List (List DrmCompositionRegion)) :=
  sep.mapM (separateRegion excludeRects.length (excludeRects.length + dedicatedLayers.length)
    dedicatedLayers compLayers ((1#64 <<< excludeRects.length) - 1#64)
    (((1#64 <<< dedicatedLayers.length) - 1#64) <<< excludeRects.length))

/-- What is left of `SeparateLayers` once the rectangles fit into the set. -/
theorem separateLayers_eq (hfind : findPrecomp planes [] = some (dedicatedLayers, compLayers))
    (hded : ∀ i ∈ dedicatedLayers, i < layers.length)
    (hcomp : ∀ i ∈ compLayers, i < layers.length)
    (hall : excludeRects.length + dedicatedLayers.length + compLayers.length ≤ 64) :
    ∃ sep, SweptLayers layers dedicatedLayers compLayers excludeRects sep ∧
      separateLayers layers planes excludeRects =
        if excludeRects.length < 64 ∧ dedicatedLayers.length < 64 then
          (separateRegions excludeRects dedicatedLayers compLayers sep).map List.flatten
        else none := by
  obtain ⟨dedicatedFrames, hdedFrames, hdedLen, hdedCovers⟩ := displayFrames_spec hded
  obtain ⟨compFrames, hcompFrames, hcompLen, hcompCovers⟩ := displayFrames_spec hcomp
  have hlen : (excludeRects ++ dedicatedFrames ++ compFrames).length ≤ 64 := by
    rw [List.length_append, List.length_append, hdedLen, hcompLen]
    exact hall
  obtain ⟨sep, hsep, hcover⟩ := @separateRects_exactCover Int _ _ hlen
  refine ⟨sep, hcover.sweptLayers hdedLen hcompLen hdedCovers hcompCovers, ?_⟩
  have hgap : excludeRects.length + dedicatedLayers.length - excludeRects.length -
      dedicatedLayers.length = 0 := by omega
  have hnum : (if 64 < compLayers.length + (excludeRects.length + dedicatedLayers.length) then
      (2 ^ 64 + 64 - compLayers.length - dedicatedLayers.length) % 2 ^ 64
      else excludeRects.length) = excludeRects.length := if_neg (by omega)
  simp only [separateLayers, hfind]
  rw [if_neg (by omega), hnum, if_neg (Nat.lt_irrefl _), hdedFrames, hcompFrames]
  simp only [Option.bind_eq_bind, Option.bind_some, List.take_length, hgap,
    List.replicate_zero, List.append_nil]
  rw [separateRects64, hsep, Option.bind_some]
  by_cases hexclude : excludeRects.length < 64
  · rw [uint64Bit_eq hexclude, Option.bind_some]
    by_cases hdedicated : dedicatedLayers.length < 64
    · rw [uint64Bit_eq hdedicated, if_pos ⟨hexclude, hdedicated⟩, separateRegions,
        Option.map_eq_bind]
      rfl
    · rw [uint64Bit_eq_none hdedicated, if_neg (fun h => hdedicated h.2), Option.bind_none]
  · rw [uint64Bit_eq_none hexclude, if_neg (fun h => hexclude h.1), Option.bind_none]

/-- The bits of the holes are in reach of an `int`, or no hole is punched outside the exclude
rectangles. -/
def HolesFit (layers : List (DrmHwcLayer F)) (dedicatedLayers : List Nat)
    (excludeRects : List (Rect Int)) : Prop :=
  excludeRects.length + dedicatedLayers.length ≤ 32 ∨
    ∀ x y, ∀ d ∈ dedicatedLayers, FrameCovers layers x y d →
      ∃ r ∈ excludeRects, r.Contains x y

theorem SweptLayers.regions (h : SweptLayers layers dedicatedLayers compLayers excludeRects sep)
    (hexclude : excludeRects.length < 64) (hdedicated : dedicatedLayers.length < 64)
    (hall : excludeRects.length + dedicatedLayers.length ≤ 64)
    (hsorted : compLayers.Pairwise (· < ·))
    (hfit : HolesFit layers dedicatedLayers excludeRects) :
    ∃ regions, separateRegions excludeRects dedicatedLayers compLayers sep = some regions ∧
      HolePunched layers dedicatedLayers compLayers excludeRects regions.flatten := by
  generalize hstep : separateRegion excludeRects.length
    (excludeRects.length + dedicatedLayers.length) dedicatedLayers compLayers
    ((1#64 <<< excludeRects.length) - 1#64)
    (((1#64 <<< dedicatedLayers.length) - 1#64) <<< excludeRects.length) = step
  have hregion : ∀ o ∈ sep, ∃ out, step o = some out ∧
      RegionOf excludeRects.length dedicatedLayers compLayers o out := by
    intro o ho
    rw [← hstep]
    refine separateRegion_spec hexclude hdedicated hall hsorted (h.mem o ho) (h.bound o ho) ?_
    refine hfit.imp_right fun hcovered hno a ha hmem => ?_
    obtain ⟨x, y, hc⟩ := h.point o ho
    have hget := List.getElem?_eq_getElem ha
    obtain ⟨r, hr, hrc⟩ := hcovered x y _ (List.mem_of_getElem? hget)
      ((h.dedicated o ho x y hc a _ hget).mp hmem)
    exact (h.excluded o ho x y hc).mp hno r hr hrc
  have hregions : sep.mapM step = some (sep.map fun o => (step o).getD []) :=
    mapM_eq_map fun o ho => by
      obtain ⟨out, hsome, -⟩ := hregion o ho
      rw [hsome, Option.getD_some]
  have hout : ∀ o ∈ sep, RegionOf excludeRects.length dedicatedLayers compLayers o
      ((step o).getD []) := by
    intro o ho
    obtain ⟨out, hsome, hspec⟩ := hregion o ho
    rw [hsome]
    exact hspec
  refine ⟨_, by rw [separateRegions, hstep, hregions], ?_⟩
  rw [← List.flatMap_def]
  refine ⟨?_, fun x y => ⟨fun hin => ?_, fun hvis => ?_⟩, fun r hr x y hc c => ?_, fun r hr => ?_⟩
  · rw [List.pairwise_flatMap]
    refine ⟨fun o ho => (hout o ho).pairwise _, List.Pairwise.imp_of_mem ?_ h.disjoint⟩
    intro a b ha hb hdisj r hr r' hr'
    rw [((hout a ha).region r hr).1, ((hout b hb).region r' hr').1]
    exact hdisj
  · obtain ⟨r, hr, hc⟩ := hin
    obtain ⟨o, ho, hro⟩ := List.mem_flatMap.mp hr
    rw [((hout o ho).region r hro).1] at hc
    obtain ⟨hno, c, hshown⟩ := (hout o ho).exists_iff.mp ⟨r, hro⟩
    exact ⟨(h.excluded o ho x y hc).mp hno, c, (h.shown_iff ho hc c).mp hshown⟩
  · obtain ⟨hno, c, hvisible⟩ := hvis
    -- the point lies in a rectangle of the sweep because the layer's frame covers it
    obtain ⟨o, ho, hc⟩ := h.covers x y c (Or.inr hvisible.1) hvisible.2.1
    obtain ⟨r, hr⟩ := (hout o ho).exists_iff.mpr
      ⟨(h.excluded o ho x y hc).mpr hno, c, (h.shown_iff ho hc c).mpr hvisible⟩
    refine ⟨r, List.mem_flatMap.mpr ⟨o, ho, hr⟩, ?_⟩
    rw [((hout o ho).region r hr).1]
    exact hc
  · obtain ⟨o, ho, hro⟩ := List.mem_flatMap.mp hr
    obtain ⟨hframe, _, hsources⟩ := (hout o ho).region r hro
    rw [hframe] at hc
    rw [hsources c, h.shown_iff ho hc c]
  · obtain ⟨o, ho, hro⟩ := List.mem_flatMap.mp hr
    exact ((hout o ho).region r hro).2.1

/-- As long as the rectangles fit into the set and the holes into an `int`, the regions are
those that have to be rendered. -/
theorem separateLayers_holePunched
    (hfind : findPrecomp planes [] = some (dedicatedLayers, compLayers))
    (hded : ∀ i ∈ dedicatedLayers, i < layers.length)
    (hcomp : ∀ i ∈ compLayers, i < layers.length)
    (hsorted : compLayers.Pairwise (· < ·))
    (hall : excludeRects.length + dedicatedLayers.length + compLayers.length ≤ 64)
    (hexclude : excludeRects.length < 64) (hdedicated : dedicatedLayers.length < 64)
    (hfit : HolesFit layers dedicatedLayers excludeRects) :
    ∃ regions, separateLayers layers planes excludeRects = some regions ∧
      HolePunched layers dedicatedLayers compLayers excludeRects regions := by
  obtain ⟨sep, hswept, heq⟩ := separateLayers_eq hfind hded hcomp hall
  obtain ⟨regions, hregions, hholes⟩ := hswept.regions hexclude hdedicated (by omega) hsorted hfit
  refine ⟨regions.flatten, ?_, hholes⟩
  rw [heq, if_pos ⟨hexclude, hdedicated⟩, hregions]
  rfl

end Regions

end DragonDevice.Hwc
