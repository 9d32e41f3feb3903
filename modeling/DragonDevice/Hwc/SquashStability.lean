/-
  Hwc/SquashStability.lean --- which regions `SquashState` calls stable.

  A region is stable in a frame when enough frames were recorded and none of the layers
  over it changed, neither in this frame nor in the last recorded ones.  The state
  knows this by a counter, the buffers of the last frame and one shift register for
  each region; `Recorded` says what these hold after any number of frames.
-/
import DragonDevice.Hwc.PlannerPlacement
import DragonDevice.Hwc.SeparateLayers
import DragonDevice.Hwc.SquashMarks
import DragonDevice.Lib.ShiftRegister

set_option autoImplicit false

namespace DragonDevice.Hwc

open DragonDevice.Lib

variable {F : Type}

/-! ## Changed layers -/

/-- A layer of the list, in a frame and in the one before it, counts as changed. -/
def LayerDiffers (prev cur : List (DrmHwcLayer F)) (i : Nat) : Prop :=
  ∃ layer before, cur[i]? = some layer ∧ prev[i]? = some before ∧
    (layer.protectedUsage = true ∨ before.sfHandle ≠ layer.sfHandle)

theorem SquashState.layerChangedAt_iff {squash : SquashState} {prev cur : List (DrmHwcLayer F)}
    (hhandles : squash.lastHandles = prev.map (·.sfHandle)) (i : Nat) :
    squash.LayerChangedAt cur i ↔ LayerDiffers prev cur i := by
  rw [SquashState.LayerChangedAt, LayerDiffers, hhandles]
  refine ⟨fun h => ?_, fun h => ?_⟩
  · obtain ⟨layer, handle, hlayer, hhandle, hchanged⟩ := h
    rw [List.getElem?_map] at hhandle
    obtain ⟨before, hbefore, heq⟩ := Option.map_eq_some_iff.mp hhandle
    rw [← heq] at hchanged
    exact ⟨layer, before, hlayer, hbefore, hchanged⟩
  · obtain ⟨layer, before, hlayer, hbefore, hchanged⟩ := h
    refine ⟨layer, before.sfHandle, hlayer, ?_, hchanged⟩
    rw [List.getElem?_map, hbefore]
    rfl

/-- Some layer of the set counts as changed. -/
def RefsDiffer (refs : BitVec 64) (prev cur : List (DrmHwcLayer F)) : Prop :=
  ∃ i, refs.getLsbD i = true ∧ LayerDiffers prev cur i

theorem and_ne_zero_iff {x y : BitVec 64} :
    x &&& y ≠ 0#64 ↔ ∃ i, x.getLsbD i = true ∧ y.getLsbD i = true := by
  rw [Ne, eq_zero_iff_getLsbD, not_forall]
  refine exists_congr fun i => ?_
  rw [BitVec.getLsbD_and, Bool.not_eq_false, Bool.and_eq_true]

/-! ## Frames -/

namespace SquashState

/-- `GenerateHistory`, `StableRegionsWithMarginalHistory` and `RecordHistory` for one frame:
what is reported stable, and the state after it. -/
def nextFrame (squash : SquashState) (layers : List (DrmHwcLayer F)) :
    Option (List Bool × SquashState) := do
  let changedRegions ← squash.generateHistory layers
  some (squash.stableRegionsWithMarginalHistory changedRegions,
    squash.recordHistory layers changedRegions)

/-- Frames, one after the other. -/
def nextFrames (squash : SquashState) (frames : List (List (DrmHwcLayer F))) :
    Option SquashState :=
  frames.foldlM (fun squash layers => (squash.nextFrame layers).map (·.2)) squash

end SquashState

/-- `j` frames ago a layer of the set changed; `past` holds the frames up to now, the newest
first. -/
def DifferedAgo (refs : BitVec 64) (past : List (List (DrmHwcLayer F))) (j : Nat) : Prop :=
  ∃ cur prev, past[j]? = some cur ∧ past[j + 1]? = some prev ∧ RefsDiffer refs prev cur

/-- What the state holds after the frames of `past`, the oldest of which was that of `Init`. -/
structure Recorded (outs : List (RectSet Int)) (cur : List (DrmHwcLayer F))
    (past : List (List (DrmHwcLayer F))) (squash : SquashState) : Prop where
  valid : squash.validHistory = BitVec.ofNat 32 past.length
  handles : squash.lastHandles = cur.map (·.sfHandle)
  regions : squash.regions.map (fun region => (region.rect, region.layerRefs)) =
    outs.map fun o => (o.rect, o.idSet.getBits)
  history : ∀ region ∈ squash.regions,
    Remembers region.changeHistory (DifferedAgo region.layerRefs (cur :: past))

namespace Recorded

variable {outs : List (RectSet Int)} {cur next : List (DrmHwcLayer F)}
  {past : List (List (DrmHwcLayer F))} {squash : SquashState}

theorem generateHistory (h : Recorded outs cur past squash) (hlen : next.length = cur.length)
    (h64 : next.length ≤ 64) :
    ∃ changed : SquashRegion → Bool,
      squash.generateHistory next = some (squash.regions.map changed) ∧
      ∀ region, changed region = true ↔ RefsDiffer region.layerRefs cur next := by
  have hbounded : ∀ i, squash.LayerChangedAt next i → ¬ 64 ≤ i := by
    intro i hchanged
    obtain ⟨_, _, hlayer, _⟩ := hchanged
    have := (List.getElem?_eq_some_iff.mp hlayer).1
    omega
  obtain ⟨changed, hchanged, hbits⟩ := (squash.changedLayers_spec next).resolve_right
    fun hnone => hnone.2.elim fun i hi => hbounded i hi.1 hi.2
  refine ⟨fun region => region.layerRefs &&& changed != 0#64, ?_, fun region => ?_⟩
  · rw [SquashState.generateHistory, if_neg, hchanged]
    · rfl
    · rw [h.handles, List.length_map, hlen]
      exact fun hne => hne rfl
  · rw [bne_iff_ne, and_ne_zero_iff]
    refine exists_congr fun i => and_congr_right fun _ => ?_
    rw [hbits i, SquashState.layerChangedAt_iff h.handles]

/-- One frame more. -/
theorem recordHistory (h : Recorded outs cur past squash) (hlen : next.length = cur.length)
    {changed : SquashRegion → Bool}
    (hchanged : ∀ region, changed region = true ↔ RefsDiffer region.layerRefs cur next) :
    Recorded outs next (cur :: past)
      (squash.recordHistory next (squash.regions.map changed)) := by
  have hlength : ¬ next.length ≠ squash.lastHandles.length := by
    rw [h.handles, List.length_map, hlen]
    exact fun hne => hne rfl
  have hregions : ¬ (squash.regions.map changed).length ≠ squash.regions.length := by
    rw [List.length_map]
    exact fun hne => hne rfl
  rw [SquashState.recordHistory, if_neg hlength, if_neg hregions, List.zipWith_map_right,
    List.zipWith_self]
  refine ⟨?_, rfl, ?_, fun region hregion => ?_⟩
  · show squash.validHistory + 1#32 = _
    rw [h.valid, List.length_cons, ← BitVec.ofNat_add]
  · rw [← h.regions]
    simp only [List.map_map]
    rfl
  · obtain ⟨old, hold, heq⟩ := List.mem_map.mp hregion
    rw [← heq]
    refine (h.history old hold).shiftIn ((hchanged old).trans ?_) fun j => Iff.rfl
    refine ⟨fun hdiffers => ⟨next, cur, rfl, rfl, hdiffers⟩, fun hdiffers => ?_⟩
    obtain ⟨_, _, hnext, hcur, hdiffers⟩ := hdiffers
    cases hnext
    cases hcur
    exact hdiffers

/-- Any number of frames more. -/
theorem nextFrames {count : Nat} (h64 : count ≤ 64) :
    ∀ (frames : List (List (DrmHwcLayer F))) (cur : List (DrmHwcLayer F))
      (past : List (List (DrmHwcLayer F))) (squash : SquashState),
      Recorded outs cur past squash → cur.length = count → (∀ l ∈ frames, l.length = count) →
      ∃ squash' last earlier, squash.nextFrames frames = some squash' ∧
        Recorded outs last earlier squash' ∧ last.length = count ∧
        last :: earlier = frames.reverse ++ cur :: past := by
  intro frames
  induction frames with
  | nil =>
      intro cur past squash h hcur _
      exact ⟨squash, cur, past, rfl, h, hcur, rfl⟩
  | cons next frames ih =>
      intro cur past squash h hcur hframes
      have hnext := hframes next List.mem_cons_self
      obtain ⟨changed, hhistory, hchanged⟩ := h.generateHistory (hnext.trans hcur.symm)
        (hnext.trans_le h64)
      obtain ⟨squash', last, earlier, hrun, hlast, hlength, heq⟩ := ih next (cur :: past) _
        (h.recordHistory (hnext.trans hcur.symm) hchanged) hnext
        fun l hl => hframes l (List.mem_cons_of_mem next hl)
      refine ⟨squash', last, earlier, ?_, hlast, hlength, ?_⟩
      · rw [SquashState.nextFrames, List.foldlM_cons, SquashState.nextFrame, hhistory]
        exact hrun
      · rw [heq, List.reverse_cons, List.append_assoc]
        rfl

/-- What is reported stable: the register of the region is empty, and so is this frame. -/
theorem stable_iff (h : Recorded outs cur past squash) (hcount : past.length < 2 ^ 32)
    {changed : SquashRegion → Bool}
    (hchanged : ∀ region, changed region = true ↔ RefsDiffer region.layerRefs cur next)
    {region : SquashRegion} (hregion : region ∈ squash.regions) :
    (!changed region && squash.isStable region) = true ↔
      kHistoryLength ≤ past.length ∧
        ∀ j, j ≤ kHistoryLength → ¬ DifferedAgo region.layerRefs (next :: cur :: past) j := by
  have hnow : changed region = false ↔ ¬ DifferedAgo region.layerRefs (next :: cur :: past) 0 := by
    rw [← Bool.not_eq_true, hchanged region, not_iff_not]
    refine ⟨fun hdiffers => ⟨next, cur, rfl, rfl, hdiffers⟩, fun hdiffers => ?_⟩
    obtain ⟨_, _, hnext, hcur, hdiffers⟩ := hdiffers
    cases hnext
    cases hcur
    exact hdiffers
  have hvalid : squash.validHistory.toNat = past.length := by
    rw [h.valid, BitVec.toNat_ofNat, Nat.mod_eq_of_lt hcount]
  rw [SquashState.isStable, Bool.and_eq_true, Bool.and_eq_true, Bool.not_eq_true', hnow,
    decide_eq_true_iff, hvalid, beq_iff_eq, (h.history region hregion).eq_zero_iff]
  refine ⟨fun hstable => ⟨hstable.2.1, fun j hj => ?_⟩, fun hstable => ⟨?_, hstable.1, ?_⟩⟩
  · cases j with
    | zero => exact hstable.1
    | succ j => exact hstable.2.2 j hj
  · exact hstable.2 0 (Nat.zero_le _)
  · exact fun j hj => hstable.2 (j + 1) hj

end Recorded

/-! ## Stability -/

/-- The frame of a layer of the list covers a point of the rectangle. -/
def Overlaps (layers : List (DrmHwcLayer F)) (rect : Rect Int) (i : Nat) : Prop :=
  ∃ x y, rect.Contains x y ∧ FrameCovers layers x y i

/-- A layer over the rectangle is protected, or has another buffer than in the frame before. -/
def RegionDiffers (first : List (DrmHwcLayer F)) (rect : Rect Int)
    (prev cur : List (DrmHwcLayer F)) : Prop :=
  ∃ i, Overlaps first rect i ∧ LayerDiffers prev cur i

/-- Nothing over the rectangle changed in the newest frame of `past` and in the `kHistoryLength`
frames before it. -/
def Undisturbed (first : List (DrmHwcLayer F)) (past : List (List (DrmHwcLayer F)))
    (rect : Rect Int) : Prop :=
  ∀ j cur prev, j ≤ kHistoryLength → past[j]? = some cur → past[j + 1]? = some prev →
    ¬ RegionDiffers first rect prev cur

theorem undisturbed_iff {first : List (DrmHwcLayer F)} {past : List (List (DrmHwcLayer F))}
    {rect : Rect Int} {refs : BitVec 64}
    (hrefs : ∀ i, refs.getLsbD i = true ↔ Overlaps first rect i) :
    (∀ j, j ≤ kHistoryLength → ¬ DifferedAgo refs past j) ↔ Undisturbed first past rect := by
  have hdiffer : ∀ prev cur, RefsDiffer refs prev cur ↔ RegionDiffers first rect prev cur :=
    fun prev cur => exists_congr fun i => and_congr_left fun _ => hrefs i
  refine ⟨fun h j cur prev hj hcur hprev hdiffers => ?_, fun h j hj hago => ?_⟩
  · exact h j hj ⟨cur, prev, hcur, hprev, (hdiffer prev cur).mpr hdiffers⟩
  · obtain ⟨cur, prev, hcur, hprev, hdiffers⟩ := hago
    exact h j cur prev hj hcur hprev ((hdiffer prev cur).mp hdiffers)

theorem covers_displayFrames {layers : List (DrmHwcLayer F)} {x y : Int} {i : Nat} :
    Covers (layers.map (·.displayFrame)) x y i ↔ FrameCovers layers x y i := by
  rw [Covers, FrameCovers, List.getElem?_map]
  refine ⟨fun h => ?_, fun h => ?_⟩
  · obtain ⟨r, hr, hc⟩ := h
    obtain ⟨layer, hlayer, heq⟩ := Option.map_eq_some_iff.mp hr
    exact ⟨layer, hlayer, heq ▸ hc⟩
  · obtain ⟨layer, hlayer, hc⟩ := h
    exact ⟨_, by rw [hlayer]; rfl, hc⟩

/-- `Init` records the frame it is given, with the layers that overlap each region. -/
theorem SquashState.init_recorded (squash : SquashState) {first : List (DrmHwcLayer F)}
    (h64 : first.length ≤ 64) :
    ∃ squash' outs, squash.init first = some squash' ∧ Recorded outs first [] squash' ∧
      ExactCover (first.map (·.displayFrame)) outs := by
  obtain ⟨outs, houts, hcover⟩ := @separateRects_exactCover Int _ (first.map (·.displayFrame))
    (by rw [List.length_map]; exact h64)
  refine ⟨⟨squash.generationNumber + 1, 0#32, first.map (·.sfHandle),
    outs.map fun o => ⟨o.rect, o.idSet.getBits, 0#6, false⟩⟩, outs, ?_, ⟨rfl, rfl, ?_, ?_⟩, hcover⟩
  · rw [SquashState.init, separateRects64, houts]
    rfl
  · rw [List.map_map]
    rfl
  · intro region hregion
    obtain ⟨o, _, heq⟩ := List.mem_map.mp hregion
    rw [← heq]
    refine remembers_zero fun j hdiffers => ?_
    obtain ⟨_, _, _, hprev, _⟩ := hdiffers
    cases hprev

theorem ExactCover.mem_iff_overlaps {layers : List (DrmHwcLayer F)} {outs : List (RectSet Int)}
    (hcover : ExactCover (layers.map (·.displayFrame)) outs) {o : RectSet Int} (ho : o ∈ outs)
    (i : Nat) : o.idSet.Mem i ↔ Overlaps layers o.rect i := by
  refine ⟨fun hmem => ?_, fun hoverlaps => ?_⟩
  · have hc := (hcover.nonempty o ho).contains_corner
    exact ⟨_, _, hc, covers_displayFrames.mp ((hcover.idSet o ho _ _ hc i).mp hmem)⟩
  · obtain ⟨x, y, hc, hcovers⟩ := hoverlaps
    exact (hcover.idSet o ho x y hc i).mpr (covers_displayFrames.mpr hcovers)

/-- After `Init` and any number of frames of the same, at most 64 layers, a region is reported
stable in the next frame if and only if `kHistoryLength` frames were recorded and in none
of the last ones, nor in this one, a layer over the region changed. -/
theorem SquashState.stableRegions_iff (squash : SquashState) (first : List (DrmHwcLayer F))
    (frames : List (List (DrmHwcLayer F))) (layers : List (DrmHwcLayer F))
    (h64 : first.length ≤ 64) (hsame : ∀ l ∈ layers :: frames, l.length = first.length)
    (hcount : frames.length < 2 ^ 32) :
    ∃ squash₀ squash₁ stable squash₂, squash.init first = some squash₀ ∧
      squash₀.nextFrames frames = some squash₁ ∧
      squash₁.nextFrame layers = some (stable, squash₂) ∧
      squash₁.regions.map (·.rect) = squash₀.regions.map (·.rect) ∧
      stable.length = squash₀.regions.length ∧
      ∀ (k : Nat) (region : SquashRegion), squash₀.regions[k]? = some region →
        (stable[k]? = some true ↔ kHistoryLength ≤ frames.length ∧
          Undisturbed first (layers :: (frames.reverse ++ [first])) region.rect) := by
  obtain ⟨squash₀, outs, hinit, hfirst, hcover⟩ := squash.init_recorded h64
  obtain ⟨squash₁, last, earlier, hrun, hrecorded, hlast, hpast⟩ := Recorded.nextFrames h64 frames
    first [] squash₀ hfirst rfl fun l hl => hsame l (List.mem_cons_of_mem layers hl)
  have hlayers := hsame layers List.mem_cons_self
  obtain ⟨changed, hhistory, hchanged⟩ := hrecorded.generateHistory (hlayers.trans hlast.symm)
    (hlayers.trans_le h64)
  have hearlier : earlier.length = frames.length := by
    have hlength := congrArg List.length hpast
    simp only [List.length_cons, List.length_append, List.length_reverse,
      List.length_nil] at hlength
    omega
  have hrects := hrecorded.regions.trans hfirst.regions.symm
  have hrects' : squash₁.regions.map (·.rect) = squash₀.regions.map (·.rect) := by
    have hmap := congrArg (List.map Prod.fst) hrects
    rw [List.map_map, List.map_map] at hmap
    exact hmap
  have hlength : squash₁.regions.length = squash₀.regions.length := by
    have hlen := congrArg List.length hrects'
    rwa [List.length_map, List.length_map] at hlen
  have hframe : squash₁.nextFrame layers =
      some (squash₁.stableRegionsWithMarginalHistory (squash₁.regions.map changed),
        squash₁.recordHistory layers (squash₁.regions.map changed)) := by
    rw [SquashState.nextFrame, hhistory]
    rfl
  refine ⟨squash₀, squash₁, _, _, hinit, hrun, hframe, hrects', ?_, fun k region₀ hregion₀ => ?_⟩
  · rw [SquashState.stableRegions_map, List.length_map, hlength]
  · have hpair : (squash₁.regions.map fun region => (region.rect, region.layerRefs))[k]? =
        some (region₀.rect, region₀.layerRefs) := by
      rw [hrects, List.getElem?_map, hregion₀]
      rfl
    rw [List.getElem?_map] at hpair
    obtain ⟨region, hregion, heq⟩ := Option.map_eq_some_iff.mp hpair
    have hrect : region.rect = region₀.rect := congrArg Prod.fst heq
    -- the set of the region is that of the layers over it
    have hmem : (region.rect, region.layerRefs) ∈ outs.map fun o => (o.rect, o.idSet.getBits) := by
      rw [← hrecorded.regions]
      exact List.mem_map.mpr ⟨region, List.mem_of_getElem? hregion, rfl⟩
    obtain ⟨o, ho, hpo⟩ := List.mem_map.mp hmem
    have hrefs : ∀ i, region.layerRefs.getLsbD i = true ↔ Overlaps first region₀.rect i := by
      intro i
      obtain ⟨horect, horefs⟩ := Prod.mk.inj hpo
      rw [← hrect, ← horect, ← horefs]
      exact hcover.mem_iff_overlaps ho i
    rw [SquashState.stableRegions_map, List.getElem?_map, hregion, Option.map_some,
      Option.some_inj, hrecorded.stable_iff (by omega) hchanged (List.mem_of_getElem? hregion),
      hearlier, hpast, undisturbed_iff hrefs]

/-- A layer that keeps its buffer: after `Init` and six frames, all its regions are stable in
the seventh. -/
theorem SquashState.stableRegions_still :
    ∃ squash₀ squash₁ stable squash₂,
      SquashState.initial.init [plainLayer 0#32 0#32] = some squash₀ ∧
      squash₀.nextFrames (List.replicate 6 [plainLayer 0#32 0#32]) = some squash₁ ∧
      squash₁.nextFrame [plainLayer 0#32 0#32] = some (stable, squash₂) ∧
      ∀ (k : Nat) (region : SquashRegion), squash₀.regions[k]? = some region →
        stable[k]? = some true := by
  have hmem : ∀ l ∈ [plainLayer 0#32 0#32] :: List.replicate 6 [plainLayer 0#32 0#32],
      l = [plainLayer 0#32 0#32] := fun l hl => List.eq_of_mem_replicate (n := 7) hl
  obtain ⟨squash₀, squash₁, stable, squash₂, hinit, hrun, hframe, _, _, hstable⟩ :=
    SquashState.initial.stableRegions_iff [plainLayer 0#32 0#32]
      (List.replicate 6 [plainLayer 0#32 0#32]) [plainLayer 0#32 0#32] (by decide)
      (fun l hl => by rw [hmem l hl]) (by decide)
  refine ⟨squash₀, squash₁, stable, squash₂, hinit, hrun, hframe, fun k region hregion => ?_⟩
  refine (hstable k region hregion).mpr ⟨by decide, fun j cur prev _ hcur hprev hdiffers => ?_⟩
  have hall : ∀ l ∈ [plainLayer 0#32 0#32] :: ((List.replicate 6 [plainLayer 0#32 0#32]).reverse ++
      [[plainLayer 0#32 0#32]]), l = [plainLayer 0#32 0#32] :=
    fun l hl => List.eq_of_mem_replicate (n := 8) hl
  rw [hall cur (List.mem_of_getElem? hcur), hall prev (List.mem_of_getElem? hprev)] at hdiffers
  obtain ⟨i, _, layer, before, hlayer, hbefore, hchanged⟩ := hdiffers
  rw [hlayer] at hbefore
  cases hbefore
  cases List.mem_singleton.mp (List.mem_of_getElem? hlayer)
  exact absurd hchanged (by decide)

end DragonDevice.Hwc
