/-
  Hwc/SquashArea.lean --- the layers that are squashed entirely.

  `Plan` adds up, for each layer, the areas of the stable regions that refer to it,
  and leaves the layer out when the sum reaches the area of its frame.  The regions of
  a layer are disjoint parts of the frame, so the sum reaches the area only if nothing
  of the frame is left over.
-/
import DragonDevice.Hwc.SquashStability
import Mathlib.Algebra.Order.Ring.Int
import Mathlib.Data.Int.Interval
import Mathlib.Data.Set.Card

set_option autoImplicit false

namespace DragonDevice.Hwc

variable {F : Type}

/-! ## Area -/

namespace Rect

/-- `left <= right` and `top <= bottom`. -/
def WellFormed (r : Rect Int) : Prop := r.left ≤ r.right ∧ r.top ≤ r.bottom

theorem Nonempty.wellFormed {r : Rect Int} (h : r.Nonempty) : r.WellFormed := ⟨h.1.le, h.2.le⟩

/-- The points of a rectangle. -/
def points (r : Rect Int) : Set (Int × Int) := {p | r.Contains p.1 p.2}

theorem finite_points_and_ncard (r : Rect Int) :
    r.points.Finite ∧ r.points.ncard = (r.right - r.left).toNat * (r.bottom - r.top).toNat := by
  have hpoints : r.points = ↑(Finset.Ico r.left r.right ×ˢ Finset.Ico r.top r.bottom) := by
    ext p
    simp [points, Contains]
  rw [hpoints]
  refine ⟨Finset.finite_toSet _, ?_⟩
  rw [Set.ncard_coe_finset, Finset.card_product, Int.card_Ico, Int.card_Ico]

theorem finite_points (r : Rect Int) : r.points.Finite := r.finite_points_and_ncard.1

theorem ncard_points {r : Rect Int} (h : r.WellFormed) : (r.points.ncard : Int) = r.area := by
  rw [r.finite_points_and_ncard.2, Nat.cast_mul, Int.toNat_of_nonneg (sub_nonneg.mpr h.1),
    Int.toNat_of_nonneg (sub_nonneg.mpr h.2)]
  rfl

end Rect

/-- The points of some rectangles. -/
def pointsOf (rects : List (Rect Int)) : Set (Int × Int) :=
  {p | ∃ r ∈ rects, r.Contains p.1 p.2}

theorem pointsOf_cons (r : Rect Int) (rects : List (Rect Int)) :
    pointsOf (r :: rects) = r.points ∪ pointsOf rects := by
  ext p
  simp [pointsOf, Rect.points]

theorem finite_pointsOf (rects : List (Rect Int)) : (pointsOf rects).Finite := by
  induction rects with
  | nil => simp [pointsOf]
  | cons r rects ih =>
      rw [pointsOf_cons]
      exact r.finite_points.union ih

/-- The areas of disjoint rectangles add up. -/
theorem ncard_pointsOf :
    ∀ {rects : List (Rect Int)}, (∀ r ∈ rects, r.WellFormed) →
      rects.Pairwise Rect.Disjoint →
      ((pointsOf rects).ncard : Int) = (rects.map (·.area)).sum := by
  intro rects
  induction rects with
  | nil => intro _ _; simp [pointsOf]
  | cons r rects ih =>
      intro hwell hdisjoint
      obtain ⟨hhead, htail⟩ := List.pairwise_cons.mp hdisjoint
      have hapart : Disjoint r.points (pointsOf rects) := by
        rw [Set.disjoint_left]
        intro p hp hrest
        obtain ⟨r', hr', hc⟩ := hrest
        exact hhead r' hr' p.1 p.2 hp hc
      rw [List.map_cons, List.sum_cons, ← ih (fun r' hr' => hwell r' (List.mem_cons_of_mem r hr'))
        htail, ← Rect.ncard_points (hwell r List.mem_cons_self), ← Nat.cast_add, pointsOf_cons,
        Set.ncard_union_eq hapart r.finite_points (finite_pointsOf rects)]

/-- Disjoint parts of a rectangle reach its area only if they cover it. -/
theorem area_le_sum_iff {r : Rect Int} {rects : List (Rect Int)} (hr : r.WellFormed)
    (hwell : ∀ p ∈ rects, p.WellFormed) (hdisjoint : rects.Pairwise Rect.Disjoint)
    (hinside : ∀ p ∈ rects, ∀ x y, p.Contains x y → r.Contains x y) :
    r.area ≤ (rects.map (·.area)).sum ↔
      ∀ x y, r.Contains x y → ∃ p ∈ rects, p.Contains x y := by
  have hsub : pointsOf rects ⊆ r.points := by
    intro q hq
    obtain ⟨p, hp, hc⟩ := hq
    exact hinside p hp q.1 q.2 hc
  rw [← ncard_pointsOf hwell hdisjoint, ← Rect.ncard_points hr, Nat.cast_le]
  refine ⟨fun hle x y hc => ?_, fun hcovers => ?_⟩
  · have hq : (x, y) ∈ r.points := hc
    rw [← Set.eq_of_subset_of_ncard_le hsub hle r.finite_points] at hq
    exact hq
  · exact Set.ncard_le_ncard (fun q hq => hcovers q.1 q.2 hq) (finite_pointsOf rects)

/-! ## The stable regions of a layer -/

/-- The regions of the list that are flagged. -/
def flagged (regions : List SquashRegion) (stableRegions : List Bool) : List SquashRegion :=
  ((regions.zip stableRegions).filter (·.2)).map (·.1)

theorem filterMap_eq_flagged (regions : List SquashRegion) (stableRegions : List Bool) :
    ((regions.zip stableRegions).filterMap fun e => if e.2 then some e.1 else none) =
      flagged regions stableRegions := by
  rw [flagged]
  induction regions.zip stableRegions with
  | nil => rfl
  | cons e l ih =>
      rw [List.filterMap_cons, List.filter_cons, ih]
      cases e.2 with
      | false => rfl
      | true => rfl

theorem mem_flagged {regions : List SquashRegion} {stableRegions : List Bool}
    {region : SquashRegion} : region ∈ flagged regions stableRegions ↔
      ∃ k : Nat, regions[k]? = some region ∧ stableRegions[k]? = some true := by
  rw [flagged, List.mem_map]
  refine ⟨fun h => ?_, fun h => ?_⟩
  · obtain ⟨e, he, heq⟩ := h
    obtain ⟨hmem, hflag⟩ := List.mem_filter.mp he
    obtain ⟨k, hk⟩ := List.mem_iff_getElem?.mp hmem
    obtain ⟨hregion, hstable⟩ := List.getElem?_zip_eq_some.mp hk
    rw [← heq, ← hflag]
    exact ⟨k, hregion, hstable⟩
  · obtain ⟨k, hregion, hstable⟩ := h
    have hzip : (regions.zip stableRegions)[k]? = some (region, true) :=
      List.getElem?_zip_eq_some.mpr ⟨hregion, hstable⟩
    exact ⟨(region, true), List.mem_filter.mpr ⟨List.mem_of_getElem? hzip, rfl⟩, rfl⟩

theorem flagged_sublist (regions : List SquashRegion) (stableRegions : List Bool) :
    (flagged regions stableRegions).Sublist regions := by
  induction regions generalizing stableRegions with
  | nil => exact List.Sublist.refl []
  | cons region regions ih =>
      cases stableRegions with
      | nil => exact List.nil_sublist _
      | cons stable stableRegions =>
          cases stable with
          | false => exact (ih stableRegions).cons region
          | true => exact (ih stableRegions).cons_cons region

theorem layerSquashArea_getD {count i : Nat} (hi : i < count) (regions : List SquashRegion)
    (stableRegions : List Bool) (renderSquash : Bool) :
    (squashPlanOf count regions stableRegions renderSquash).layerSquashArea.getD i 0 =
      ((((flagged regions stableRegions).filter fun region => region.layerRefs.getLsbD i).map
        (·.rect)).map (·.area)).sum := by
  rw [List.map_map, ← filterMap_eq_flagged, List.getD_eq_getElem?_getD]
  show (((List.range count).map _)[i]?.getD 0) = _
  rw [List.getElem?_map, List.getElem?_range hi]
  rfl

theorem mem_toComposite {layers : List (DrmHwcLayer F)} {areas : List Int} {i : Nat}
    {layer : DrmHwcLayer F} (hlayer : layers[i]? = some layer) :
    (i, layer) ∈ (toComposite layers (some areas)).entries ↔
      areas.getD i 0 < layer.displayFrame.area := by
  rw [toComposite, List.mem_map]
  refine ⟨fun h => ?_, fun h => ?_⟩
  · obtain ⟨e, he, heq⟩ := h
    have hlt := of_decide_eq_true (List.mem_filter.mp he).2
    cases heq
    exact hlt
  · refine ⟨(layer, i), List.mem_filter.mpr ⟨?_, decide_eq_true h⟩, rfl⟩
    exact List.mem_zipIdx_iff_getElem?.mpr hlayer

/-! ## Layers that are left out -/

/-- The regions of a frame, as `Init` built them from it: disjoint, and each inside the frames
of just the layers it refers to. -/
structure SquashRegionsOf (layers : List (DrmHwcLayer F)) (regions : List SquashRegion) : Prop where
  wellFormed : ∀ region ∈ regions, region.rect.WellFormed
  disjoint : (regions.map (·.rect)).Pairwise Rect.Disjoint
  refs : ∀ region ∈ regions, ∀ x y, region.rect.Contains x y →
    ∀ i, region.layerRefs.getLsbD i = true ↔ FrameCovers layers x y i

theorem ExactCover.squashRegionsOf {layers : List (DrmHwcLayer F)} {outs : List (RectSet Int)}
    (hcover : ExactCover (layers.map (·.displayFrame)) outs) {regions : List SquashRegion}
    (hregions : regions.map (fun region => (region.rect, region.layerRefs)) =
      outs.map fun o => (o.rect, o.idSet.getBits)) : SquashRegionsOf layers regions := by
  have hout : ∀ region ∈ regions, ∃ o ∈ outs, o.rect = region.rect ∧
      o.idSet.getBits = region.layerRefs := by
    intro region hregion
    have hmem : (region.rect, region.layerRefs) ∈ outs.map fun o => (o.rect, o.idSet.getBits) := by
      rw [← hregions]
      exact List.mem_map.mpr ⟨region, hregion, rfl⟩
    obtain ⟨o, ho, heq⟩ := List.mem_map.mp hmem
    exact ⟨o, ho, Prod.mk.inj heq⟩
  refine ⟨fun region hregion => ?_, ?_, fun region hregion x y hc i => ?_⟩
  · obtain ⟨o, ho, hrect, _⟩ := hout region hregion
    rw [← hrect]
    exact (hcover.nonempty o ho).wellFormed
  · have hrects : regions.map (·.rect) = outs.map (·.rect) := by
      have hmap := congrArg (List.map Prod.fst) hregions
      rw [List.map_map, List.map_map] at hmap
      exact hmap
    rw [hrects, List.pairwise_map]
    exact hcover.disjoint
  · obtain ⟨o, ho, hrect, hrefs⟩ := hout region hregion
    rw [← hrect] at hc
    rw [← hrefs, ← covers_displayFrames]
    exact hcover.idSet o ho x y hc i

/-- The stable regions reach the area of a layer only if they cover its frame. -/
theorem SquashRegionsOf.area_le_iff {layers : List (DrmHwcLayer F)} {regions : List SquashRegion}
    (h : SquashRegionsOf layers regions) {stableRegions : List Bool} {i : Nat}
    {layer : DrmHwcLayer F}
    (hlayer : layers[i]? = some layer) (hwell : layer.displayFrame.WellFormed) :
    layer.displayFrame.area ≤ ((((flagged regions stableRegions).filter fun region =>
        region.layerRefs.getLsbD i).map (·.rect)).map (·.area)).sum ↔
      ∀ x y, layer.displayFrame.Contains x y →
        ∃ region ∈ flagged regions stableRegions, region.rect.Contains x y := by
  have hmem : ∀ {region}, region ∈ flagged regions stableRegions → region ∈ regions :=
    fun hregion => (flagged_sublist regions stableRegions).subset hregion
  have hparts : ∀ {r : Rect Int}, r ∈ ((flagged regions stableRegions).filter fun region =>
      region.layerRefs.getLsbD i).map (·.rect) → ∃ region ∈ flagged regions stableRegions,
      region.layerRefs.getLsbD i = true ∧ region.rect = r := by
    intro r hr
    obtain ⟨region, hregion, heq⟩ := List.mem_map.mp hr
    obtain ⟨hflagged, hrefs⟩ := List.mem_filter.mp hregion
    exact ⟨region, hflagged, hrefs, heq⟩
  rw [area_le_sum_iff hwell]
  · refine ⟨fun hcovers x y hc => ?_, fun hcovers x y hc => ?_⟩
    · obtain ⟨r, hr, hrc⟩ := hcovers x y hc
      obtain ⟨region, hflagged, _, heq⟩ := hparts hr
      rw [← heq] at hrc
      exact ⟨region, hflagged, hrc⟩
    · -- the region of a point of the frame refers to the layer
      obtain ⟨region, hflagged, hrc⟩ := hcovers x y hc
      have hrefs := (h.refs region (hmem hflagged) x y hrc i).mpr ⟨layer, hlayer, hc⟩
      exact ⟨region.rect, List.mem_map.mpr ⟨region, List.mem_filter.mpr ⟨hflagged, hrefs⟩, rfl⟩,
        hrc⟩
  · intro r hr
    obtain ⟨region, hflagged, _, heq⟩ := hparts hr
    rw [← heq]
    exact h.wellFormed region (hmem hflagged)
  · have hsub := (List.filter_sublist (p := fun region : SquashRegion =>
      region.layerRefs.getLsbD i)).trans (flagged_sublist regions stableRegions)
    exact h.disjoint.sublist (hsub.map _)
  · intro r hr x y hrc
    obtain ⟨region, hflagged, hrefs, heq⟩ := hparts hr
    rw [← heq] at hrc
    obtain ⟨layer', hlayer', hc⟩ := (h.refs region (hmem hflagged) x y hrc i).mp hrefs
    rw [hlayer] at hlayer'
    cases hlayer'
    exact hc

/-- With the regions that `Init` built from the same frames, `Plan` leaves a layer out if and
only if the stable regions cover its frame. -/
theorem toComposite_omits_iff (squash : SquashState) (first layers : List (DrmHwcLayer F))
    (h64 : first.length ≤ 64)
    (hframes : layers.map (·.displayFrame) = first.map (·.displayFrame))
    (hwell : ∀ layer ∈ layers, layer.displayFrame.WellFormed) {squash₀ : SquashState}
    (hinit : squash.init first = some squash₀) {regions : List SquashRegion}
    (hregions : regions.map (fun region => (region.rect, region.layerRefs)) =
      squash₀.regions.map fun region => (region.rect, region.layerRefs))
    (stableRegions : List Bool) (renderSquash : Bool) {i : Nat} {layer : DrmHwcLayer F}
    (hlayer : layers[i]? = some layer) :
    (i, layer) ∉ (toComposite layers (some (squashPlanOf layers.length regions stableRegions
        renderSquash).layerSquashArea)).entries ↔
      ∀ x y, layer.displayFrame.Contains x y →
        ∃ (k : Nat) (region : SquashRegion), regions[k]? = some region ∧
          stableRegions[k]? = some true ∧ region.rect.Contains x y := by
  obtain ⟨squash₁, outs, hinit₁, hrecorded, hcover⟩ := squash.init_recorded h64
  rw [hinit] at hinit₁
  cases hinit₁
  rw [← hframes] at hcover
  have hof : SquashRegionsOf layers regions :=
    hcover.squashRegionsOf (hregions.trans hrecorded.regions)
  have hi : i < layers.length := (List.getElem?_eq_some_iff.mp hlayer).1
  rw [mem_toComposite hlayer, not_lt, layerSquashArea_getD hi,
    hof.area_le_iff hlayer (hwell layer (List.mem_of_getElem? hlayer))]
  refine forall_congr' fun x => forall_congr' fun y => forall_congr' fun _ => ?_
  refine ⟨fun h => ?_, fun h => ?_⟩
  · obtain ⟨region, hflagged, hc⟩ := h
    obtain ⟨k, hregion, hstable⟩ := mem_flagged.mp hflagged
    exact ⟨k, region, hregion, hstable, hc⟩
  · obtain ⟨k, region, hregion, hstable, hc⟩ := h
    exact ⟨region, mem_flagged.mpr ⟨k, hregion, hstable⟩, hc⟩

/-- Two layers, of which the upper one covers a corner of the lower one. -/
def overlappingLayers : List (DrmHwcLayer Rat) :=
  [plainLayer 0#32 0#32, { plainLayer 0#32 0#32 with displayFrame := ⟨50, 50, 150, 150⟩ }]

/-- The regions of their frame. -/
def overlappingRegions : List SquashRegion :=
  [⟨⟨0, 0, 50, 100⟩, 1#64, 0#6, false⟩, ⟨⟨50, 0, 100, 50⟩, 1#64, 0#6, false⟩,
    ⟨⟨50, 50, 100, 100⟩, 3#64, 0#6, false⟩, ⟨⟨50, 100, 100, 150⟩, 2#64, 0#6, false⟩,
    ⟨⟨100, 50, 150, 150⟩, 2#64, 0#6, false⟩]

/-- The regions of the lower layer are stable, the others are not. -/
def lowerStable : List Bool := [true, true, true, false, false]

/-- The lower layer is left out, and the upper one is not. -/
theorem toComposite_omits_lower :
    ∃ squash₀, SquashState.initial.init overlappingLayers = some squash₀ ∧
      (0, plainLayer 0#32 0#32) ∉ (toComposite overlappingLayers
        (some (squashPlanOf 2 squash₀.regions lowerStable true).layerSquashArea)).entries ∧
      (1, { plainLayer 0#32 0#32 with displayFrame := ⟨50, 50, 150, 150⟩ }) ∈
        (toComposite overlappingLayers
          (some (squashPlanOf 2 squash₀.regions lowerStable true).layerSquashArea)).entries := by
  have hmap : (SquashState.initial.init overlappingLayers).map (·.regions) =
      some overlappingRegions := by decide +kernel
  obtain ⟨squash₀, hinit, hregions⟩ := Option.map_eq_some_iff.mp hmap
  have hwell : ∀ layer ∈ overlappingLayers, layer.displayFrame.WellFormed :=
    List.forall_mem_cons.mpr ⟨⟨by decide, by decide⟩,
      List.forall_mem_singleton.mpr ⟨by decide, by decide⟩⟩
  refine ⟨squash₀, hinit, (toComposite_omits_iff .initial overlappingLayers overlappingLayers
    (by decide) rfl hwell hinit rfl lowerStable true rfl).mpr fun x y hc => ?_, ?_⟩
  · rw [hregions]
    have hlower : (0 ≤ x ∧ x < 100) ∧ 0 ≤ y ∧ y < 100 := hc
    by_cases hx : x < 50
    · exact ⟨0, _, rfl, rfl, show (0 ≤ x ∧ x < 50) ∧ 0 ≤ y ∧ y < 100 by omega⟩
    · by_cases hy : y < 50
      · exact ⟨1, _, rfl, rfl, show (50 ≤ x ∧ x < 100) ∧ 0 ≤ y ∧ y < 50 by omega⟩
      · exact ⟨2, _, rfl, rfl, show (50 ≤ x ∧ x < 100) ∧ 50 ≤ y ∧ y < 100 by omega⟩
  · by_contra hout
    obtain ⟨k, region, hregion, hstable, hc⟩ := (toComposite_omits_iff .initial overlappingLayers
      overlappingLayers (by decide) rfl hwell hinit rfl lowerStable true rfl).mp hout 120 120
        (by decide)
    rw [hregions] at hregion
    rcases k with _ | _ | _ | _ | _ | k
    · cases hregion
      exact absurd hc (by decide)
    · cases hregion
      exact absurd hc (by decide)
    · cases hregion
      exact absurd hc (by decide)
    · cases hstable
    · cases hstable
    · cases hregion

end DragonDevice.Hwc
