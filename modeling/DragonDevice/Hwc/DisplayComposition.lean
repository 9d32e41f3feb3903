/-
  Hwc/DisplayComposition.lean --- `drmdisplaycomposition.{h,cpp}`.

  One frame of one display: its layers, the plan for them, and the regions that
  have to be rendered.  A computation the source leaves undefined (a null crtc, a
  shift by the width of its type, an index behind the end) has no result.
-/
import DragonDevice.Hwc.Planner
import DragonDevice.Hwc.SquashState
import Mathlib.Algebra.Group.Nat.Defs
import Mathlib.Algebra.Ring.Int.Defs

set_option autoImplicit false

namespace DragonDevice.Hwc

open DragonDevice.Lib

variable {F : Type}

/-! ## Separating the precomposed layers -/

/-- `(uint64_t)1 << n`. -/
def uint64Bit (n : Nat) : Option (BitVec 64) := if n < 64 then some (1#64 <<< n) else none

/-- `1 << n`, an `int`, where a `uint64_t` is wanted. -/
def intBit (n : Nat) : Option (BitVec 64) :=
  if n < 32 then some ((1#32 <<< n).signExtend 64) else none

/-- `SetBitsToVector`: from the most significant bit down. -/
def setBitsToVector (bits : BitVec 64) (indexMap : List Nat) : Option (List Nat) :=
  ((List.range 64).reverse.filter fun i => bits.getLsbD i).mapM fun i => indexMap[i]?

/-- The first loop of `SeparateLayers`: the layers with a plane below the precomp plane,
and the layers of that plane. -/
def findPrecomp : List DrmCompositionPlane → List Nat → Option (List Nat × List Nat)
  | [], _ => none
  | p :: rest, dedicated =>
      match p.type with
      | .layer => findPrecomp rest (dedicated ++ p.sourceLayers)
      | .precomp => some (dedicated, p.sourceLayers)
      | _ => findPrecomp rest dedicated

/-- Take the precomposed layers below one dedicated layer out of a region. -/
def subtractBelow (layerOffset : Nat) (compLayers : List Nat) (dedicatedLayer : Nat)
    (s : IdSet) : IdSet :=
  compLayers.zipIdx.foldl (fun s (layer, j) =>
    if layer < dedicatedLayer then s.subtract (j + layerOffset) else s) s

/-- One turn of the loop over the dedicated layers, for a layer and its position: only a
layer that the region intersects makes a hole. -/
def punchHole (numExcludeRects layerOffset : Nat) (compLayers : List Nat)
    (dedicatedIntersect : BitVec 64) (s : IdSet) (dedicated : Nat × Nat) : Option IdSet := do
  let bit ← intBit (dedicated.2 + numExcludeRects)
  some (if dedicatedIntersect &&& bit = 0#64 then s
    else subtractBelow layerOffset compLayers dedicated.1 s)

/-- The loop over the dedicated layers. -/
def punchHoles (numExcludeRects layerOffset : Nat) (dedicatedLayers compLayers : List Nat)
    (dedicatedIntersect : BitVec 64) (s : IdSet) : Option IdSet :=
  if dedicatedIntersect = 0#64 then some s
  else
    dedicatedLayers.zipIdx.foldlM
      (punchHole numExcludeRects layerOffset compLayers dedicatedIntersect) s

/-- The body of the loop over the separate regions: no region, or one more. -/
def separateRegion (numExcludeRects layerOffset : Nat) (dedicatedLayers compLayers : List Nat)
    (excludeMask dedicatedMask : BitVec 64) (region : RectSet Int) :
    Option (List DrmCompositionRegion) := do
  if region.idSet.getBits &&& excludeMask ≠ 0#64 then some []
  else
    let s ← punchHoles numExcludeRects layerOffset dedicatedLayers compLayers
      (region.idSet.getBits &&& dedicatedMask) region.idSet
    if 64 ≤ layerOffset then none
    else if s.getBits >>> layerOffset = 0#64 then some []
    else
      let sourceLayers ← setBitsToVector (s.getBits >>> layerOffset) compLayers
      some [⟨region.rect, sourceLayers⟩]

/-- `display_frame` of the layers of a list of indices. -/
def displayFrames (layers : List (DrmHwcLayer F)) (indices : List Nat) :
    Option (List (Rect Int)) :=
  indices.mapM fun i => (layers[i]?).map (·.displayFrame)

/-- `SeparateLayers`: the regions of the precomposition.  Where exclude rectangles are
cut off, `layer_rects` keeps its length; the rectangles behind the dedicated ones are
then never written, and the list is too long to be separated. -/
def separateLayers (layers : List (DrmHwcLayer F))
    (compositionPlanes : List DrmCompositionPlane) (excludeRects : List (Rect Int)) :
    Option (List DrmCompositionRegion) :=
  match findPrecomp compositionPlanes [] with
  | none => some []
  | some (dedicatedLayers, compLayers) =>
      if 64 < compLayers.length then some []
      else do
        let layerOffset := excludeRects.length + dedicatedLayers.length
        let numExcludeRects :=
          if 64 < compLayers.length + layerOffset then
            (2 ^ 64 + 64 - compLayers.length - dedicatedLayers.length) % 2 ^ 64
          else excludeRects.length
        -- with more layers than bits the difference wraps, and the copy runs off the end
        if excludeRects.length < numExcludeRects then none
        let dedicatedFrames ← displayFrames layers dedicatedLayers
        let compFrames ← displayFrames layers compLayers
        let gap := layerOffset - numExcludeRects - dedicatedLayers.length
        let layerRects := excludeRects.take numExcludeRects ++ dedicatedFrames ++
          List.replicate gap ⟨0, 0, 0, 0⟩ ++ compFrames
        let separateRegions ← separateRects64 layerRects []
        let excludeBit ← uint64Bit numExcludeRects
        let dedicatedBit ← uint64Bit dedicatedLayers.length
        let regions ← separateRegions.mapM
          (separateRegion numExcludeRects layerOffset dedicatedLayers compLayers
            (excludeBit - 1#64) ((dedicatedBit - 1#64) <<< numExcludeRects))
        some regions.flatten

/-! ## Planning a frame -/

/-- `DrmCompositionType`. -/
inductive DrmCompositionType where
  | empty | frame | dpms | modeset
  deriving DecidableEq, Repr

/-- `DrmDisplayComposition`, as far as planning needs it. -/
structure DrmDisplayComposition (F : Type) where
  type : DrmCompositionType
  crtc : Option DrmCrtc
  layers : List (DrmHwcLayer F)
  geometryChanged : Bool
  squashRegions : List DrmCompositionRegion
  preCompRegions : List DrmCompositionRegion
  compositionPlanes : List DrmCompositionPlane

/-- The planes that no display uses yet. -/
structure PlanePool where
  primaryPlanes : List DrmPlane
  overlayPlanes : List DrmPlane
  deriving DecidableEq, Repr

/-- What the squash state decides about a frame. -/
structure SquashPlan where
  useSquashFramebuffer : Bool
  excludeRects : List (Rect Int)
  squashRegions : List DrmCompositionRegion
  /-- the area of each layer that is squashed -/
  layerSquashArea : List Int
  deriving DecidableEq, Repr

/-- The layers of a region, top layer first. -/
def regionLayers (layerCount : Nat) (region : SquashRegion) : List Nat :=
  (List.range layerCount).reverse.filter fun i => region.layerRefs.getLsbD i

/-- The loop over the stable regions. -/
def squashPlanOf (layerCount : Nat) (regions : List SquashRegion) (stableRegions : List Bool)
    (renderSquash : Bool) : SquashPlan :=
  let stable := (regions.zip stableRegions).filterMap fun (region, stable) =>
    if stable then some region else none
  { useSquashFramebuffer := stableRegions.any id
    excludeRects := stable.map (·.rect)
    squashRegions :=
      if renderSquash then stable.map fun region => ⟨region.rect, regionLayers layerCount region⟩
      else []
    layerSquashArea := (List.range layerCount).map fun i =>
      ((stable.filter fun region => region.layerRefs.getLsbD i).map (·.rect.area)).sum }

/-- The first half of `Plan`: the squash bookkeeping for a frame. -/
def planSquash (squash : SquashState) (geometryChanged : Bool) (layers : List (DrmHwcLayer F)) :
    Option (SquashPlan × SquashState) :=
  if geometryChanged then do
    let squash ← squash.init layers
    some (⟨false, [], [], layers.map fun _ => 0⟩, squash)
  else do
    let changedRegions ← squash.generateHistory layers
    let stableRegions := squash.stableRegionsWithMarginalHistory changedRegions
    let squash := squash.recordHistory layers changedRegions
    let (renderSquash, squash) := squash.recordAndCompareSquashed stableRegions
    some (squashPlanOf layers.length squash.regions stableRegions renderSquash, squash)

theorem zipIdx_keys_sorted (layers : List (DrmHwcLayer F)) (p : DrmHwcLayer F × Nat → Bool) :
    ((layers.zipIdx.filter p).map fun e => (e.2, e.1)).Pairwise fun a b => a.1 < b.1 := by
  rw [List.pairwise_map]
  have hsorted : layers.zipIdx.Pairwise fun a b => a.2 < b.2 := by
    rw [← List.pairwise_map (f := fun e : DrmHwcLayer F × Nat => e.2), List.zipIdx_map_snd]
    exact List.pairwise_lt_range'
  exact hsorted.filter p

/-- `to_composite`: the layers that are not squashed entirely. -/
def toComposite (layers : List (DrmHwcLayer F)) (layerSquashArea : Option (List Int)) :
    LayerMap F :=
  ⟨(layers.zipIdx.filter fun e =>
      match layerSquashArea with
      | none => true
      | some areas => decide (areas.getD e.2 0 < e.1.displayFrame.area)).map fun e => (e.2, e.1),
    zipIdx_keys_sorted layers _⟩

theorem getElem?_of_mem_toComposite {layers : List (DrmHwcLayer F)}
    {layerSquashArea : Option (List Int)} {e : Nat × DrmHwcLayer F}
    (he : e ∈ (toComposite layers layerSquashArea).entries) : layers[e.1]? = some e.2 := by
  obtain ⟨q, hq, heq⟩ := List.mem_map.mp he
  rw [← heq]
  exact List.mem_zipIdx_iff_getElem?.mp (List.mem_filter.mp hq).1

/-- Sort the source layers of a composition plane. -/
def sortSourceLayers (p : DrmCompositionPlane) : DrmCompositionPlane :=
  { p with sourceLayers := p.sourceLayers.mergeSort (fun a b => decide (a ≤ b)) }

/-- Remove the plane of a composition plane from the pool. -/
def PlanePool.remove (pool : PlanePool) (p : DrmCompositionPlane) : PlanePool :=
  if p.plane.isPrimary then { pool with primaryPlanes := pool.primaryPlanes.erase p.plane }
  else { pool with overlayPlanes := pool.overlayPlanes.erase p.plane }

/-- The second half of `Plan`: the planner, the pool, and the precomposed regions.
`fenceResult` is what `CreateAndAssignReleaseFences` returns. -/
def planPlanes (stages : List (PlanStage F)) (comp : DrmDisplayComposition F) (crtc : DrmCrtc)
    (squash : SquashPlan) (layers : LayerMap F) (pool : PlanePool) (fenceResult : Int) :
    Option (Int × DrmDisplayComposition F × PlanePool) :=
  let (ret, planes) := provisionPlanes stages layers squash.useSquashFramebuffer crtc
    pool.primaryPlanes pool.overlayPlanes
  let comp := { comp with squashRegions := comp.squashRegions ++ squash.squashRegions }
  if ret ≠ 0 then some (ret, { comp with compositionPlanes := planes }, pool)
  else do
    let planes := planes.map sortSourceLayers
    let regions ← separateLayers comp.layers planes squash.excludeRects
    some (fenceResult,
      { comp with compositionPlanes := planes, preCompRegions := comp.preCompRegions ++ regions },
      planes.foldl PlanePool.remove pool)

/-- The squash bookkeeping, if the display's compositor has a squash state: the plan for
the frame, the areas to compare with, and the new state. -/
def planSquashState (squash : Option SquashState) (geometryChanged : Bool)
    (layers : List (DrmHwcLayer F)) :
    Option (SquashPlan × Option (List Int) × Option SquashState) :=
  match squash with
  | none => some (⟨false, [], [], []⟩, none, none)
  | some squash => (planSquash squash geometryChanged layers).map fun (squashPlan, squash) =>
      (squashPlan, some squashPlan.layerSquashArea, some squash)

/-- `DrmDisplayComposition::Plan`. -/
def DrmDisplayComposition.plan (stages : List (PlanStage F)) (comp : DrmDisplayComposition F)
    (squash : Option SquashState) (pool : PlanePool) (fenceResult : Int) :
    Option (Int × DrmDisplayComposition F × Option SquashState × PlanePool) :=
  if comp.type ≠ .frame then some (0, comp, squash, pool)
  else do
    let (squashPlan, areas, squash) ← planSquashState squash comp.geometryChanged comp.layers
    let crtc ← comp.crtc
    let (ret, comp, pool) ← planPlanes stages comp crtc squashPlan
      (toComposite comp.layers areas) pool fenceResult
    some (ret, comp, squash, pool)

/-- `AddPlaneDisable`. -/
def DrmDisplayComposition.addPlaneDisable (comp : DrmDisplayComposition F) (plane : DrmPlane) :
    DrmDisplayComposition F :=
  { comp with
    compositionPlanes := comp.compositionPlanes ++ [⟨.disable, plane, comp.crtc, []⟩] }

end DragonDevice.Hwc
