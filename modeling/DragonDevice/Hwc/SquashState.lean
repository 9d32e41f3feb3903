/-
  Hwc/SquashState.lean --- `SquashState` of `drmdisplaycompositor.{h,cpp}`.

  The screen is cut into the regions that `separate_rects` finds for the layers of
  a frame.  A region whose layers keep their buffers for a number of frames is
  stable and can be squashed into one framebuffer.
-/
import DragonDevice.Hwc.Layer

set_option autoImplicit false

namespace DragonDevice.Hwc

/-- `SquashState::kHistoryLength`. -/
def kHistoryLength : Nat := 6

/-- `SquashState::kMaxLayers`. -/
def kMaxLayers : Nat := 64

/-- `SquashState::Region`. -/
structure SquashRegion where
  rect : Rect Int
  layerRefs : BitVec 64
  changeHistory : BitVec 6
  squashed : Bool
  deriving DecidableEq, Repr

/-- `SquashState`; `valid_history_` is an `unsigned`. -/
structure SquashState where
  generationNumber : Nat
  validHistory : BitVec 32
  lastHandles : List Nat
  regions : List SquashRegion
  deriving DecidableEq, Repr

namespace SquashState

/-- The state before the first `Init`. -/
def initial : SquashState := ⟨0, 0#32, [], []⟩

variable {F : Type}

/-- `Init`; `none` when an assertion of `separate_rects` fails. -/
def init (s : SquashState) (layers : List (DrmHwcLayer F)) : Option SquashState := do
  let outRegions ← separateRects64 (layers.map (·.displayFrame)) []
  some
    { generationNumber := s.generationNumber + 1
      validHistory := 0#32
      lastHandles := layers.map (·.sfHandle)
      regions := outRegions.map fun o => ⟨o.rect, o.idSet.getBits, 0#6, false⟩ }

/-- `is_stable`. -/
def isStable (s : SquashState) (region : SquashRegion) : Bool :=
  decide (kHistoryLength ≤ s.validHistory.toNat) && region.changeHistory == 0#6

/-- A layer counts as changed when it is protected or has another buffer. -/
def layerChanged (layer : DrmHwcLayer F) (lastHandle : Nat) : Bool :=
  layer.protectedUsage || lastHandle != layer.sfHandle

/-- The bit set of the changed layers; setting a bit outside it throws. -/
def changedLayers (s : SquashState) (layers : List (DrmHwcLayer F)) : Option (BitVec 64) :=
  ((layers.zip s.lastHandles).zipIdx).foldlM (fun changed (e, i) =>
    if layerChanged e.1 e.2 then
      if i < kMaxLayers then some (changed ||| (1#64 <<< i)) else none
    else some changed) 0#64

/-- `GenerateHistory`: which regions changed.  With another number of layers than
expected none of them did. -/
def generateHistory (s : SquashState) (layers : List (DrmHwcLayer F)) : Option (List Bool) :=
  if layers.length ≠ s.lastHandles.length then some (s.regions.map fun _ => false)
  else do
    let changed ← s.changedLayers layers
    some (s.regions.map fun region => region.layerRefs &&& changed != 0#64)

/-- `StableRegionsWithMarginalHistory`. -/
def stableRegionsWithMarginalHistory (s : SquashState) (changedRegions : List Bool) :
    List Bool :=
  List.zipWith (fun region changed => !changed && s.isStable region) s.regions changedRegions

/-- `RecordHistory`. -/
def recordHistory (s : SquashState) (layers : List (DrmHwcLayer F))
    (changedRegions : List Bool) : SquashState :=
  if layers.length ≠ s.lastHandles.length then s
  else if changedRegions.length ≠ s.regions.length then s
  else
    { s with
      lastHandles := layers.map (·.sfHandle)
      regions := List.zipWith (fun region changed =>
        { region with
          changeHistory := (region.changeHistory <<< 1) ||| (if changed then 1#6 else 0#6) })
        s.regions changedRegions
      validHistory := s.validHistory + 1#32 }

/-- `RecordAndCompareSquashed`: whether any region changed, and the new state. -/
def recordAndCompareSquashed (s : SquashState) (squashedRegions : List Bool) :
    Bool × SquashState :=
  if squashedRegions.length ≠ s.regions.length then (false, s)
  else
    ((List.zipWith (fun region squashed => region.squashed != squashed) s.regions
        squashedRegions).any id,
      { s with
        regions := List.zipWith (fun region squashed => { region with squashed }) s.regions
          squashedRegions })

end SquashState

end DragonDevice.Hwc
