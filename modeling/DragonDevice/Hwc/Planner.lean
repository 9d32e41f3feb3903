/-
  Hwc/Planner.lean --- `drm_hwcomposer/platform.{h,cpp}` and the plan stages of
  `platformnv.cpp`.

  The planner hands the planes that support a crtc to the layers of a frame.  Its
  stages run one after the other over the map of the layers that are left, the
  composition so far and the pool of free planes.
-/
import DragonDevice.Hwc.Layer
import DragonDevice.Lib.EraseLoop

set_option autoImplicit false

namespace DragonDevice.Hwc

open DragonDevice.Lib

/-- `std::map<size_t, DrmHwcLayer *>`. -/
abbrev LayerMap (F : Type) : Type := OrderedMap Nat (DrmHwcLayer F) (· < ·)

def enodev : Int := 19

/-- What the stages work on: the composition and the planes that are left. -/
structure Provision where
  composition : List DrmCompositionPlane
  planes : List DrmPlane
  deriving DecidableEq, Repr

/-! ## Helpers of `Planner::PlanStage` -/

/-- `GetPrecomp`. -/
def getPrecomp (composition : List DrmCompositionPlane) : Option DrmCompositionPlane :=
  composition.find? (·.isPrecomp)

/-- `composition->emplace(precomp, ...)`: right before the precomp plane, or at the
end. -/
def insertBeforePrecomp (p : DrmCompositionPlane) :
    List DrmCompositionPlane → List DrmCompositionPlane
  | [] => [p]
  | q :: rest => if q.isPrecomp then p :: q :: rest else q :: insertBeforePrecomp p rest

/-- `Emplace` of a `kLayer` plane; `none` is `-ENOENT`. -/
def emplace (crtc : DrmCrtc) (s : Provision) (sourceLayer : Nat) : Option Provision :=
  match s.planes with
  | [] => none
  | plane :: planes => some
      { composition := insertBeforePrecomp ⟨.layer, plane, some crtc, [sourceLayer]⟩ s.composition
        planes }

/-- `precomp->source_layers().emplace_back(...)` on the first precomp plane. -/
def pushPrecomp (sourceLayer : Nat) : List DrmCompositionPlane → List DrmCompositionPlane
  | [] => []
  | q :: rest =>
      if q.isPrecomp then { q with sourceLayers := q.sourceLayers ++ [sourceLayer] } :: rest
      else q :: pushPrecomp sourceLayer rest

/-- The block "If there's no precomp layer already queued, queue one now": without
one, the last plane is reserved; without a plane, the layer is only logged. -/
def precompose (crtc : DrmCrtc) (s : Provision) (sourceLayer : Nat) : Provision :=
  match getPrecomp s.composition with
  | some _ => { s with composition := pushPrecomp sourceLayer s.composition }
  | none =>
      match s.planes.getLast? with
      | some plane =>
          { composition := s.composition ++ [⟨.precomp, plane, some crtc, [sourceLayer]⟩]
            planes := s.planes.dropLast }
      | none => s

/-- `int protected_zorder = i->first`. -/
def intOfSizeT (i : Nat) : Int := (BitVec.ofNat 32 i).toInt

/-- `static_cast<size_t>(protected_zorder)`. -/
def sizeTOfInt (z : Int) : Nat := (BitVec.ofInt 64 z).toNat

/-! ## Stages -/

variable {F : Type}

/-- `PlanStage::ProvisionPlanes`: the result, and the layers, composition and planes
it leaves. -/
abbrev PlanStage (F : Type) : Type :=
  DrmCrtc → LayerMap F → Provision → Int × LayerMap F × Provision

/-- The second loop of the two stages for protected layers: what lies at or below the
protected layer goes to the precomposition. -/
def precomposeBelow (crtc : DrmCrtc) (protectedZorder : Int) (layers : LayerMap F)
    (s : Provision) : LayerMap F × Provision :=
  layers.eraseLoop (fun e => decide (e.1 ≤ sizeTOfInt protectedZorder))
    (fun s e => precompose crtc s e.1) s

section NvLimits

variable [Sub F] [Div F] [IntCast F] [LT F] [DecidableLT F]

/-- The vertical limit of `CheckLayer`, or `none` where it gives up on the blending. -/
def verticalLimit (zorder : Nat) (layer : DrmHwcLayer F) : Option Int :=
  match layer.format with
  | .argb8888 | .abgr8888 | .xbgr8888 | .xrgb8888 =>
      if 0 < zorder ∧ layer.blending ≠ .preMult then none else some 2
  | .yvu420 | .yuv420 | .yuv422 | .uyvy | .yuyv | .nv12 | .nv21 | .rgb565 | .bgr565 => some 4
  | .other _ => some 2

/-- `PlanStageNvLimits::CheckLayer`. -/
def checkLayer (zorder : Nat) (layer : DrmHwcLayer F) : Bool :=
  let srcW := layer.sourceCrop.width
  let srcH := layer.sourceCrop.height
  let dstW := layer.displayFrame.width
  let dstH := layer.displayFrame.height
  let hLimit : Int := 4
  match verticalLimit zorder layer with
  | none => false
  | some vLimit =>
      let (dstW, dstH) :=
        if layer.transform &&& (kRotate90 ||| kRotate270) ≠ 0#32 then (dstH, dstW)
        else (dstW, dstH)
      -- maximal supported down scaling
      if ((hLimit : Int) : F) < srcW / (dstW : F) ∨ ((vLimit : Int) : F) < srcH / (dstH : F) then
        false
      else true

/-- `PlanStageNvLimits`: an unsupported layer is precomposed, or dropped when it is
protected. -/
def planStageNvLimits : PlanStage F := fun crtc layers s =>
  let (layers, s) := layers.eraseLoop (fun e => !checkLayer e.1 e.2)
    (fun s e => if e.2.protectedUsage then s else precompose crtc s e.1) s
  (0, layers, s)

end NvLimits

/-- Erase the first primary plane from the pool. -/
def takePrimary (planes : List DrmPlane) : Option (DrmPlane × List DrmPlane) :=
  match planes.find? (·.isPrimary) with
  | none => none
  | some plane => some (plane, planes.eraseP (·.isPrimary))

/-- The body of the first loop of `PlanStageProtectedRotated`: the layer goes on a
primary plane at the beginning of the composition, or is dropped. -/
def placeRotated (crtc : DrmCrtc) (s : Provision × Int) (sourceLayer : Nat) : Provision × Int :=
  match takePrimary s.1.planes with
  | some (plane, planes) =>
      ({ composition := ⟨.layer, plane, some crtc, [sourceLayer]⟩ :: s.1.composition, planes },
        intOfSizeT sourceLayer)
  | none => s

/-- `PlanStageProtectedRotated`. -/
def planStageProtectedRotated : PlanStage F := fun crtc layers s =>
  let (layers, s, protectedZorder) := layers.eraseLoop
    (fun e => e.2.protectedUsage && e.2.transform != 0#32)
    (fun s e => placeRotated crtc s e.1) (s, -1)
  if protectedZorder = -1 then (0, layers, s)
  else
    let (layers, s) := precomposeBelow crtc protectedZorder layers s
    (0, layers, s)

/-- The body of the first loop of `PlanStageProtected`: the layer goes on a plane of its
own, or is dropped. -/
def placeProtected (crtc : DrmCrtc) (s : Provision × Int) (sourceLayer : Nat) :
    Provision × Int :=
  ((emplace crtc s.1 sourceLayer).getD s.1, intOfSizeT sourceLayer)

/-- `PlanStageProtected`. -/
def planStageProtected : PlanStage F := fun crtc layers s =>
  let (layers, s, protectedZorder) := layers.eraseLoop (fun e => e.2.protectedUsage)
    (fun s e => placeProtected crtc s e.1) (s, -1)
  if protectedZorder = -1 then (0, layers, s)
  else
    let (layers, s) := precomposeBelow crtc protectedZorder layers s
    (0, layers, s)

/-- `PlanStagePrecomp`: what lies above any precomposed layer is precomposed too. -/
def planStagePrecomp : PlanStage F := fun _ layers s =>
  match getPrecomp s.composition with
  | none => (0, layers, s)
  | some precomp =>
      match precomp.sourceLayers.min? with
      | none => (0, layers, s)
      | some precompZorder =>
          let (layers, s) := layers.eraseLoop (fun e => !decide (e.1 < precompZorder))
            (fun s e => { s with composition := pushPrecomp e.1 s.composition }) s
          (0, layers, s)

/-- The first loop of `PlanStageGreedy`: layers go on planes of their own until no
plane is left. -/
def emplaceAll (crtc : DrmCrtc) :
    List (Nat × DrmHwcLayer F) → Provision → List (Nat × DrmHwcLayer F) × Provision
  | [], s => ([], s)
  | e :: rest, s =>
      match emplace crtc s e.1 with
      | none => (e :: rest, s)
      | some s => emplaceAll crtc rest s

theorem emplaceAll_suffix (crtc : DrmCrtc) :
    ∀ (l : List (Nat × DrmHwcLayer F)) (s : Provision), (emplaceAll crtc l s).1 <:+ l := by
  intro l
  induction l with
  | nil => intro s; exact List.suffix_refl []
  | cons e rest ih =>
      intro s
      rw [emplaceAll]
      split
      · exact List.suffix_refl _
      · exact (ih _).trans (List.suffix_cons e rest)

/-- `PlanStageGreedy`: what is left after that goes to the precomp plane, if there is
one. -/
def planStageGreedy : PlanStage F := fun crtc layers s =>
  let rest : LayerMap F := ⟨(emplaceAll crtc layers.entries s).1,
    layers.sorted.sublist (emplaceAll_suffix crtc _ _).sublist⟩
  let s := (emplaceAll crtc layers.entries s).2
  match getPrecomp s.composition with
  | none => (0, rest, s)
  | some _ =>
      let (layers, s) := rest.eraseLoop (fun _ => true)
        (fun s e => { s with composition := pushPrecomp e.1 s.composition }) s
      (0, layers, s)

/-- The stages of `Planner::CreateInstance` for this platform. -/
def nvStages [Sub F] [Div F] [IntCast F] [LT F] [DecidableLT F] : List (PlanStage F) :=
  [planStageNvLimits, planStageProtectedRotated, planStageProtected, planStagePrecomp,
    planStageGreedy]

/-! ## The planner -/

/-- `GetUsablePlanes`. -/
def getUsablePlanes (crtc : DrmCrtc) (primaryPlanes overlayPlanes : List DrmPlane) :
    List DrmPlane :=
  primaryPlanes.filter (·.getCrtcSupported crtc) ++ overlayPlanes.filter (·.getCrtcSupported crtc)

/-- The stages in turn; the first that fails ends the planning. -/
def runStages (crtc : DrmCrtc) :
    List (PlanStage F) → LayerMap F → Provision → Int × LayerMap F × Provision
  | [], layers, s => (0, layers, s)
  | stage :: stages, layers, s =>
      match stage crtc layers s with
      | (0, layers, s) => runStages crtc stages layers s
      | failed => failed

/-- The squash plane is reserved at the highest z-order. -/
def reserveSquash (useSquashFb : Bool) (planes : List DrmPlane) :
    Option DrmPlane × List DrmPlane :=
  if useSquashFb then (planes.getLast?, planes.dropLast) else (none, planes)

/-- The precomp plane is reserved at the next one, if there are more layers than
planes. -/
def reservePrecomp (crtc : DrmCrtc) (layerCount : Nat) (planes : List DrmPlane) : Provision :=
  if planes.length < layerCount then
    match planes.getLast? with
    | some plane => ⟨[⟨.precomp, plane, some crtc, []⟩], planes.dropLast⟩
    | none => ⟨[], planes⟩
  else ⟨[], planes⟩

/-- `Planner::ProvisionPlanes`. -/
def provisionPlanes (stages : List (PlanStage F)) (layers : LayerMap F) (useSquashFb : Bool)
    (crtc : DrmCrtc) (primaryPlanes overlayPlanes : List DrmPlane) :
    Int × List DrmCompositionPlane :=
  let planes := getUsablePlanes crtc primaryPlanes overlayPlanes
  if planes = [] then (-enodev, [])
  else
    let (squashPlane, planes) := reserveSquash useSquashFb planes
    let s := reservePrecomp crtc layers.entries.length planes
    let (ret, _, s) := runStages crtc stages layers s
    if ret ≠ 0 then (ret, [])
    else
      match squashPlane with
      | none => (0, s.composition)
      | some plane => (0, s.composition ++ [⟨.squash, plane, some crtc, []⟩])

end DragonDevice.Hwc
