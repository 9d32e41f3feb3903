/-
  Hwc/CommitFrame.lean --- `DrmDisplayCompositor::CommitFrame`.

  A frame is committed by one atomic property set: the mode where one is pending, and
  the properties of each composition plane.  What the kernel and the fences answer is
  part of the input: `CommitOutcomes` has one answer for each call that can be made.
  Where the source reads through a null pointer or behind the end of a vector there is
  no result.
-/
import DragonDevice.Hwc.Composition
import DragonDevice.Lib.BreakLoop

set_option autoImplicit false

namespace DragonDevice.Hwc

open DragonDevice.Lib

variable {F M : Type}

/-! ## Layers and properties -/

/-- `DrmHwcLayer`, with the fields a commit reads: `buffer` is the `fb_id` of an imported
buffer. -/
structure FrameLayer (F : Type) extends DrmHwcLayer F where
  alpha : BitVec 8
  acquireFence : Int
  buffer : Option (BitVec 32)

/-- The properties of a plane. -/
inductive PlaneProperty where
  | crtcId | fbId | crtcX | crtcY | crtcW | crtcH | srcX | srcY | srcW | srcH | rotation | alpha
  deriving DecidableEq, Repr

/-- An entry of a property set. -/
inductive Property where
  | crtcActive (crtc : DrmCrtc) (value : Int)
  | crtcMode (crtc : DrmCrtc) (blobId : BitVec 32)
  | connectorCrtc (connector : DrmConnector) (crtc : DrmCrtc)
  | plane (plane : DrmPlane) (property : PlaneProperty) (value : Int)
  deriving DecidableEq, Repr

/-- What a driver offers: the ids of the optional properties, 0 where there is none. -/
structure PlaneProperties where
  rotationProperty : DrmPlane → Nat
  alphaProperty : DrmPlane → Nat

/-- `DRM_MODE_ROTATE_0`. -/
def drmModeRotate0 : BitVec 64 := 0x1#64

/-- The `DRM_MODE_*` bits for a transform. -/
def rotationOf (transform : BitVec 32) : BitVec 64 :=
  let reflect (flag : BitVec 32) (bit : BitVec 64) : BitVec 64 :=
    if transform &&& flag ≠ 0#32 then bit else 0#64
  let rotate : BitVec 64 :=
    if transform &&& kRotate90 ≠ 0#32 then 0x2#64
    else if transform &&& kRotate180 ≠ 0#32 then 0x4#64
    else if transform &&& kRotate270 ≠ 0#32 then 0x8#64
    else drmModeRotate0
  reflect kFlipH 0x10#64 ||| reflect kFlipV 0x20#64 ||| rotate

/-- The alpha of a plane; only premultiplied layers have one of their own. -/
def planeAlpha (layer : FrameLayer F) : BitVec 64 :=
  if layer.blending = .preMult then layer.alpha.setWidth 64 else 0xFF#64

/-- The properties every plane with a framebuffer gets, with `truncate` the conversion of
a coordinate to an `int`; source coordinates are 16.16 fixed point. -/
def geometryProperties [Sub F] (truncate : F → Int) (crtc : DrmCrtc) (fbId : BitVec 32)
    (layer : FrameLayer F) : List (PlaneProperty × Int) :=
  let frame := layer.displayFrame
  let crop := layer.sourceCrop
  [(.crtcId, crtc.id), (.fbId, fbId.toInt), (.crtcX, frame.left), (.crtcY, frame.top),
    (.crtcW, frame.right - frame.left), (.crtcH, frame.bottom - frame.top),
    (.srcX, truncate crop.left * 65536), (.srcY, truncate crop.top * 65536),
    (.srcW, truncate (crop.right - crop.left) * 65536),
    (.srcH, truncate (crop.bottom - crop.top) * 65536)]

/-- The properties for which the driver has an id. -/
def optionalProperties (props : PlaneProperties) (plane : DrmPlane) (layer : FrameLayer F) :
    List (PlaneProperty × Int) :=
  (if props.rotationProperty plane ≠ 0 then
    [(PlaneProperty.rotation, ((rotationOf layer.transform).toNat : Int))]
  else []) ++
  (if props.alphaProperty plane ≠ 0 then [(PlaneProperty.alpha, ((planeAlpha layer).toNat : Int))]
  else [])

/-! ## What the kernel answers -/

/-- The results of the calls of one commit.  A composition plane is named by its position,
and `drmModeAtomicAddProperty` is called once at most for each of its properties. -/
structure CommitOutcomes where
  /-- `drmModeAtomicAlloc` returns a property set -/
  alloc : Bool
  addActive : Int
  addMode : Int
  addConnectorCrtc : Int
  addPlane : Nat → PlaneProperty → Int
  /-- `sync_wait`, for a position and the number of the try -/
  syncWait : Nat → Nat → Int
  atomicCommit : Int
  destroyBlob : Int
  setDpms : Int

/-- The frame a commit is about. -/
structure CommitInput (F : Type) where
  drm : DrmResources
  display : Int
  props : PlaneProperties
  truncate : F → Int
  layers : List (FrameLayer F)
  compPlanes : List DrmCompositionPlane
  outcomes : CommitOutcomes

/-- The state of the loop: `ret`, the fences that have been closed, and the property set. -/
structure CommitState where
  ret : Int
  closedFences : List Nat
  pset : List Property
  deriving DecidableEq, Repr

/-! ## The loop over the planes -/

def kAcquireWaitTries : Nat := 5

/-- The tries to wait for an acquire fence: the result of the last one. -/
def waitAcquire (syncWait : Nat → Int) : Nat → Nat → Int → Int
  | 0, _, ret => ret
  | tries + 1, i, _ =>
      if syncWait i ≠ 0 then waitAcquire syncWait tries (i + 1) (syncWait i) else 0

/-- Add properties one after the other, also behind one that fails. -/
def addProperties (add : PlaneProperty → Int) (plane : DrmPlane) :
    List (PlaneProperty × Int) → List Property → Bool × List Property
  | [], pset => (false, pset)
  | (property, value) :: rest, pset =>
      let failed := decide (add property < 0)
      let pset := if failed then pset else pset ++ [.plane plane property value]
      let (failed', pset) := addProperties add plane rest pset
      (failed || failed', pset)

/-- Add properties up to the first that fails. -/
def addEach (add : PlaneProperty → Int) (plane : DrmPlane) :
    List (PlaneProperty × Int) → List Property → Bool × List Property
  | [], pset => (false, pset)
  | (property, value) :: rest, pset =>
      if add property < 0 then (true, pset)
      else addEach add plane rest (pset ++ [.plane plane property value])

/-- An `int` from a comparison. -/
def intOfBool (b : Bool) : Int := if b then 1 else 0

section Loop

variable [Sub F] (input : CommitInput F)

/-- The block "Disable the plane if there's no framebuffer". -/
def disableTurn (k : Nat) (plane : DrmPlane) (st : CommitState) : Flow × CommitState :=
  let (failed, pset) := addEach (input.outcomes.addPlane k) plane [(.crtcId, 0), (.fbId, 0)] st.pset
  (if failed then .stop else .next, { st with ret := intOfBool failed, pset })

/-- The rest of the body, for a plane with a framebuffer. -/
def showTurn (k : Nat) (p : DrmCompositionPlane) (fbId : BitVec 32) (layer : FrameLayer F)
    (st : CommitState) : Option (Flow × CommitState) :=
  if rotationOf layer.transform ≠ drmModeRotate0 ∧ input.props.rotationProperty p.plane = 0 then
    some (.stop, { st with ret := -einval })
  else if planeAlpha layer ≠ 0xFF#64 ∧ input.props.alphaProperty p.plane = 0 then
    some (.stop, { st with ret := -einval })
  else
    match p.crtc with
    | none => none
    | some crtc =>
        let (failed, pset) := addProperties (input.outcomes.addPlane k) p.plane
          (geometryProperties input.truncate crtc fbId layer) st.pset
        if failed then some (.stop, { st with ret := 1, pset })
        else
          let (failed, pset) := addEach (input.outcomes.addPlane k) p.plane
            (optionalProperties input.props p.plane layer) pset
          some (if failed then .stop else .next, { st with ret := intOfBool failed, pset })

/-- From the buffer on, for a plane with one source layer. -/
def bufferTurn (k : Nat) (p : DrmCompositionPlane) (layer : FrameLayer F) (st : CommitState) :
    Option (Flow × CommitState) :=
  match layer.buffer with
  | none => some (.stop, st)
  | some fbId =>
      if fbId.toInt < 0 then some (disableTurn input k p.plane st)
      else showTurn input k p fbId layer st

/-- From the acquire fence on, for a plane with the one source layer `i`. -/
def layerTurn (testOnly : Bool) (k : Nat) (p : DrmCompositionPlane) (i : Nat)
    (layer : FrameLayer F) (st : CommitState) : Option (Flow × CommitState) :=
  if testOnly = false ∧ 0 ≤ layer.acquireFence ∧ i ∉ st.closedFences then
    let ret := waitAcquire (input.outcomes.syncWait k) kAcquireWaitTries 0 st.ret
    if ret ≠ 0 then some (.stop, { st with ret })
    else bufferTurn input k p layer { st with ret, closedFences := st.closedFences ++ [i] }
  else bufferTurn input k p layer st

/-- The body of the loop. -/
def commitTurn (testOnly : Bool) (k : Nat) (p : DrmCompositionPlane) (st : CommitState) :
    Option (Flow × CommitState) :=
  if p.type = .disable then some (disableTurn input k p.plane st)
  else
    match p.sourceLayers with
    -- the log message reads the first of no layers
    | [] => none
    | _ :: _ :: _ => some (.next, st)
    | [i] =>
        match input.layers[i]? with
        | none => some (.stop, st)
        | some layer => layerTurn input testOnly k p i layer st

/-- The loop over the composition planes. -/
def commitPlanes (testOnly : Bool) (st : CommitState) : Option (Flow × CommitState) :=
  breakLoop (commitTurn input testOnly) input.compPlanes 0 st

end Loop

/-! ## The commit -/

/-- `DrmDisplayCompositor::ModeState`. -/
structure ModeState (M : Type) where
  needsModeset : Bool
  mode : M
  blobId : BitVec 32
  oldBlobId : BitVec 32
  deriving DecidableEq, Repr

/-- The calls that make and destroy property blobs, with their success. -/
inductive BlobCall where
  | create (id : BitVec 32)
  | destroy (id : BitVec 32) (done : Bool)
  deriving DecidableEq, Repr

/-- What a commit leaves: the mode state, the connector's active mode, the property set of
a successful commit that was no test, and the calls about blobs. -/
structure CommitResult (M : Type) where
  ret : Int
  mode : ModeState M
  activeMode : M
  committed : Option (List Property)
  blobCalls : List BlobCall
  deriving DecidableEq, Repr

def enomem : Int := 12

/-- `DestroyPropertyBlob`: the id 0 is no blob. -/
def destroyPropertyBlob (id : BitVec 32) (result : Int) : Int × List BlobCall :=
  if id = 0#32 then (0, []) else (result, [.destroy id (decide (result = 0))])

/-- The properties of a pending mode: the code of an early return, or the set. -/
def modesetProperties (outcomes : CommitOutcomes) (mode : ModeState M) (crtc : DrmCrtc)
    (connector : DrmConnector) : Int × List Property :=
  if mode.needsModeset then
    if outcomes.addActive < 0 then (outcomes.addActive, [])
    else if outcomes.addMode < 0 ∨ outcomes.addConnectorCrtc < 0 then (1, [])
    else (0, [.crtcActive crtc 1, .crtcMode crtc mode.blobId, .connectorCrtc connector crtc])
  else (0, [])

/-- The end of `CommitFrame`, after the commit: with a pending mode `ret` is overwritten. -/
def finishModeset (outcomes : CommitOutcomes) (testOnly : Bool) (mode : ModeState M)
    (activeMode : M) (ret : Int) (committed : Option (List Property)) : CommitResult M :=
  if !testOnly ∧ mode.needsModeset then
    let (ret, blobCalls) := destroyPropertyBlob mode.oldBlobId outcomes.destroyBlob
    if ret ≠ 0 then ⟨ret, mode, activeMode, committed, blobCalls⟩
    else if outcomes.setDpms ≠ 0 then ⟨outcomes.setDpms, mode, activeMode, committed, blobCalls⟩
    else ⟨0, { mode with oldBlobId := mode.blobId, blobId := 0#32, needsModeset := false },
      mode.mode, committed, blobCalls⟩
  else ⟨ret, mode, activeMode, committed, []⟩

/-- How the part of `CommitFrame` up to the commit ends: with a return, or at the end of the
function with `ret` and the set that was committed. -/
inductive SetCommit where
  | returned (ret : Int)
  | goesOn (ret : Int) (committed : Option (List Property))
  deriving DecidableEq, Repr

/-- `CommitFrame` up to the commit. -/
def commitSet [Sub F] (input : CommitInput F) (testOnly : Bool) (mode : ModeState M) :
    Option SetCommit :=
  match input.drm.getConnectorForDisplay input.display,
      input.drm.getCrtcForDisplay input.display with
  | some connector, some crtc =>
      if input.outcomes.alloc = false then some (.returned (-enomem))
      else
        let (ret, pset) := modesetProperties input.outcomes mode crtc connector
        if ret ≠ 0 then some (.returned ret)
        else
          match commitPlanes input testOnly ⟨0, [], pset⟩ with
          | none => none
          | some (_, st) =>
              if st.ret ≠ 0 then some (.goesOn st.ret none)
              else if input.outcomes.atomicCommit ≠ 0 then
                some (.returned input.outcomes.atomicCommit)
              else some (.goesOn 0 (if testOnly then none else some st.pset))
  | _, _ => some (.returned (-enodev))

/-- What `CommitFrame` leaves, for how its part up to the commit ends. -/
def SetCommit.result (outcomes : CommitOutcomes) (testOnly : Bool) (mode : ModeState M)
    (activeMode : M) : SetCommit → CommitResult M
  | .returned ret => ⟨ret, mode, activeMode, none, []⟩
  | .goesOn ret committed => finishModeset outcomes testOnly mode activeMode ret committed

/-- `DrmDisplayCompositor::CommitFrame`. -/
def commitFrame [Sub F] (input : CommitInput F) (testOnly : Bool) (mode : ModeState M)
    (activeMode : M) : Option (CommitResult M) :=
  (commitSet input testOnly mode).map (SetCommit.result input.outcomes testOnly mode activeMode)

end DragonDevice.Hwc
