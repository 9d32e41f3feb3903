/-
  Hwc/SquashSystem.lean --- planning and rendering of the squash framebuffer.

  `Plan` marks the regions of a frame that are squashed, long before the worker of
  the display renders them: `QueueComposition` puts the frame into a queue or rejects it,
  and `Composite` takes it out.  The two sides share the squash state and the two squash
  framebuffers only.
-/
import DragonDevice.Hwc.Composition
import DragonDevice.Lib.Transition

set_option autoImplicit false

namespace DragonDevice.Hwc

open DragonDevice.Lib

variable {F : Type}

/-! ## Framebuffers -/

/-- A rectangle that is drawn, with its layers and their buffers. -/
structure DrawnRegion where
  rect : Rect Int
  sourceLayers : List (Nat × Option Nat)
  deriving DecidableEq, Repr

/-- What a rendering leaves in a framebuffer. -/
abbrev SquashContent : Type := List DrawnRegion

/-- `DrmFramebuffer`: the size of its buffer, if there is one, and what was last rendered
into that buffer. -/
structure DrmFramebuffer where
  size : Option (Nat × Nat)
  content : Option SquashContent
  deriving DecidableEq, Repr

/-- `Allocate`; `PrepareFramebuffer` has dropped the release fence, so that there is none
to wait for. -/
def DrmFramebuffer.allocate (fb : DrmFramebuffer) (size : Nat × Nat) : DrmFramebuffer :=
  if fb.size = some size then fb else ⟨some size, none⟩

/-- The results of the calls for one rendering. -/
structure RenderOutcomes where
  waitReleased : Int
  /-- `GetActiveModeResolution` -/
  resolution : (Nat × Nat) × Int
  importBuffer : Int
  glComposite : Int
  timelineFence : Int
  deriving DecidableEq, Repr

/-- `PrepareFramebuffer`. -/
def prepareFramebuffer (fb : DrmFramebuffer) (outcomes : RenderOutcomes) : Int × DrmFramebuffer :=
  if outcomes.waitReleased ≠ 0 then (outcomes.waitReleased, fb)
  else if outcomes.resolution.2 ≠ 0 then (outcomes.resolution.2, fb)
  else (outcomes.importBuffer, fb.allocate outcomes.resolution.1)

/-- The picture of some regions of the layers of a frame. -/
def renderedContent (layers : List (DrmHwcLayer F)) (regions : List DrmCompositionRegion) :
    SquashContent :=
  regions.map fun region =>
    ⟨region.frame, region.sourceLayers.map fun i => (i, (layers[i]?).map (·.sfHandle))⟩

/-- `ApplySquash`; `GLWorkerCompositor::Composite` fails only before it draws, and a
`glComposite` of 0 stands for every region drawn from its own layers. -/
def applySquash (comp : DrmDisplayComposition F) (fb : DrmFramebuffer)
    (outcomes : RenderOutcomes) : Int × DrmFramebuffer :=
  let (ret, fb) := prepareFramebuffer fb outcomes
  if ret ≠ 0 then (ret, fb)
  else if outcomes.glComposite ≠ 0 then (outcomes.glComposite, fb)
  else
    let fb := { fb with content := some (renderedContent comp.layers comp.squashRegions) }
    if outcomes.timelineFence ≤ 0 then (outcomes.timelineFence, fb) else (0, fb)

/-- `UsesSquash`. -/
def usesSquash (compPlanes : List DrmCompositionPlane) : Bool :=
  compPlanes.any fun p => p.type == .squash

/-! ## The display -/

/-- A composition in the queue, with the squash state its planning left. -/
structure QueuedComposition (F : Type) where
  comp : DrmDisplayComposition F
  planned : SquashState

/-- `DrmDisplayCompositor`, as far as squashing goes. -/
structure SquashSystemState (F : Type) where
  squash : SquashState
  active : Bool
  compositeQueue : List (QueuedComposition F)
  squashFramebufferIndex : Fin 2
  squashFramebuffers : Fin 2 → DrmFramebuffer

/-- What is in the framebuffer that the next reuse scans out. -/
def SquashSystemState.content (s : SquashSystemState F) : Option SquashContent :=
  (s.squashFramebuffers s.squashFramebufferIndex).content

/-- A frame for a display, with what its planning and queuing depend on: the planes that
are left for it and those it disables, the release fences, and whether the rest of
`DrmCompositor::QueueComposition` (the other displays) lets it through. -/
structure SubmittedFrame (F : Type) where
  crtc : Option DrmCrtc
  layers : List (DrmHwcLayer F)
  geometryChanged : Bool
  pool : PlanePool
  unusedPlanes : List DrmPlane
  fenceResult : Int
  othersPass : Bool

/-- The composition of a frame before it is planned. -/
def SubmittedFrame.composition (frame : SubmittedFrame F) : DrmDisplayComposition F :=
  ⟨.frame, frame.crtc, frame.layers, frame.geometryChanged, [], [], []⟩

inductive SquashEvent (F : Type) where
  | submit (frame : SubmittedFrame F)
  | dpms (on : Bool)
  | modeset
  | composite (outcomes : RenderOutcomes)

/-- `composite_queue_.push`.  The wait for room before it changes nothing: the worker takes
compositions out at the other end. -/
def SquashSystemState.push (s : SquashSystemState F) (comp : DrmDisplayComposition F) :
    SquashSystemState F :=
  { s with compositeQueue := s.compositeQueue ++ [⟨comp, s.squash⟩] }

/-- A composition that only has a type. -/
def controlComposition (type : DrmCompositionType) : DrmDisplayComposition F :=
  ⟨type, none, [], false, [], [], []⟩

/-- The squash part of `PrepareFrame`.  Without a buffer the reuse reads through a null
pointer. -/
def prepareSquash (s : SquashSystemState F) (comp : DrmDisplayComposition F)
    (outcomes : RenderOutcomes) : Option (SquashSystemState F) :=
  if comp.squashRegions ≠ [] then
    let index := s.squashFramebufferIndex + 1
    let fb := (applySquash comp (s.squashFramebuffers index) outcomes).2
    some { s with
      squashFramebufferIndex := index
      squashFramebuffers := fun i => if i = index then fb else s.squashFramebuffers i }
  else if usesSquash comp.compositionPlanes ∧
      (s.squashFramebuffers s.squashFramebufferIndex).size = none then none
  else some s

variable [Sub F] [Div F] [IntCast F] [LT F] [DecidableLT F]

/-- `DrmCompositor::QueueComposition` with a frame for the display: the squash state is
updated even when the frame goes no further. -/
def submitFrame (platform : Platform) (s : SquashSystemState F) (frame : SubmittedFrame F) :
    Option (SquashSystemState F) :=
  match frame.composition.plan platform.createInstance (some s.squash) frame.pool
      frame.fenceResult with
  | none => none
  | some (ret, comp, squash, _) =>
      let s := { s with squash := squash.getD s.squash }
      if ret ≠ 0 ∨ frame.othersPass = false ∨ s.active = false then some s
      else some (s.push (frame.unusedPlanes.foldl DrmDisplayComposition.addPlaneDisable comp))

/-- Frames, DPMS changes and modesets on a display, and the turns of its worker. -/
def squashSystem (F : Type) [Sub F] [Div F] [IntCast F] [LT F] [DecidableLT F]
    (platform : Platform) : System (SquashSystemState F) (SquashEvent F) where
  start := fun s => s.squash = .initial ∧ s.active = false ∧ s.compositeQueue = [] ∧
    s.squashFramebufferIndex = 0 ∧ ∀ i, s.squashFramebuffers i = ⟨none, none⟩
  next := fun s e =>
    match e with
    | .submit frame => submitFrame platform s frame
    | .dpms on => some ({ s with active := on }.push (controlComposition .dpms))
    | .modeset => some (s.push (controlComposition .modeset))
    | .composite outcomes =>
        match s.compositeQueue with
        | [] => some s
        | e :: queue =>
            let s := { s with compositeQueue := queue }
            if e.comp.type = .frame then prepareSquash s e.comp outcomes else some s

/-! ## Freshness -/

/-- The regions marked as squashed, with the buffers of their layers. -/
def SquashState.marked (squash : SquashState) : SquashContent :=
  (squash.regions.filter (·.squashed)).map fun region =>
    ⟨region.rect, (regionLayers squash.lastHandles.length region).map fun i =>
      (i, squash.lastHandles[i]?)⟩

/-- A frame that scans out the squash framebuffer as it is. -/
def ReusesSquash (comp : DrmDisplayComposition F) : Prop :=
  comp.type = .frame ∧ usesSquash comp.compositionPlanes = true ∧ comp.squashRegions = []

instance (comp : DrmDisplayComposition F) : Decidable (ReusesSquash comp) :=
  inferInstanceAs (Decidable (_ ∧ _ ∧ _))

/-- The framebuffer was rendered from the regions that are marked now. -/
def FreshNow (s : SquashSystemState F) : Prop :=
  ∀ e queue, s.compositeQueue = e :: queue → ReusesSquash e.comp →
    s.content = some s.squash.marked

/-- The framebuffer was rendered from the regions that were marked when the frame was
planned, and from the buffers the frame has. -/
def FreshAsPlanned (s : SquashSystemState F) : Prop :=
  ∀ e queue, s.compositeQueue = e :: queue → ReusesSquash e.comp →
    s.content = some e.planned.marked ∧
      e.planned.lastHandles = e.comp.layers.map (·.sfHandle)

/-! ## When it is fresh -/

/-- The regions that `Plan` marks in a frame without a change of geometry. -/
def SquashState.nextMarks (squash : SquashState) (layers : List (DrmHwcLayer F)) :
    Option (List Bool) :=
  (squash.generateHistory layers).map squash.stableRegionsWithMarginalHistory

def SquashState.marks (squash : SquashState) : List Bool := squash.regions.map (·.squashed)

/-- The frame has to render the squash framebuffer. -/
def SubmittedFrame.Renders (frame : SubmittedFrame F) (squash : SquashState) : Prop :=
  frame.geometryChanged = false ∧
  ∃ marks ∈ squash.nextMarks frame.layers, true ∈ marks ∧ marks ≠ squash.marks

/-- The frame gets into the queue. -/
def SubmittedFrame.Queued (frame : SubmittedFrame F) (active : Bool) : Prop :=
  (∀ crtc ∈ frame.crtc,
    getUsablePlanes crtc frame.pool.primaryPlanes frame.pool.overlayPlanes ≠ []) ∧
  frame.fenceResult = 0 ∧ frame.othersPass = true ∧ active = true

/-- The frame has the layers the squash state knows, or there is nothing to squash. -/
def SubmittedFrame.Expected (frame : SubmittedFrame F) (squash : SquashState) : Prop :=
  frame.geometryChanged = false → frame.layers.length ≠ squash.lastHandles.length →
    ∀ region ∈ squash.regions, squash.isStable region = false

/-- Every frame is an expected one, a frame that renders is queued, and its rendering
succeeds. -/
def SquashStepOk (s : SquashSystemState F) : SquashEvent F → Prop
  | .submit frame =>
      frame.Expected s.squash ∧ (frame.Renders s.squash → frame.Queued s.active)
  | .dpms _ => True
  | .modeset => True
  | .composite outcomes =>
      ∀ e ∈ s.compositeQueue.head?, e.comp.type = .frame → e.comp.squashRegions ≠ [] →
        outcomes.waitReleased = 0 ∧ outcomes.resolution.2 = 0 ∧ outcomes.importBuffer = 0 ∧
        outcomes.glComposite = 0

/-- No other regions are marked while a frame that reuses the framebuffer waits. -/
def KeepsMarks (s : SquashSystemState F) : SquashEvent F → Prop
  | .submit frame => (∃ e ∈ s.compositeQueue, ReusesSquash e.comp) →
      frame.geometryChanged = false ∧ s.squash.nextMarks frame.layers = some s.squash.marks
  | _ => True

end DragonDevice.Hwc
