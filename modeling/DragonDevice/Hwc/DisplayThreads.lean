/-
  Hwc/DisplayThreads.lean --- the threads of a display, from `drmdisplaycompositor.cpp` and
  `drmcompositorworker.cpp`.

  `QueueComposition` is called by the framework; `DrmCompositorWorker` takes compositions from
  its queue and prepares them, and `FrameWorker` shows the frames.  What is done under a lock is
  one step, and so is what the kernel does.  The test of `active_composition_` in `ApplyFrame`
  and the call through it are one step too.  Locks do not fail, and the compositor is not
  destroyed meanwhile, so that nobody asks the workers to exit.
-/
import DragonDevice.Hwc.DisplayComposition
import DragonDevice.Lib.QueueWorker

set_option autoImplicit false

namespace DragonDevice.Hwc

open DragonDevice.Lib

/-! ## What is on display -/

/-- `DrmDisplayComposition`, as far as the threads look at it; `id` tells the objects apart. -/
structure ThreadComposition where
  id : Nat
  type : DrmCompositionType
  frameNo : Nat
  dpmsOn : Bool
  geometryChanged : Bool
  deriving DecidableEq, Repr

/-- `active_composition_`, what the kernel scans out, and what has happened so far: the commits,
the calls of `SignalCompositionDone` and the compositions that are gone. -/
structure Display where
  active : Option ThreadComposition
  screen : Option ThreadComposition
  committed : List ThreadComposition
  signalled : List Nat
  destroyed : List Nat
  deriving DecidableEq, Repr

namespace Display

def signalCompositionDone (d : Display) (c : ThreadComposition) : Display :=
  { d with signalled := d.signalled ++ [c.id] }

/-- The destructor of a composition signals its fences too. -/
def destroy (d : Display) (c : ThreadComposition) : Display :=
  { d.signalCompositionDone c with destroyed := d.destroyed ++ [c.id] }

/-- `ClearDisplay`, for what `DisablePlanes` returns. -/
def clearDisplay (d : Display) (disablePlanes : Int) : Display :=
  match d.active with
  | none => d
  | some c =>
      if disablePlanes ≠ 0 then d
      else
        { d.destroy c with active := none, screen := if d.screen = some c then none else d.screen }

/-- A commit that the kernel carries out. -/
def commit (d : Display) (c : ThreadComposition) : Display :=
  { d with screen := some c, committed := d.committed ++ [c] }

end Display

/-- Where `ApplyFrame` is: about to commit, to call `ClearDisplay`, to signal the active
composition, or to swap it. -/
inductive ApplyPhase where
  | commit
  | clear
  | signal
  | swap
  deriving DecidableEq, Repr

/-- What `ApplyFrame` does next, with what `CommitFrame` and `DisablePlanes` return, and whether
the kernel has carried out the commit. -/
inductive ApplyStep where
  | commit (ret : Int) (shown : Bool)
  | clear (disablePlanes : Int)
  | signal
  | swap
  deriving DecidableEq, Repr

/-- `ApplyFrame`, step by step, up to its end. -/
def Display.applyFrame (d : Display) (c : ThreadComposition) (status : Int) (phase : ApplyPhase) :
    ApplyStep → Option (Display × Option ApplyPhase)
  | .commit ret shown =>
      if phase = .commit then
        some (if status ≠ 0 then (d, some .clear)
          else (if shown then d.commit c else d, some (if ret ≠ 0 then .clear else .signal)))
      else none
  | .clear disablePlanes =>
      if phase = .clear then some ((d.clearDisplay disablePlanes).destroy c, none) else none
  | .signal =>
      if phase = .signal then
        some ((match d.active with
          | none => d
          | some active => d.signalCompositionDone active), some .swap)
      else none
  | .swap =>
      -- the composition that was active is destroyed with the parameter
      if phase = .swap then
        some ({ (match d.active with
          | none => d
          | some active => d.destroy active) with active := some c }, none)
      else none

/-! ## The threads -/

def drmDisplayCompositorMaxQueueDepth : Nat := 2

/-- Where `DrmCompositorWorker::Routine` is: about to call `HaveQueuedComposites`; about to wait;
waiting; about to call `Composite`; in `Composite` with a composition, about to call
`ClearDisplay`, to queue the frame, or to signal the frame worker; about to call `SquashAll`, or
in its `ApplyFrame`. -/
inductive CompositorPhase where
  | routine
  | sleep
  | waiting
  | composite
  | prepare
  | clear
  | queueFrame
  | signalFrame
  | squashAll
  | apply
  deriving DecidableEq, Repr

/-- A display's compositor.  `held` is what the compositor's worker has, with `ret`. -/
structure DisplayThreads where
  nextId : Nat
  /-- `active_` -/
  isActive : Bool
  /-- in `QueueComposition`, and waiting for room in the queue -/
  queueing : List ThreadComposition
  compositeQueue : List ThreadComposition
  /-- the calls of `QueueComposition` that are about to signal the worker -/
  signals : Nat
  phase : CompositorPhase
  held : Option (ThreadComposition × Int)
  squashPhase : ApplyPhase
  useHwOverlays : Bool
  didSquashAll : Bool
  /-- `FrameWorker`, which is in `ApplyFrame` when it acts -/
  frames : QueueWorker.State (ThreadComposition × Int)
  framePhase : ApplyPhase
  display : Display
  /-- what was put into the queue so far, and what was taken from it -/
  accepted : List ThreadComposition
  popped : List ThreadComposition
  /-- `CommitFrame` was called with no composition -/
  crashed : Bool

def DisplayThreads.init : DisplayThreads where
  nextId := 0
  isActive := false
  queueing := []
  compositeQueue := []
  signals := 0
  phase := .routine
  held := none
  squashPhase := .commit
  useHwOverlays := true
  didSquashAll := false
  frames := .init
  framePhase := .commit
  display := ⟨none, none, [], [], []⟩
  accepted := []
  popped := []
  crashed := false

/-- What `Composite` gets from the functions it calls for a frame. -/
structure CompositeOutcomes where
  prepareFrame : Int
  commitTest : Int
  squashFrame : Int

inductive CompositorEvent where
  | haveQueuedComposites
  | sleep
  | wake
  | timeout
  | composite (init : Int)
  | prepare (outcomes : CompositeOutcomes)
  | clear (disablePlanes : Int)
  | queueFrame
  | signalFrame
  | squashAll (squashFrame : Int)
  | apply (step : ApplyStep)

inductive FrameEvent where
  | check
  | look
  | wake
  | resume
  | apply (step : ApplyStep)

inductive DisplayEvent where
  | queueComposition (type : DrmCompositionType) (frameNo : Nat) (dpmsOn geometryChanged : Bool)
  | push (i : Nat)
  | signal
  | compositor (e : CompositorEvent)
  | frame (e : FrameEvent)

namespace DisplayThreads

/-- `QueueComposition`, up to where it takes the lock.  A composition that is not queued is
destroyed. -/
def queueComposition (s : DisplayThreads) (c : ThreadComposition) : DisplayThreads :=
  let s := { s with nextId := s.nextId + 1 }
  match c.type with
  | .frame =>
      if s.isActive then { s with queueing := s.queueing ++ [c] }
      else { s with display := s.display.destroy c }
  | .dpms => { s with isActive := c.dpmsOn, queueing := s.queueing ++ [c] }
  | .modeset => { s with queueing := s.queueing ++ [c] }
  | .empty => { s with display := s.display.destroy c }

/-- The worker waits for its signal. -/
def notify (s : DisplayThreads) : DisplayThreads :=
  { s with phase := if s.phase = .waiting then .composite else s.phase }

/-- `Composite` is left. -/
def composited (s : DisplayThreads) : DisplayThreads :=
  { s with phase := .routine, held := none, didSquashAll := false }

/-- `Composite`, up to where it gives back the lock. -/
def composite (s : DisplayThreads) (init : Int) : DisplayThreads :=
  if init ≠ 0 then s.composited
  else
    match s.compositeQueue with
    | [] => s.composited
    | c :: rest =>
        { s with
          compositeQueue := rest, popped := s.popped ++ [c], held := some (c, 0)
          phase := .prepare }

/-- What `SquashFrame` makes of a frame; it tells `SetLayers` that the geometry is the same. -/
def squashed (s : DisplayThreads) (c : ThreadComposition) : ThreadComposition :=
  ⟨s.nextId, .frame, c.frameNo, c.dpmsOn, false⟩

/-- `Composite`, for a composition that has been taken, up to a lock.  The results that matter
for the other types stay within the compositor. -/
def prepare (s : DisplayThreads) (c : ThreadComposition) (outcomes : CompositeOutcomes) :
    DisplayThreads :=
  let destroyed := { s.composited with display := s.display.destroy c }
  if c.type ≠ .frame then destroyed
  else if outcomes.prepareFrame ≠ 0 then destroyed
  else
    let (ret, useHwOverlays) :=
      if c.geometryChanged then (outcomes.commitTest, decide (outcomes.commitTest = 0))
      else (outcomes.prepareFrame, s.useHwOverlays)
    let s := { s with useHwOverlays := useHwOverlays }
    if useHwOverlays then { s with held := some (c, ret), phase := .queueFrame }
    else if outcomes.squashFrame ≠ 0 then { s with phase := .clear }
    else
      { s with
        nextId := s.nextId + 1, display := s.display.destroy c
        held := some (s.squashed c, outcomes.squashFrame), phase := .queueFrame }

/-- `SquashAll`, up to where it gives back the lock. -/
def squashAll (s : DisplayThreads) (squashFrame : Int) : DisplayThreads :=
  match s.display.active with
  | none => { s with phase := .routine, didSquashAll := true }
  | some c =>
      if squashFrame ≠ 0 then { s with phase := .routine, didSquashAll := true }
      else
        { s with
          nextId := s.nextId + 1, held := some (s.squashed c, 0), squashPhase := .commit
          phase := .apply }

def compositorNext (s : DisplayThreads) : CompositorEvent → Option DisplayThreads
  | .haveQueuedComposites =>
      if s.phase = .routine then
        some { s with phase := if s.compositeQueue = [] then .sleep else .composite }
      else none
  | .sleep => if s.phase = .sleep then some { s with phase := .waiting } else none
  | .wake => if s.phase = .waiting then some s.notify else none
  | .timeout =>
      if s.phase = .waiting ∧ s.didSquashAll = false then some { s with phase := .squashAll }
      else none
  | .composite init => if s.phase = .composite then some (s.composite init) else none
  | .prepare outcomes =>
      if s.phase = .prepare then s.held.map fun c => s.prepare c.1 outcomes else none
  | .clear disablePlanes =>
      if s.phase = .clear then
        s.held.map fun c =>
          { s.composited with display := (s.display.clearDisplay disablePlanes).destroy c.1 }
      else none
  | .queueFrame =>
      if s.phase = .queueFrame then
        s.held.bind fun c => (QueueWorker.next none s.frames (.push c)).map fun frames =>
          { s with frames := frames, held := none, phase := .signalFrame }
      else none
  | .signalFrame =>
      if s.phase = .signalFrame then
        (QueueWorker.next none s.frames .signal).map fun frames =>
          { s.composited with frames := frames }
      else none
  | .squashAll squashFrame =>
      if s.phase = .squashAll then some (s.squashAll squashFrame) else none
  | .apply step =>
      if s.phase = .apply then
        s.held.bind fun c => (s.display.applyFrame c.1 0 s.squashPhase step).map fun result =>
          match result.2 with
          | some phase => { s with display := result.1, squashPhase := phase }
          | none =>
              { s with display := result.1, held := none, phase := .routine, didSquashAll := true }
      else none

/-- `FrameWorker::Routine`.  A frame without a composition is not looked at before it is
committed. -/
def frameNext (s : DisplayThreads) : FrameEvent → Option DisplayThreads
  | .check => (QueueWorker.next none s.frames .check).map fun frames => { s with frames := frames }
  | .look =>
      (QueueWorker.next none s.frames .look).map fun frames =>
        { s with frames := frames, framePhase := .commit }
  | .wake => (QueueWorker.next none s.frames .wake).map fun frames => { s with frames := frames }
  | .resume =>
      (QueueWorker.next none s.frames .resume).map fun frames =>
        { s with frames := frames, framePhase := .commit }
  | .apply step =>
      if s.frames.phase = .acting then
        match s.frames.item with
        | none => some { s with crashed := true }
        | some (c, status) =>
            (s.display.applyFrame c status s.framePhase step).bind fun result =>
              match result.2 with
              | some phase => some { s with display := result.1, framePhase := phase }
              | none => (QueueWorker.next none s.frames .finish).map fun frames =>
                  { s with display := result.1, frames := frames, framePhase := .commit }
      else none

end DisplayThreads

/-- A step of a thread.  Those who wait for room in the queue are served in any order. -/
def displayNext (s : DisplayThreads) (e : DisplayEvent) : Option DisplayThreads :=
  if s.crashed then none
  else
    match e with
    | .queueComposition type frameNo dpmsOn geometryChanged =>
        some (s.queueComposition ⟨s.nextId, type, frameNo, dpmsOn, geometryChanged⟩)
    | .push i =>
        s.queueing[i]?.bind fun c =>
          if s.compositeQueue.length < drmDisplayCompositorMaxQueueDepth then
            some { s with
              queueing := s.queueing.eraseIdx i, compositeQueue := s.compositeQueue ++ [c]
              accepted := s.accepted ++ [c], signals := s.signals + 1 }
          else none
    | .signal =>
        if 0 < s.signals then some { s.notify with signals := s.signals - 1 } else none
    | .compositor e => s.compositorNext e
    | .frame e => s.frameNext e

def displaySystem : System DisplayThreads DisplayEvent := ⟨fun s => s = .init, displayNext⟩

end DragonDevice.Hwc
