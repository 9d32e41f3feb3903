/-
  Hwc/ReleaseFences.lean --- the fence timeline of a `DrmDisplayComposition`.

  A composition has a timeline of its own.  Every fence is a point of it, and a fence is
  signalled once the timeline of the kernel has come to its point.  The release fences
  of the layers are created group by group, so that squashing, pre-compositing and the
  composition as a whole each signal a prefix of them.
-/
import DragonDevice.Hwc.Layer
import DragonDevice.Lib.Transition
import Mathlib.Data.List.Perm.Basic

set_option autoImplicit false

namespace DragonDevice.Hwc

open DragonDevice.Lib

/-! ## The timeline -/

/-- The timeline of a composition, with the timeline of the kernel, the point of the release
fence of each layer, and the points of the fences that were created for framebuffers since the
release fences were assigned. -/
structure FenceTimeline where
  timeline : Int
  timelineCurrent : Int
  timelineSquashDone : Int
  timelinePreCompDone : Int
  kernel : Int
  releaseFence : Nat → Option Int
  framebufferFences : List Int

/-- A fence is signalled when the timeline of the kernel has come to its point. -/
def FenceTimeline.Signalled (s : FenceTimeline) (point : Int) : Prop := point ≤ s.kernel

/-- A composition after `Init`. -/
def FenceTimeline.init : FenceTimeline := ⟨0, 0, 0, 0, 0, fun _ => none, []⟩

/-- `IncreaseTimelineToPoint`, with what `sw_sync_timeline_inc` returns if it is called. -/
def increaseTimelineToPoint (inc : Int) (point : Int) (s : FenceTimeline) : FenceTimeline :=
  let timelineIncrease := point - s.timelineCurrent
  if timelineIncrease ≤ 0 then s
  else if inc ≠ 0 then s
  else { s with kernel := s.kernel + timelineIncrease, timelineCurrent := point }

/-- `SignalSquashDone`. -/
def signalSquashDone (inc : Int) (s : FenceTimeline) : FenceTimeline :=
  increaseTimelineToPoint inc s.timelineSquashDone s

/-- `SignalPreCompDone`. -/
def signalPreCompDone (inc : Int) (s : FenceTimeline) : FenceTimeline :=
  increaseTimelineToPoint inc s.timelinePreCompDone s

/-- `SignalCompositionDone`. -/
def signalCompositionDone (inc : Int) (s : FenceTimeline) : FenceTimeline :=
  increaseTimelineToPoint inc s.timeline s

/-- `CreateNextTimelineFence`: the point of the fence. -/
def createNextTimelineFence (s : FenceTimeline) : FenceTimeline :=
  { s with timeline := s.timeline + 1 }

/-! ## Assigning the release fences -/

/-- What a composition is made of, as far as its fences go: its regions and planes, and the
layers with a place for a release fence. -/
structure FenceUsers where
  squashRegions : List DrmCompositionRegion
  preCompRegions : List DrmCompositionRegion
  compositionPlanes : List DrmCompositionPlane
  hasReleaseFence : Nat → Bool

/-- `squash_layers`, `pre_comp_layers` and `comp_layers`. -/
structure LayerGroups where
  squash : List Nat
  preComp : List Nat
  comp : List Nat

/-- The layers of the squash regions. -/
def LayerGroups.emplaceSquash (groups : LayerGroups) (i : Nat) : LayerGroups :=
  { groups with squash := groups.squash.insert i }

/-- A layer of a precomp region is no longer one of the squash layers. -/
def LayerGroups.emplacePreComp (groups : LayerGroups) (i : Nat) : LayerGroups :=
  { groups with preComp := groups.preComp.insert i, squash := groups.squash.filter (· ≠ i) }

/-- A layer on a plane is no longer one of the precomp layers. -/
def LayerGroups.emplaceComp (groups : LayerGroups) (i : Nat) : LayerGroups :=
  { groups with comp := groups.comp.insert i, preComp := groups.preComp.filter (· ≠ i) }

/-- The layers of the squash regions, of the precomp regions and of the `kLayer` planes, in the
order in which the source goes through them. -/
def FenceUsers.squashSources (users : FenceUsers) : List Nat :=
  users.squashRegions.flatMap (·.sourceLayers)

def FenceUsers.preCompSources (users : FenceUsers) : List Nat :=
  users.preCompRegions.flatMap (·.sourceLayers)

def FenceUsers.compSources (users : FenceUsers) : List Nat :=
  (users.compositionPlanes.filter (·.type = .layer)).flatMap (·.sourceLayers)

/-- The first three loops of `CreateAndAssignReleaseFences`. -/
def FenceUsers.groups (users : FenceUsers) : LayerGroups :=
  let groups := users.squashSources.foldl LayerGroups.emplaceSquash ⟨[], [], []⟩
  let groups := users.preCompSources.foldl LayerGroups.emplacePreComp groups
  users.compSources.foldl LayerGroups.emplaceComp groups

/-- The order in which an `unordered_set` is gone through: each element once. -/
structure IterationOrder where
  order : List Nat → List Nat
  perm : ∀ l, (order l).Perm l

section Assign

variable (create : Int → Int) (hasReleaseFence : Nat → Bool)

/-- The loop over one group: each layer with a place for it gets the next fence, and the first
that cannot be created ends the loop with its error.  `create` is what `sw_sync_fence_create`
returns for a point. -/
def assignFences : List Nat → FenceTimeline → Int × FenceTimeline
  | [], s => (0, s)
  | i :: rest, s =>
      if hasReleaseFence i = false then assignFences rest s
      else
        let s := createNextTimelineFence s
        let fd := create s.timeline
        let s := { s with
          releaseFence := Function.update s.releaseFence i
            (if fd < 0 then none else some s.timeline) }
        if fd < 0 then (fd, s) else assignFences rest s

end Assign

/-- `CreateAndAssignReleaseFences`. -/
def createAndAssignReleaseFences (create : Int → Int) (users : FenceUsers)
    (squash preComp comp : IterationOrder) (s : FenceTimeline) : Int × FenceTimeline :=
  let assign := assignFences create users.hasReleaseFence
  let (ret, s) := assign (squash.order users.groups.squash) s
  if ret < 0 then (ret, s)
  else
    let s := { s with timelineSquashDone := s.timeline }
    let (ret, s) := assign (preComp.order users.groups.preComp) s
    if ret < 0 then (ret, s)
    else
      let s := { s with timelinePreCompDone := s.timeline }
      assign (comp.order users.groups.comp) s

/-! ## Runs -/

/-- What happens to a composition. -/
inductive FenceEvent where
  /-- `CreateAndAssignReleaseFences`, with the orders of its three sets -/
  | assign (squash preComp comp : IterationOrder)
  /-- `CreateNextTimelineFence`, for a framebuffer -/
  | framebufferFence
  /-- `SignalSquashDone`, with the result of the increment -/
  | squashDone (inc : Int)
  | preCompDone (inc : Int)
  | compositionDone (inc : Int)

/-- One event. -/
def fenceStep (create : Int → Int) (users : FenceUsers) (s : FenceTimeline) :
    FenceEvent → FenceTimeline
  | .assign squash preComp comp =>
      { (createAndAssignReleaseFences create users squash preComp comp s).2 with
        framebufferFences := [] }
  | .framebufferFence =>
      let s := createNextTimelineFence s
      if create s.timeline ≤ 0 then s
      else { s with framebufferFences := s.timeline :: s.framebufferFences }
  | .squashDone inc => signalSquashDone inc s
  | .preCompDone inc => signalPreCompDone inc s
  | .compositionDone inc => signalCompositionDone inc s

/-- The runs of a composition. -/
def fenceSystem (create : Int → Int) (users : FenceUsers) : System FenceTimeline FenceEvent where
  start s := s = FenceTimeline.init
  next s e := some (fenceStep create users s e)

/-- Assigning the release fences succeeds; the caller drops a composition for which it fails. -/
def AssignSucceeds (create : Int → Int) (users : FenceUsers) (s : FenceTimeline) :
    FenceEvent → Prop
  | .assign squash preComp comp =>
      (createAndAssignReleaseFences create users squash preComp comp s).1 = 0
  | _ => True

end DragonDevice.Hwc
