/-
  Hwc/SquashFrame.lean --- `DrmDisplayCompositor::SquashFrame`.

  The layers of a composition are moved out of it plane by plane, to be rendered into one
  buffer, and moved back when that fails.  A move leaves the plain data of a layer where it
  was and takes what the layer owns: its buffer, its handle and its fences.  A read behind
  the end of `dst_layers` has no result.
-/
import Mathlib.Data.List.TakeWhile
import DragonDevice.Hwc.Composition

set_option autoImplicit false

namespace DragonDevice.Hwc

variable {F : Type} {n : Nat}

/-- `ENOTSUP`. -/
def enotsup : Int := 95

/-- `EALREADY`. -/
def ealready : Int := 114

theorem enotsup_ne_zero : -enotsup ≠ 0 := by decide

theorem einval_ne_zero : -einval ≠ 0 := by decide

/-! ## Layers and what they own -/

/-- The members of `DrmHwcLayer` that a move takes away.  A buffer without an importer and
a handle that is null are `none`, as is a null `OutputFd`. -/
structure LayerOwned where
  buffer : Option Nat
  handle : Option Nat
  acquireFence : Int
  releaseFence : Option Nat
  deriving DecidableEq, Repr

/-- A layer in memory: the data that a move copies, and what it owns. -/
structure HeldLayer (F : Type) where
  layer : DrmHwcLayer F
  owned : LayerOwned
  deriving DecidableEq, Repr

namespace HeldLayer

/-- What `std::move` leaves behind. -/
def movedFrom (l : HeldLayer F) : HeldLayer F :=
  { l with owned := ⟨none, none, -1, none⟩ }

/-- `layer.release_fence = OutputFd()`. -/
def clearReleaseFence (l : HeldLayer F) : HeldLayer F :=
  { l with owned := { l.owned with releaseFence := none } }

/-- The same content, the release fence apart. -/
def SameContent (l l' : HeldLayer F) : Prop :=
  l.layer = l'.layer ∧ l.owned.buffer = l'.owned.buffer ∧ l.owned.handle = l'.owned.handle ∧
    l.owned.acquireFence = l'.owned.acquireFence

end HeldLayer

/-! ## The compositions -/

/-- A composition plane of the source, over its `n` layers; its plane can be null. -/
structure SquashPlane (n : Nat) where
  type : CompositionPlaneType
  plane : Option DrmPlane
  sourceLayers : List (Fin n)
  deriving DecidableEq, Repr

/-- The source composition, its layers apart. -/
structure SquashSource (n : Nat) where
  type : DrmCompositionType
  crtc : Option DrmCrtc
  planes : List (SquashPlane n)
  deriving DecidableEq, Repr

/-- The destination composition. -/
structure SquashTarget (F : Type) where
  type : DrmCompositionType
  layers : List (HeldLayer F)
  planes : List DrmCompositionPlane
  deriving DecidableEq, Repr

/-- What the calls that `SquashFrame` makes return, and the layer that `ApplyPreComposite`
appends, if it gets so far. -/
structure SquashCalls (F : Type) where
  initResult : Int
  finalizeResult : Int
  preCompositeResult : Int
  preCompLayer : Option (HeldLayer F)
  deriving DecidableEq, Repr

/-! ## Moving the layers out -/

/-- The variables of the loop over the planes. -/
structure MoveOut (F : Type) (n : Nat) where
  srcLayers : Fin n → HeldLayer F
  dstLayers : List (HeldLayer F)
  primary : Option DrmPlane
  dstPlanes : List DrmCompositionPlane

namespace MoveOut

/-- The primary plane is to show the squashed frame, the others are disabled. -/
def claimPlane (s : MoveOut F n) (crtc : Option DrmCrtc) (plane : DrmPlane) : MoveOut F n :=
  if plane.isPrimary then { s with primary := some plane }
  else { s with dstPlanes := s.dstPlanes ++ [⟨.disable, plane, crtc, []⟩] }

/-- Move one layer. -/
def moveLayer (s : MoveOut F n) (i : Fin n) : MoveOut F n :=
  { s with
    srcLayers := fun j => if j = i then (s.srcLayers i).movedFrom else s.srcLayers j
    dstLayers := s.dstLayers ++ [(s.srcLayers i).clearReleaseFence] }

/-- The loop over the layers of a plane. -/
def moveLayers : List (Fin n) → MoveOut F n → Int × MoveOut F n
  | [], s => (0, s)
  | i :: rest, s =>
      if (s.srcLayers i).layer.protectedUsage then (-enotsup, s)
      else moveLayers rest (s.moveLayer i)

/-- The loop over the planes. -/
def movePlanes (crtc : Option DrmCrtc) : List (SquashPlane n) → MoveOut F n → Int × MoveOut F n
  | [], s => (0, s)
  | p :: rest, s =>
      match p.plane with
      | none => (-einval, s)
      | some plane =>
          if p.type = .disable then movePlanes crtc rest (s.claimPlane crtc plane)
          else
            let r := moveLayers p.sourceLayers (s.claimPlane crtc plane)
            if r.1 ≠ 0 then r else movePlanes crtc rest r.2

end MoveOut

/-! ## Moving them back -/

/-- The inner loop at `move_layers_back`: the layers of one plane are given the entries
from `planeIndex` on. -/
def moveBackPlane {α : Type} (dstLayers : List α) :
    List (Fin n) → Nat → (Fin n → α) → Option (Fin n → α)
  | [], _, layers => some layers
  | i :: rest, planeIndex, layers =>
      match dstLayers[planeIndex]? with
      | none => none
      | some l => moveBackPlane dstLayers rest (planeIndex + 1)
          fun j => if j = i then l else layers j

/-- The loop at `move_layers_back`, over the planes from `planeIndex - passed` on, of which
the inner loop has already passed the first `passed`. -/
def moveLayersBack {α : Type} (dstLayers : List α) :
    List (SquashPlane n) → Nat → Nat → (Fin n → α) → Option (Fin n → α)
  | [], _, _, layers => some layers
  | _ :: rest, passed + 1, planeIndex, layers =>
      moveLayersBack dstLayers rest passed planeIndex layers
  | p :: rest, 0, planeIndex, layers =>
      if planeIndex < dstLayers.length then
        if p.sourceLayers = [] then moveLayersBack dstLayers rest 0 (planeIndex + 1) layers
        else
          match moveBackPlane dstLayers p.sourceLayers planeIndex layers with
          | none => none
          | some layers =>
              moveLayersBack dstLayers rest (p.sourceLayers.length - 1)
                (planeIndex + p.sourceLayers.length) layers
      else some layers

/-! ## `SquashFrame` -/

/-- What a call leaves. -/
structure SquashResult (F : Type) (n : Nat) where
  ret : Int
  srcLayers : Fin n → HeldLayer F
  dst : SquashTarget F

/-- `validate_composition_type(DRM_COMPOSITION_TYPE_FRAME)`. -/
def SquashTarget.takesFrame (dst : SquashTarget F) : Bool :=
  dst.type == .empty || dst.type == .frame

/-- `SetLayers`, where the type allows it. -/
def SquashTarget.setLayers (dst : SquashTarget F) (layers : List (HeldLayer F)) :
    SquashTarget F :=
  { dst with type := .frame, layers := dst.layers ++ layers }

/-- "Replace source_layers with the output of the precomposite". -/
def replacePreComp (preCompLayerIndex : Nat) : List DrmCompositionPlane → List DrmCompositionPlane
  | [] => []
  | p :: rest =>
      if p.isPrecomp then { p with sourceLayers := [preCompLayerIndex] } :: rest
      else p :: replacePreComp preCompLayerIndex rest

/-- The code at `move_layers_back`. -/
def moveBackAndReturn (src : SquashSource n) (ret : Int) (srcLayers : Fin n → HeldLayer F)
    (dstLayers : List (HeldLayer F)) (dst : SquashTarget F) : Option (SquashResult F n) :=
  (moveLayersBack dstLayers src.planes 0 0 srcLayers).map fun layers => ⟨ret, layers, dst⟩

/-- `SquashFrame` from the call of `AddPlaneComposition` on: `dst` has been given the
layers, and `dst_layers` holds what the moves left. -/
def squashPlanned (src : SquashSource n) (plane : DrmPlane) (s : MoveOut F n)
    (dst : SquashTarget F) (calls : SquashCalls F) : Option (SquashResult F n) :=
  let squashedComp : DrmCompositionPlane :=
    ⟨.precomp, plane, src.crtc, List.range s.dstLayers.length⟩
  let dst := { dst with planes := dst.planes ++ [squashedComp] }
  let shells := s.dstLayers.map HeldLayer.movedFrom
  if calls.finalizeResult ≠ 0 then
    moveBackAndReturn src calls.finalizeResult s.srcLayers shells dst
  else
    let dst := { dst with layers := dst.layers ++ calls.preCompLayer.toList }
    if calls.preCompositeResult ≠ 0 then
      moveBackAndReturn src calls.preCompositeResult s.srcLayers shells dst
    else
      some ⟨0, s.srcLayers,
        { dst with planes := replacePreComp (dst.layers.length - 1) dst.planes }⟩

/-- `SquashFrame` from the end of the loop over the planes on. -/
def squashMoved (src : SquashSource n) (s : MoveOut F n) (dst : SquashTarget F)
    (calls : SquashCalls F) : Option (SquashResult F n) :=
  let dst := { dst with planes := s.dstPlanes }
  match s.primary with
  | none => moveBackAndReturn src (-enotsup) s.srcLayers s.dstLayers dst
  | some plane =>
      if dst.takesFrame then squashPlanned src plane s (dst.setLayers s.dstLayers) calls
      else moveBackAndReturn src (-einval) s.srcLayers s.dstLayers dst

/-- `SquashFrame`. -/
def squashFrame (src : SquashSource n) (layers : Fin n → HeldLayer F) (dst : SquashTarget F)
    (calls : SquashCalls F) : Option (SquashResult F n) :=
  if src.type ≠ .frame then some ⟨-enotsup, layers, dst⟩
  else if src.planes.countP (fun p => p.type ≠ .disable) ≤ 1 then some ⟨-ealready, layers, dst⟩
  else if calls.initResult ≠ 0 then some ⟨calls.initResult, layers, dst⟩
  else
    let r := MoveOut.movePlanes src.crtc src.planes ⟨layers, [], none, dst.planes⟩
    if r.1 ≠ 0 then
      moveBackAndReturn src r.1 r.2.srcLayers r.2.dstLayers { dst with planes := r.2.dstPlanes }
    else squashMoved src r.2 dst calls

/-! ## The property -/

/-- Layers of given data and possessions. -/
def heldLayers (layers : Fin n → DrmHwcLayer F) (owned : Fin n → LayerOwned) (i : Fin n) :
    HeldLayer F :=
  ⟨layers i, owned i⟩

/-- The call returns, and where it returns an error every layer has its content. -/
def KeepsLayers (src : SquashSource n) (layers : Fin n → HeldLayer F) (dst : SquashTarget F)
    (calls : SquashCalls F) : Prop :=
  ∃ r, squashFrame src layers dst calls = some r ∧
    (r.ret ≠ 0 → ∀ i, (r.srcLayers i).SameContent (layers i))

/-! ## The condition -/

/-- The layers that are moved out, in order. -/
def movedLayers (layers : Fin n → DrmHwcLayer F) : List (SquashPlane n) → List (Fin n)
  | [] => []
  | p :: rest =>
      if p.plane = none then []
      else if p.type = .disable then movedLayers layers rest
      else if p.sourceLayers.any fun i => (layers i).protectedUsage then
        p.sourceLayers.takeWhile fun i => !(layers i).protectedUsage
      else p.sourceLayers ++ movedLayers layers rest

/-- No null plane and no protected layer stops the loop over the planes. -/
def SquashPlane.movable (layers : Fin n → DrmHwcLayer F) (p : SquashPlane n) : Bool :=
  p.plane.isSome && (p.type == .disable || p.sourceLayers.all fun i => !(layers i).protectedUsage)

/-- The layers get as far as the destination. -/
def SquashSource.handsOn (src : SquashSource n) (layers : Fin n → DrmHwcLayer F)
    (dst : SquashTarget F) : Bool :=
  src.planes.all (SquashPlane.movable layers) &&
    src.planes.any (fun p => p.plane.any DrmPlane.isPrimary) && dst.takesFrame

/-- The loop at `move_layers_back` run on the numbers of the entries: which entry each layer
is given last. -/
def entryNumbers (planes : List (SquashPlane n)) (entries : Nat) : Option (Fin n → Option Nat) :=
  moveLayersBack ((List.range entries).map some) planes 0 0 fun _ => none

/-- The call stops before the first layer is moved, or no layer is moved; the layers that
have been handed on are not needed back; those that have not are each given the first entry
that they were moved to. -/
def GivesBack (src : SquashSource n) (layers : Fin n → DrmHwcLayer F) (dst : SquashTarget F)
    (calls : SquashCalls F) : Prop :=
  let moved := movedLayers layers src.planes
  src.type ≠ .frame ∨ src.planes.countP (fun p => p.type ≠ .disable) ≤ 1 ∨
    calls.initResult ≠ 0 ∨
    if src.handsOn layers dst then
      moved = [] ∨ calls.finalizeResult = 0 ∧ calls.preCompositeResult = 0
    else entryNumbers src.planes moved.length = some fun j => moved.idxOf? j

/-! ## What has been moved out -/

/-- After the layers of a list have been moved out: an entry holds what its layer held only
if it is the first for that layer. -/
structure MovedOut (layers : Fin n → HeldLayer F) (moved : List (Fin n)) (s : MoveOut F n) :
    Prop where
  gone : ∀ j ∈ moved, s.srcLayers j = (layers j).movedFrom
  kept : ∀ j, j ∉ moved → s.srcLayers j = layers j
  length : s.dstLayers.length = moved.length
  dst : ∀ k i, moved[k]? = some i → s.dstLayers[k]? =
    some (if moved.idxOf? i = some k then (layers i).clearReleaseFence else (layers i).movedFrom)

theorem idxOf?_append_mem {l : List (Fin n)} {i : Fin n} (h : i ∈ l) (others : List (Fin n)) :
    (l ++ others).idxOf? i = l.idxOf? i := by
  unfold List.idxOf?
  rw [List.findIdx?_append]
  cases hfind : l.findIdx? (· == i) with
  | some k => rfl
  | none =>
      have hnot := List.findIdx?_eq_none_iff.mp hfind i h
      rw [beq_self_eq_true] at hnot
      cases hnot

theorem idxOf?_append_self {l : List (Fin n)} {i : Fin n} (h : i ∉ l) :
    (l ++ [i]).idxOf? i = some l.length := by
  have hnone : l.findIdx? (· == i) = none := by
    apply List.findIdx?_eq_none_iff.mpr
    intro x hx
    exact beq_eq_false_iff_ne.mpr fun heq : x = i => h (heq ▸ hx)
  unfold List.idxOf?
  rw [List.findIdx?_append, hnone]
  simp

theorem idxOf?_lt {l : List (Fin n)} {i : Fin n} {k : Nat} (h : l.idxOf? i = some k) :
    l[k]? = some i := by
  obtain ⟨hlt, heq, _⟩ := List.findIdx?_eq_some_iff_getElem.mp h
  rw [List.getElem?_eq_getElem hlt]
  exact congrArg some (beq_iff_eq.mp heq)

theorem idxOf?_eq_none {l : List (Fin n)} {i : Fin n} : l.idxOf? i = none ↔ i ∉ l := by
  unfold List.idxOf?
  rw [List.findIdx?_eq_none_iff]
  refine ⟨fun h hmem => ?_, fun h x hx => ?_⟩
  · have hnot := h i hmem
    rw [beq_self_eq_true] at hnot
    cases hnot
  · exact beq_eq_false_iff_ne.mpr fun heq : x = i => h (heq ▸ hx)

namespace MovedOut

variable {layers : Fin n → HeldLayer F} {moved : List (Fin n)} {s : MoveOut F n}

theorem layer_eq (h : MovedOut layers moved s) (j : Fin n) :
    (s.srcLayers j).layer = (layers j).layer := by
  by_cases hmem : j ∈ moved
  · rw [h.gone j hmem]
    rfl
  · rw [h.kept j hmem]

theorem start (layers : Fin n → HeldLayer F) (planes : List DrmCompositionPlane) :
    MovedOut layers [] ⟨layers, [], none, planes⟩ :=
  ⟨fun j hj => absurd hj List.not_mem_nil, fun _ _ => rfl, rfl, fun k i h => by cases h⟩

theorem claimPlane (h : MovedOut layers moved s) (crtc : Option DrmCrtc) (plane : DrmPlane) :
    MovedOut layers moved (s.claimPlane crtc plane) := by
  unfold MoveOut.claimPlane
  split
  · exact ⟨h.gone, h.kept, h.length, h.dst⟩
  · exact ⟨h.gone, h.kept, h.length, h.dst⟩

/-- One more layer. -/
theorem moveLayer (h : MovedOut layers moved s) (i : Fin n) :
    MovedOut layers (moved ++ [i]) (s.moveLayer i) := by
  refine ⟨fun j hj => ?_, fun j hj => ?_, ?_, fun k i' hk => ?_⟩
  · change (if j = i then (s.srcLayers i).movedFrom else s.srcLayers j) = _
    by_cases heq : j = i
    · rw [if_pos heq, heq]
      by_cases hmem : i ∈ moved
      · rw [h.gone i hmem]
        rfl
      · rw [h.kept i hmem]
    · rw [if_neg heq]
      rw [List.mem_append, List.mem_singleton] at hj
      exact h.gone j (hj.resolve_right heq)
  · change (if j = i then (s.srcLayers i).movedFrom else s.srcLayers j) = _
    rw [List.mem_append, List.mem_singleton, not_or] at hj
    rw [if_neg hj.2]
    exact h.kept j hj.1
  · change (s.dstLayers ++ [(s.srcLayers i).clearReleaseFence]).length = _
    rw [List.length_append, List.length_append, h.length]
    rfl
  · change (s.dstLayers ++ [(s.srcLayers i).clearReleaseFence])[k]? = _
    by_cases hlt : k < moved.length
    · rw [List.getElem?_append_left hlt] at hk
      rw [List.getElem?_append_left (h.length ▸ hlt), h.dst k i' hk,
        idxOf?_append_mem (List.mem_of_getElem? hk)]
    · rw [List.getElem?_append_right (Nat.le_of_not_lt hlt)] at hk
      obtain ⟨hzero, heq⟩ := List.getElem?_eq_some_iff.mp hk
      have hkm : k = moved.length := by
        rw [List.length_singleton] at hzero
        omega
      have hi : i = i' := by
        simpa [hkm] using hk
      rw [← hi, hkm, ← h.length, List.getElem?_concat_length, h.length]
      by_cases hmem : i ∈ moved
      · rw [h.gone i hmem, idxOf?_append_mem hmem, if_neg]
        · rfl
        · intro hidx
          have hget := idxOf?_lt hidx
          rw [List.getElem?_eq_none (Nat.le_refl _)] at hget
          cases hget
      · rw [h.kept i hmem, idxOf?_append_self hmem, if_pos rfl]

/-- The layers of one plane, up to the first that is protected. -/
theorem moveLayers : ∀ (l moved : List (Fin n)) (s : MoveOut F n), MovedOut layers moved s →
    MovedOut layers (moved ++ l.takeWhile fun i => !(layers i).layer.protectedUsage)
        (MoveOut.moveLayers l s).2 ∧
      ((MoveOut.moveLayers l s).1 = 0 ↔ ∀ i ∈ l, (layers i).layer.protectedUsage = false) ∧
      (MoveOut.moveLayers l s).2.primary = s.primary := by
  intro l
  induction l with
  | nil =>
      intro moved s h
      rw [List.takeWhile_nil, List.append_nil]
      exact ⟨h, iff_of_true rfl fun i hi => absurd hi List.not_mem_nil, rfl⟩
  | cons i rest ih =>
      intro moved s h
      unfold MoveOut.moveLayers
      rw [h.layer_eq]
      cases hprot : (layers i).layer.protectedUsage with
      | true =>
          rw [if_pos rfl, List.takeWhile_cons_of_neg (by rw [hprot]; exact Bool.false_ne_true),
            List.append_nil]
          refine ⟨h, ?_, rfl⟩
          apply iff_of_false
          · exact enotsup_ne_zero
          · intro hall
            have hfalse := hall i List.mem_cons_self
            rw [hprot] at hfalse
            cases hfalse
      | false =>
          obtain ⟨hmoved, hret, hprimary⟩ := ih (moved ++ [i]) (s.moveLayer i) (h.moveLayer i)
          rw [if_neg Bool.false_ne_true, List.takeWhile_cons_of_pos (by rw [hprot]; rfl),
            List.append_cons, List.forall_mem_cons]
          exact ⟨hmoved, hret.trans (and_iff_right hprot).symm, hprimary⟩

end MovedOut

theorem MoveOut.claimPlane_primary (s : MoveOut F n) (crtc : Option DrmCrtc) (plane : DrmPlane) :
    (s.claimPlane crtc plane).primary.isSome = (s.primary.isSome || plane.isPrimary) := by
  unfold MoveOut.claimPlane
  cases hprimary : plane.isPrimary with
  | true =>
      rw [if_pos rfl, Bool.or_true]
      rfl
  | false =>
      rw [if_neg Bool.false_ne_true, Bool.or_false]

section

variable {layers : Fin n → DrmHwcLayer F} {p : SquashPlane n}

theorem SquashPlane.movable_none (hplane : p.plane = none) : p.movable layers = false := by
  unfold SquashPlane.movable
  rw [hplane]
  rfl

theorem SquashPlane.movable_disable {plane : DrmPlane} (hplane : p.plane = some plane)
    (htype : p.type = .disable) : p.movable layers = true := by
  unfold SquashPlane.movable
  rw [hplane, htype]
  rfl

/-- The layers of a plane that is used are moved when none of them is protected. -/
theorem SquashPlane.movable_iff {plane : DrmPlane} (hplane : p.plane = some plane)
    (htype : p.type ≠ .disable) :
    p.movable layers = true ↔ ∀ i ∈ p.sourceLayers, (layers i).protectedUsage = false := by
  unfold SquashPlane.movable
  rw [hplane, beq_eq_false_iff_ne.mpr htype]
  simp

theorem takeWhile_unprotected {owned : Fin n → LayerOwned} {l : List (Fin n)}
    (h : ∀ i ∈ l, (layers i).protectedUsage = false) :
    (l.takeWhile fun i => !(heldLayers layers owned i).layer.protectedUsage) = l := by
  rw [List.takeWhile_eq_self_iff]
  intro i hi
  change (!(layers i).protectedUsage) = true
  rw [h i hi]
  rfl

end

/-- The layers of all planes, up to the plane at which the loop stops. -/
theorem MovedOut.movePlanes (layers : Fin n → DrmHwcLayer F) (owned : Fin n → LayerOwned)
    (crtc : Option DrmCrtc) :
    ∀ (planes : List (SquashPlane n)) (moved : List (Fin n)) (s : MoveOut F n),
      MovedOut (heldLayers layers owned) moved s →
      MovedOut (heldLayers layers owned) (moved ++ movedLayers layers planes)
          (MoveOut.movePlanes crtc planes s).2 ∧
        ((MoveOut.movePlanes crtc planes s).1 = 0 ↔
          planes.all (SquashPlane.movable layers) = true) ∧
        (planes.all (SquashPlane.movable layers) = true →
          (MoveOut.movePlanes crtc planes s).2.primary.isSome =
            (s.primary.isSome || planes.any fun p => p.plane.any DrmPlane.isPrimary)) := by
  intro planes
  induction planes with
  | nil =>
      intro moved s h
      rw [movedLayers, List.append_nil]
      exact ⟨h, iff_of_true rfl rfl, fun _ => (Bool.or_false _).symm⟩
  | cons p rest ih =>
      intro moved s h
      unfold MoveOut.movePlanes movedLayers
      rw [List.all_cons, List.any_cons]
      cases hplane : p.plane with
      | none =>
          rw [if_pos rfl, List.append_nil, SquashPlane.movable_none hplane]
          exact ⟨h, iff_of_false einval_ne_zero Bool.false_ne_true,
            fun hall => absurd hall Bool.false_ne_true⟩
      | some plane =>
          have hclaim := h.claimPlane crtc plane
          have hor := s.claimPlane_primary crtc plane
          rw [if_neg (Option.some_ne_none plane)]
          dsimp only
          by_cases hdisable : p.type = .disable
          · obtain ⟨hmoved, hret, hprimary⟩ := ih moved (s.claimPlane crtc plane) hclaim
            rw [if_pos hdisable, if_pos hdisable, SquashPlane.movable_disable hplane hdisable,
              Bool.true_and]
            refine ⟨hmoved, hret, fun hall => ?_⟩
            rw [hprimary hall, hor, Bool.or_assoc]
            rfl
          · obtain ⟨hmoved, hret, hprimary⟩ :=
              MovedOut.moveLayers p.sourceLayers moved (s.claimPlane crtc plane) hclaim
            have hmovable := @SquashPlane.movable_iff F n layers p plane hplane hdisable
            rw [if_neg hdisable, if_neg hdisable]
            by_cases hall : ∀ i ∈ p.sourceLayers, (layers i).protectedUsage = false
            · have hany : (p.sourceLayers.any fun i => (layers i).protectedUsage) = false := by
                rw [List.any_eq_false]
                intro i hi
                rw [hall i hi]
                exact Bool.false_ne_true
              rw [takeWhile_unprotected hall] at hmoved
              obtain ⟨hmoved', hret', hprimary'⟩ := ih (moved ++ p.sourceLayers) _ hmoved
              rw [if_neg (not_not_intro (hret.mpr hall)), hany, if_neg Bool.false_ne_true,
                hmovable.mpr hall, Bool.true_and, ← List.append_assoc]
              refine ⟨hmoved', hret', fun hrest => ?_⟩
              rw [hprimary' hrest, hprimary, hor, Bool.or_assoc]
              rfl
            · have hany : (p.sourceLayers.any fun i => (layers i).protectedUsage) = true := by
                rw [List.any_eq_true]
                simpa using hall
              have hne : (MoveOut.moveLayers p.sourceLayers (s.claimPlane crtc plane)).1 ≠ 0 :=
                fun hzero => hall (hret.mp hzero)
              rw [if_pos hne, if_pos hany, Bool.eq_false_iff.mpr (hmovable.not.mpr hall),
                Bool.false_and]
              exact ⟨hmoved, iff_of_false hne Bool.false_ne_true,
                fun h => absurd h Bool.false_ne_true⟩

/-! ## What is moved back -/

section

variable {α β : Type} {R : Fin n → α → β → Prop} {entries : List α} {entries' : List β}

/-- Two runs of the inner loop on related entries. -/
theorem moveBackPlane_rel
    (hentries : ∀ k : Nat, Option.Rel (fun a b => ∀ j, R j a b) entries[k]? entries'[k]?) :
    ∀ (l : List (Fin n)) (k : Nat) (f : Fin n → α) (g : Fin n → β), (∀ j, R j (f j) (g j)) →
      Option.Rel (fun f g => ∀ j, R j (f j) (g j)) (moveBackPlane entries l k f)
        (moveBackPlane entries' l k g) := by
  intro l
  induction l with
  | nil => intro k f g h; exact Option.Rel.some h
  | cons i rest ih =>
      intro k f g h
      unfold moveBackPlane
      have hk := hentries k
      revert hk
      generalize entries[k]? = a
      generalize entries'[k]? = b
      intro hk
      cases hk with
      | none => exact Option.Rel.none
      | some hab =>
          apply ih
          intro j
          by_cases hj : j = i
          · rw [if_pos hj, if_pos hj]
            exact hab j
          · rw [if_neg hj, if_neg hj]
            exact h j

/-- Two runs of the loop at `move_layers_back` on related entries. -/
theorem moveLayersBack_rel (hlength : entries.length = entries'.length)
    (hentries : ∀ k : Nat, Option.Rel (fun a b => ∀ j, R j a b) entries[k]? entries'[k]?) :
    ∀ (planes : List (SquashPlane n)) (passed k : Nat) (f : Fin n → α) (g : Fin n → β),
      (∀ j, R j (f j) (g j)) →
      Option.Rel (fun f g => ∀ j, R j (f j) (g j)) (moveLayersBack entries planes passed k f)
        (moveLayersBack entries' planes passed k g) := by
  intro planes
  induction planes with
  | nil => intro passed k f g h; exact Option.Rel.some h
  | cons p rest ih =>
      intro passed k f g h
      cases passed with
      | succ passed => exact ih passed k f g h
      | zero =>
          unfold moveLayersBack
          rw [hlength]
          split
          · split
            · exact ih 0 (k + 1) f g h
            · have hplane := moveBackPlane_rel hentries p.sourceLayers k f g h
              revert hplane
              generalize moveBackPlane entries p.sourceLayers k f = a
              generalize moveBackPlane entries' p.sourceLayers k g = b
              intro hplane
              cases hplane with
              | none => exact Option.Rel.none
              | some hab => exact ih _ _ _ _ hab
          · exact Option.Rel.some h

end

/-- A layer that is given an entry holds it, another what it held. -/
def Given {α : Type} (entries : List α) (layers : Fin n → α) (j : Fin n) (a : α) :
    Option Nat → Prop
  | none => a = layers j
  | some k => entries[k]? = some a

/-- What the loop does, from its run on the numbers of the entries. -/
theorem moveLayersBack_numbers {α : Type} (entries : List α) (layers : Fin n → α)
    (planes : List (SquashPlane n)) :
    Option.Rel (fun f g => ∀ j, Given entries layers j (f j) (g j))
      (moveLayersBack entries planes 0 0 layers) (entryNumbers planes entries.length) := by
  apply moveLayersBack_rel
  · rw [List.length_map, List.length_range]
  · intro k
    by_cases hk : k < entries.length
    · rw [List.getElem?_eq_getElem hk, List.getElem?_map, List.getElem?_range hk]
      exact Option.Rel.some fun j => List.getElem?_eq_getElem hk
    · rw [List.getElem?_eq_none (Nat.le_of_not_lt hk),
        List.getElem?_eq_none
          (by rw [List.length_map, List.length_range]; exact Nat.le_of_not_lt hk)]
      exact Option.Rel.none
  · intro j
    rfl

theorem moveLayersBack_nil {α : Type} (planes : List (SquashPlane n)) (layers : Fin n → α) :
    moveLayersBack [] planes 0 0 layers = some layers := by
  cases planes with
  | nil => rfl
  | cons p rest => rfl

/-! ## When the layers are kept -/

/-- Possessions by which the layers can be told apart. -/
def ownedByNumber (i : Fin n) : LayerOwned := ⟨some i.val, none, -1, none⟩

/-- The loop at `move_layers_back` gives the layers that have not been handed on back, if
each is given the first entry that it was moved to. -/
theorem moveBack_keeps {layers : Fin n → HeldLayer F} {moved : List (Fin n)} {s : MoveOut F n}
    (h : MovedOut layers moved s) {planes : List (SquashPlane n)}
    (hnumbers : entryNumbers planes moved.length = some fun j => moved.idxOf? j) :
    ∃ f, moveLayersBack s.dstLayers planes 0 0 s.srcLayers = some f ∧
      ∀ j, (f j).SameContent (layers j) := by
  have hrel := moveLayersBack_numbers s.dstLayers s.srcLayers planes
  rw [h.length, hnumbers] at hrel
  cases hback : moveLayersBack s.dstLayers planes 0 0 s.srcLayers with
  | none => rw [hback] at hrel; cases hrel
  | some f =>
      rw [hback] at hrel
      cases hrel with
      | some hgiven =>
          refine ⟨f, rfl, fun j => ?_⟩
          have hj : Given s.dstLayers s.srcLayers j (f j) (moved.idxOf? j) := hgiven j
          cases hidx : moved.idxOf? j with
          | none =>
              rw [hidx] at hj
              have hf : f j = s.srcLayers j := hj
              rw [hf, h.kept j (idxOf?_eq_none.mp hidx)]
              exact ⟨rfl, rfl, rfl, rfl⟩
          | some k =>
              rw [hidx] at hj
              have hf : s.dstLayers[k]? = some (f j) := hj
              rw [h.dst k j (idxOf?_lt hidx), if_pos hidx] at hf
              rw [← Option.some.inj hf]
              exact ⟨rfl, rfl, rfl, rfl⟩

/-- And only then, where the layers can be told apart. -/
theorem moveBack_numbers {layers : Fin n → DrmHwcLayer F} {moved : List (Fin n)}
    {s : MoveOut F n} (h : MovedOut (heldLayers layers ownedByNumber) moved s)
    {planes : List (SquashPlane n)} {f : Fin n → HeldLayer F}
    (hback : moveLayersBack s.dstLayers planes 0 0 s.srcLayers = some f)
    (hkeeps : ∀ j, (f j).SameContent (heldLayers layers ownedByNumber j)) :
    entryNumbers planes moved.length = some fun j => moved.idxOf? j := by
  have hrel := moveLayersBack_numbers s.dstLayers s.srcLayers planes
  rw [h.length, hback] at hrel
  cases hnumbers : entryNumbers planes moved.length with
  | none => rw [hnumbers] at hrel; cases hrel
  | some g =>
      rw [hnumbers] at hrel
      cases hrel with
      | some hgiven =>
          refine congrArg some (funext fun j => ?_)
          have hbuffer : (f j).owned.buffer = some j.val := (hkeeps j).2.1
          have hj := hgiven j
          cases hg : g j with
          | none =>
              rw [hg] at hj
              have hf : f j = s.srcLayers j := hj
              by_cases hmem : j ∈ moved
              · rw [hf, h.gone j hmem] at hbuffer
                cases hbuffer
              · exact (idxOf?_eq_none.mpr hmem).symm
          | some k =>
              rw [hg] at hj
              have hf : s.dstLayers[k]? = some (f j) := hj
              have hk : k < moved.length := by
                rw [← h.length]
                exact (List.getElem?_eq_some_iff.mp hf).1
              have hi := List.getElem?_eq_getElem hk
              rw [h.dst k _ hi] at hf
              rw [← Option.some.inj hf] at hbuffer
              by_cases hfirst : moved.idxOf? moved[k] = some k
              · rw [if_pos hfirst] at hbuffer
                have hval : moved[k].val = j.val := Option.some.inj hbuffer
                rw [← hfirst, Fin.ext hval]
              · rw [if_neg hfirst] at hbuffer
                cases hbuffer

/-- Layers that have been handed on do not come back. -/
theorem moveBack_shells {layers : Fin n → DrmHwcLayer F} {moved : List (Fin n)}
    {s : MoveOut F n} (h : MovedOut (heldLayers layers ownedByNumber) moved s)
    {planes : List (SquashPlane n)} {f : Fin n → HeldLayer F}
    (hback : moveLayersBack (s.dstLayers.map HeldLayer.movedFrom) planes 0 0 s.srcLayers = some f)
    (hkeeps : ∀ j, (f j).SameContent (heldLayers layers ownedByNumber j)) : moved = [] := by
  apply List.eq_nil_iff_forall_not_mem.mpr
  intro j hmem
  have hrel := moveLayersBack_numbers (s.dstLayers.map HeldLayer.movedFrom) s.srcLayers planes
  rw [hback] at hrel
  cases hnumbers : entryNumbers planes (s.dstLayers.map HeldLayer.movedFrom).length with
  | none => rw [hnumbers] at hrel; cases hrel
  | some g =>
      rw [hnumbers] at hrel
      cases hrel with
      | some hgiven =>
          have hbuffer : (f j).owned.buffer = some j.val := (hkeeps j).2.1
          have hj := hgiven j
          cases hg : g j with
          | none =>
              rw [hg] at hj
              have hf : f j = s.srcLayers j := hj
              rw [hf, h.gone j hmem] at hbuffer
              cases hbuffer
          | some k =>
              rw [hg] at hj
              have hf : (s.dstLayers.map HeldLayer.movedFrom)[k]? = some (f j) := hj
              rw [List.getElem?_map] at hf
              obtain ⟨l, _, hl⟩ := Option.map_eq_some_iff.mp hf
              rw [← hl] at hbuffer
              cases hbuffer

/-- A return through `move_layers_back` keeps the layers exactly when the loop gives them
back. -/
theorem moveBackAndReturn_keeps_iff {src : SquashSource n} {ret : Int} (hret : ret ≠ 0)
    {srcLayers : Fin n → HeldLayer F} {dstLayers : List (HeldLayer F)} {dst : SquashTarget F}
    {layers : Fin n → HeldLayer F} :
    (∃ r, moveBackAndReturn src ret srcLayers dstLayers dst = some r ∧
        (r.ret ≠ 0 → ∀ i, (r.srcLayers i).SameContent (layers i))) ↔
      ∃ f, moveLayersBack dstLayers src.planes 0 0 srcLayers = some f ∧
        ∀ i, (f i).SameContent (layers i) := by
  unfold moveBackAndReturn
  refine ⟨fun h => ?_, fun h => ?_⟩
  · obtain ⟨r, hr, hkeeps⟩ := h
    obtain ⟨f, hf, heq⟩ := Option.map_eq_some_iff.mp hr
    rw [← heq] at hkeeps
    exact ⟨f, hf, hkeeps hret⟩
  · obtain ⟨f, hf, hkeeps⟩ := h
    rw [hf]
    exact ⟨_, rfl, fun _ => hkeeps⟩

/-- How a call ends that gets as far as the loop over the planes. -/
theorem squashFrame_ends (src : SquashSource n) (layers : Fin n → DrmHwcLayer F)
    (owned : Fin n → LayerOwned) (dst : SquashTarget F) (calls : SquashCalls F)
    (htype : src.type = .frame) (hcount : 1 < src.planes.countP fun p => p.type ≠ .disable)
    (hinit : calls.initResult = 0) :
    ∃ s, MovedOut (heldLayers layers owned) (movedLayers layers src.planes) s ∧
      if src.handsOn layers dst then
        if calls.finalizeResult = 0 ∧ calls.preCompositeResult = 0 then
          ∃ dst', squashFrame src (heldLayers layers owned) dst calls =
            some ⟨0, s.srcLayers, dst'⟩
        else
          ∃ ret dst', ret ≠ 0 ∧ squashFrame src (heldLayers layers owned) dst calls =
            moveBackAndReturn src ret s.srcLayers (s.dstLayers.map HeldLayer.movedFrom) dst'
      else
        ∃ ret dst', ret ≠ 0 ∧ squashFrame src (heldLayers layers owned) dst calls =
          moveBackAndReturn src ret s.srcLayers s.dstLayers dst' := by
  obtain ⟨hmoved, hret, hprimary⟩ := MovedOut.movePlanes layers owned src.crtc src.planes [] _
    (MovedOut.start (heldLayers layers owned) dst.planes)
  rw [List.nil_append] at hmoved
  unfold squashFrame
  rw [if_neg (not_not_intro htype), if_neg (Nat.not_le.mpr hcount), if_neg (not_not_intro hinit)]
  dsimp only
  generalize MoveOut.movePlanes src.crtc src.planes _ = r at hmoved hret hprimary ⊢
  refine ⟨r.2, hmoved, ?_⟩
  unfold SquashSource.handsOn
  cases hall : src.planes.all (SquashPlane.movable layers) with
  | false =>
      have hne : r.1 ≠ 0 := fun hzero => by
        rw [hret.mp hzero] at hall
        cases hall
      rw [if_neg (by rw [Bool.false_and, Bool.false_and]; exact Bool.false_ne_true), if_pos hne]
      exact ⟨r.1, _, hne, rfl⟩
  | true =>
      have hsome := hprimary hall
      rw [if_neg (not_not_intro (hret.mpr hall)), Bool.true_and]
      rw [show (none : Option DrmPlane).isSome = false from rfl, Bool.false_or] at hsome
      rw [← hsome]
      unfold squashMoved
      cases hplane : r.2.primary with
      | none =>
          rw [if_neg (by rw [Option.isSome_none, Bool.false_and]; exact Bool.false_ne_true)]
          exact ⟨-enotsup, _, enotsup_ne_zero, rfl⟩
      | some plane =>
          rw [Option.isSome_some, Bool.true_and]
          have htakes : ({ dst with planes := r.2.dstPlanes } : SquashTarget F).takesFrame =
            dst.takesFrame := rfl
          dsimp only
          rw [htakes]
          cases htake : dst.takesFrame with
          | false =>
              exact ⟨-einval, _, einval_ne_zero, rfl⟩
          | true =>
              rw [if_pos rfl, if_pos rfl]
              unfold squashPlanned
              dsimp only
              by_cases hfinalize : calls.finalizeResult = 0
              · rw [if_neg (not_not_intro hfinalize)]
                by_cases hpre : calls.preCompositeResult = 0
                · rw [if_neg (not_not_intro hpre), if_pos ⟨hfinalize, hpre⟩]
                  exact ⟨_, rfl⟩
                · rw [if_pos hpre, if_neg fun hboth => hpre hboth.2]
                  exact ⟨_, _, hpre, rfl⟩
              · rw [if_pos hfinalize, if_neg fun hboth => hfinalize hboth.1]
                exact ⟨_, _, hfinalize, rfl⟩

/-- `SquashFrame` gives the layers back on every error, whatever they hold, exactly when
the error comes before a layer is moved, or no layer is moved, or the error comes before the
layers are handed on and the loop at `move_layers_back` gives each layer the first entry it
was moved to. -/
theorem squashFrame_keeps_iff_givesBack (src : SquashSource n) (layers : Fin n → DrmHwcLayer F)
    (dst : SquashTarget F) (calls : SquashCalls F) :
    (∀ owned, KeepsLayers src (heldLayers layers owned) dst calls) ↔
      GivesBack src layers dst calls := by
  unfold GivesBack
  dsimp only
  by_cases htype : src.type = .frame
  swap
  · refine iff_of_true (fun owned => ?_) (Or.inl htype)
    unfold KeepsLayers squashFrame
    rw [if_pos htype]
    exact ⟨_, rfl, fun _ i => ⟨rfl, rfl, rfl, rfl⟩⟩
  by_cases hcount : src.planes.countP (fun p => p.type ≠ .disable) ≤ 1
  · refine iff_of_true (fun owned => ?_) (Or.inr (Or.inl hcount))
    unfold KeepsLayers squashFrame
    rw [if_neg (not_not_intro htype), if_pos hcount]
    exact ⟨_, rfl, fun _ i => ⟨rfl, rfl, rfl, rfl⟩⟩
  by_cases hinit : calls.initResult = 0
  swap
  · refine iff_of_true (fun owned => ?_) (Or.inr (Or.inr (Or.inl hinit)))
    unfold KeepsLayers squashFrame
    rw [if_neg (not_not_intro htype), if_neg hcount, if_pos hinit]
    exact ⟨_, rfl, fun _ i => ⟨rfl, rfl, rfl, rfl⟩⟩
  rw [or_iff_right (not_not_intro htype), or_iff_right hcount, or_iff_right (not_not_intro hinit)]
  have hends := fun owned =>
    squashFrame_ends src layers owned dst calls htype (Nat.not_le.mp hcount) hinit
  unfold KeepsLayers
  cases hhands : src.handsOn layers dst with
  | false =>
      simp only [hhands, Bool.false_eq_true, if_false] at hends ⊢
      refine ⟨fun hkeeps => ?_, fun hnumbers owned => ?_⟩
      · obtain ⟨s, hmoved, ret, dst', hret, heq⟩ := hends ownedByNumber
        have hback := hkeeps ownedByNumber
        rw [heq, moveBackAndReturn_keeps_iff hret] at hback
        obtain ⟨f, hf, hsame⟩ := hback
        exact moveBack_numbers hmoved hf hsame
      · obtain ⟨s, hmoved, ret, dst', hret, heq⟩ := hends owned
        rw [heq, moveBackAndReturn_keeps_iff hret]
        exact moveBack_keeps hmoved hnumbers
  | true =>
      simp only [hhands, if_true] at hends ⊢
      by_cases hcalls : calls.finalizeResult = 0 ∧ calls.preCompositeResult = 0
      · simp only [if_pos hcalls] at hends
        refine iff_of_true (fun owned => ?_) (Or.inr hcalls)
        obtain ⟨s, _, dst', heq⟩ := hends owned
        exact ⟨_, heq, fun hne => absurd rfl hne⟩
      · simp only [if_neg hcalls] at hends
        rw [or_iff_left hcalls]
        refine ⟨fun hkeeps => ?_, fun hnil owned => ?_⟩
        · obtain ⟨s, hmoved, ret, dst', hret, heq⟩ := hends ownedByNumber
          have hback := hkeeps ownedByNumber
          rw [heq, moveBackAndReturn_keeps_iff hret] at hback
          obtain ⟨f, hf, hsame⟩ := hback
          exact moveBack_shells hmoved hf hsame
        · obtain ⟨s, hmoved, ret, dst', hret, heq⟩ := hends owned
          rw [heq, moveBackAndReturn_keeps_iff hret]
          rw [hnil] at hmoved
          have hempty : s.dstLayers = [] := List.length_eq_zero_iff.mp hmoved.length
          refine ⟨s.srcLayers, ?_, fun j => ?_⟩
          · rw [hempty]
            exact moveLayersBack_nil src.planes s.srcLayers
          · rw [hmoved.kept j List.not_mem_nil]
            exact ⟨rfl, rfl, rfl, rfl⟩

end DragonDevice.Hwc
