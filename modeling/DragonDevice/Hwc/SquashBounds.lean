/-
  Hwc/SquashBounds.lean --- frames with any number of layers.

  `Init` remembers the buffer of every layer, but builds no regions for more than
  `kMaxLayers` of them, and `GenerateHistory` has a bit for `kMaxLayers` layers only.  It
  throws when a layer behind them changes.  `SeparateLayers` counts the precomposed layers,
  but not those with planes of their own below them, and runs off an array when both
  together are too many.  Otherwise nothing refers to a layer that is not there, and
  nothing is squashed in a frame with too many layers.
-/
import DragonDevice.Hwc.HolePunching
import DragonDevice.Hwc.SquashFresh
import DragonDevice.Hwc.SquashStability

set_option autoImplicit false

namespace DragonDevice.Hwc

open DragonDevice.Lib

variable {F : Type}

/-! ## Runs of planned frames -/

/-- The squash state of a display, from frame to frame. -/
def squashRuns (F : Type) : System SquashState (SubmittedFrame F) where
  start := fun squash => squash = .initial
  next := fun squash frame =>
    (planSquash squash frame.geometryChanged frame.layers).map (·.2)

section Frames

variable [Sub F] [Div F] [IntCast F] [LT F] [DecidableLT F]

/-- What a frame of any number of layers must not do. -/
structure HandlesLayers (platform : Platform) (squash : SquashState) (frame : SubmittedFrame F) :
    Prop where
  /-- no bit outside the set of the changed layers -/
  noThrow : frame.geometryChanged = false → squash.generateHistory frame.layers ≠ none
  /-- no region of the squash state refers to a layer outside its list -/
  state : ∀ plan squash', planSquash squash frame.geometryChanged frame.layers =
    some (plan, squash') → ∀ region ∈ squash'.regions, ∀ i, region.layerRefs.getLsbD i = true →
      i < squash'.lastHandles.length
  /-- with more layers than bits nothing is squashed -/
  unused : ∀ plan squash', planSquash squash frame.geometryChanged frame.layers =
    some (plan, squash') → kMaxLayers < frame.layers.length →
      plan.useSquashFramebuffer = false ∧ plan.squashRegions = [] ∧ plan.excludeRects = []
  /-- the frame is planned, and no region or plane of the composition refers to a layer outside
  it -/
  planned : ∀ crtc, frame.crtc = some crtc → ∃ ret comp squash' pool',
    frame.composition.plan platform.createInstance (some squash) frame.pool frame.fenceResult =
      some (ret, comp, squash', pool') ∧
    (∀ region ∈ comp.squashRegions ++ comp.preCompRegions, ∀ i ∈ region.sourceLayers,
      i < frame.layers.length) ∧
    ∀ p ∈ comp.compositionPlanes, ∀ i ∈ p.sourceLayers, i < frame.layers.length

/-- The layers with planes below the precomp plane and those that are precomposed, as the planner
shares out a frame; none without a precomp plane. -/
def SubmittedFrame.plannedLayers (frame : SubmittedFrame F) (platform : Platform)
    (plan : SquashPlan) (crtc : DrmCrtc) : Option (List Nat × List Nat) :=
  findPrecomp ((provisionPlanes platform.createInstance
    (toComposite frame.layers (some plan.layerSquashArea)) plan.useSquashFramebuffer crtc
    frame.pool.primaryPlanes frame.pool.overlayPlanes).2.map sortSourceLayers) []

/-- Without a change of geometry no layer behind the bit set changes, and no frame with too many
layers comes when regions of another list are stable; and `SeparateLayers` can be given the
layers the planner chooses. -/
structure FrameSafe (platform : Platform) (squash : SquashState) (frame : SubmittedFrame F) :
    Prop where
  changes : frame.geometryChanged = false → frame.layers.length = squash.lastHandles.length →
    ∀ i, squash.LayerChangedAt frame.layers i → i < kMaxLayers
  stable : frame.geometryChanged = false → frame.layers.length ≠ squash.lastHandles.length →
    kMaxLayers < frame.layers.length → ∀ region ∈ squash.regions, squash.isStable region = false
  separable : ∀ plan squash' crtc dedicatedLayers compLayers,
    planSquash squash frame.geometryChanged frame.layers = some (plan, squash') →
    frame.crtc = some crtc →
    frame.plannedLayers platform plan crtc = some (dedicatedLayers, compLayers) →
      Separable frame.layers plan.excludeRects dedicatedLayers compLayers

end Frames

/-! ## The squash state -/

/-- The regions refer to layers of the list, and there are none for a list that is too long. -/
structure RefsBounded (squash : SquashState) : Prop where
  refs : ∀ region ∈ squash.regions, ∀ i, region.layerRefs.getLsbD i = true →
    i < squash.lastHandles.length
  long : kMaxLayers < squash.lastHandles.length → squash.regions = []

theorem RefsBounded.init {squash squash' : SquashState} {layers : List (DrmHwcLayer F)}
    (h : squash.init layers = some squash') : RefsBounded squash' := by
  by_cases h64 : layers.length ≤ 64
  · obtain ⟨squash₁, outs, hinit, hrecorded, hcover⟩ := squash.init_recorded h64
    rw [h] at hinit
    cases hinit
    have hlength : squash'.lastHandles.length = layers.length := by
      rw [hrecorded.handles, List.length_map]
    refine ⟨fun region hregion i hi => ?_, fun hlong => ?_⟩
    · have hmem : (region.rect, region.layerRefs) ∈
          outs.map fun o => (o.rect, o.idSet.getBits) := by
        rw [← hrecorded.regions]
        exact List.mem_map.mpr ⟨region, hregion, rfl⟩
      obtain ⟨o, ho, heq⟩ := List.mem_map.mp hmem
      rw [← (Prod.mk.inj heq).2] at hi
      obtain ⟨_, _, _, layer, hlayer, _⟩ := (hcover.mem_iff_overlaps ho i).mp hi
      rw [hlength]
      exact (List.getElem?_eq_some_iff.mp hlayer).1
    · rw [hlength, kMaxLayers] at hlong
      omega
  · have hnone : separateRects64 (layers.map (·.displayFrame)) [] = some [] :=
      if_pos (by rw [List.length_map]; exact Nat.lt_of_not_le h64)
    rw [SquashState.init, hnone] at h
    cases h
    exact ⟨fun _ hregion => absurd hregion List.not_mem_nil, fun _ => rfl⟩

theorem recordAndCompareSquashed_lastHandles (squash : SquashState) (marks : List Bool) :
    (squash.recordAndCompareSquashed marks).2.lastHandles = squash.lastHandles := by
  unfold SquashState.recordAndCompareSquashed
  split
  · rfl
  · rfl

theorem length_recordHistory_lastHandles (squash : SquashState) (layers : List (DrmHwcLayer F))
    (changedRegions : List Bool) :
    (squash.recordHistory layers changedRegions).lastHandles.length =
      squash.lastHandles.length := by
  rw [SquashState.recordHistory]
  split
  · rfl
  · rename_i hlength
    split
    · rfl
    · rw [List.length_map]
      exact not_not.mp hlength

/-- Frames without a change of geometry keep the references and the number of layers. -/
theorem RefsBounded.markStep {squash squash' : SquashState} {layers : List (DrmHwcLayer F)}
    {plan : SquashPlan} (h : RefsBounded squash)
    (hplan : planSquash squash false layers = some (plan, squash')) : RefsBounded squash' := by
  obtain ⟨mark, history, hstep⟩ := planSquash_markStep hplan
  have hlength : squash'.lastHandles.length = squash.lastHandles.length := by
    rw [planSquash, if_neg Bool.false_ne_true] at hplan
    obtain ⟨changedRegions, _, hplan⟩ := Option.bind_eq_some_iff.mp hplan
    dsimp only at hplan
    have hkept := recordAndCompareSquashed_lastHandles
      (squash.recordHistory layers changedRegions)
      (squash.stableRegionsWithMarginalHistory changedRegions)
    generalize (squash.recordHistory layers changedRegions).recordAndCompareSquashed
      (squash.stableRegionsWithMarginalHistory changedRegions) = result at hplan hkept
    cases hplan
    rw [hkept]
    exact length_recordHistory_lastHandles squash layers changedRegions
  refine ⟨fun region hregion i hi => ?_, fun hlong => ?_⟩
  · rw [hstep.regions] at hregion
    obtain ⟨old, hold, heq⟩ := List.mem_map.mp hregion
    rw [← heq] at hi
    rw [hlength]
    exact h.refs old hold i hi
  · rw [hlength] at hlong
    rw [hstep.regions, h.long hlong]
    rfl

theorem RefsBounded.next {squash squash' : SquashState} {plan : SquashPlan}
    {frame : SubmittedFrame F} (h : RefsBounded squash)
    (hplan : planSquash squash frame.geometryChanged frame.layers = some (plan, squash')) :
    RefsBounded squash' := by
  cases hgeometry : frame.geometryChanged with
  | false =>
      rw [hgeometry] at hplan
      exact h.markStep hplan
  | true =>
      rw [hgeometry, planSquash, if_pos rfl] at hplan
      obtain ⟨squash₁, hinit, heq⟩ := Option.bind_eq_some_iff.mp hplan
      cases heq
      exact .init hinit

theorem RefsBounded.reachable {squash : SquashState} {ok : SquashState → SubmittedFrame F → Prop}
    (h : (squashRuns F).Reachable ok squash) : RefsBounded squash := by
  refine h.invariant (fun s hstart => ?_) fun s frame s' hs _ hnext => ?_
  · rw [show s = .initial from hstart]
    exact ⟨fun _ hregion => absurd hregion List.not_mem_nil, fun _ => rfl⟩
  · obtain ⟨⟨plan, squash'⟩, hplan, heq⟩ := Option.map_eq_some_iff.mp hnext
    cases heq
    exact hs.next hplan

/-! ## The layers of a plan -/

theorem setBitsToVector_mem {bits : BitVec 64} {indexMap out : List Nat}
    (h : setBitsToVector bits indexMap = some out) : ∀ i ∈ out, i ∈ indexMap := by
  intro i hi
  obtain ⟨j, _, hj⟩ := (mapM_some_mem h).2 i hi
  exact List.mem_of_getElem? hj

theorem separateRegion_mem {numExcludeRects layerOffset : Nat}
    {dedicatedLayers compLayers : List Nat} {excludeMask dedicatedMask : BitVec 64}
    {region : RectSet Int} {out : List DrmCompositionRegion}
    (h : separateRegion numExcludeRects layerOffset dedicatedLayers compLayers excludeMask
      dedicatedMask region = some out) :
    ∀ r ∈ out, ∀ i ∈ r.sourceLayers, i ∈ compLayers := by
  unfold separateRegion at h
  split at h
  · cases h
    exact fun r hr => nomatch hr
  · obtain ⟨s, _, h⟩ := Option.bind_eq_some_iff.mp h
    split at h
    · cases h
    · split at h
      · cases h
        exact fun r hr => nomatch hr
      · obtain ⟨sourceLayers, hsource, h⟩ := Option.bind_eq_some_iff.mp h
        cases h
        intro r hr
        rw [List.mem_singleton.mp hr]
        exact setBitsToVector_mem hsource

theorem findPrecomp_mem {dedicatedLayers compLayers : List Nat} :
    ∀ {planes : List DrmCompositionPlane} {acc : List Nat},
      findPrecomp planes acc = some (dedicatedLayers, compLayers) →
      ∃ p ∈ planes, p.sourceLayers = compLayers := by
  intro planes
  induction planes with
  | nil => exact fun h => nomatch h
  | cons p planes ih =>
      intro acc h
      unfold findPrecomp at h
      split at h
      · obtain ⟨q, hq, heq⟩ := ih h
        exact ⟨q, List.mem_cons_of_mem p hq, heq⟩
      · cases h
        exact ⟨p, List.mem_cons_self, rfl⟩
      · obtain ⟨q, hq, heq⟩ := ih h
        exact ⟨q, List.mem_cons_of_mem p hq, heq⟩

/-- The layers of the precomposed regions are layers of the precomp plane. -/
theorem separateLayers_mem {layers : List (DrmHwcLayer F)} {planes : List DrmCompositionPlane}
    {excludeRects : List (Rect Int)} {regions : List DrmCompositionRegion}
    (h : separateLayers layers planes excludeRects = some regions) :
    ∀ region ∈ regions, ∀ i ∈ region.sourceLayers, ∃ p ∈ planes, i ∈ p.sourceLayers := by
  unfold separateLayers at h
  cases hfind : findPrecomp planes [] with
  | none =>
      rw [hfind] at h
      cases h
      exact fun r hr => nomatch hr
  | some lists =>
      obtain ⟨dedicatedLayers, compLayers⟩ := lists
      obtain ⟨p, hp, hsource⟩ := findPrecomp_mem hfind
      rw [hfind] at h
      dsimp only at h
      split at h
      · cases h
        exact fun r hr => nomatch hr
      · generalize (if 64 < compLayers.length + (excludeRects.length + dedicatedLayers.length) then
          (2 ^ 64 + 64 - compLayers.length - dedicatedLayers.length) % 2 ^ 64
          else excludeRects.length) = numExcludeRects at h
        by_cases hcopy : excludeRects.length < numExcludeRects
        · rw [if_pos hcopy] at h
          cases h
        · rw [if_neg hcopy] at h
          obtain ⟨dedicatedFrames, _, h⟩ := Option.bind_eq_some_iff.mp h
          obtain ⟨compFrames, _, h⟩ := Option.bind_eq_some_iff.mp h
          obtain ⟨sep, _, h⟩ := Option.bind_eq_some_iff.mp h
          obtain ⟨excludeBit, _, h⟩ := Option.bind_eq_some_iff.mp h
          obtain ⟨dedicatedBit, _, h⟩ := Option.bind_eq_some_iff.mp h
          obtain ⟨outs, houts, h⟩ := Option.bind_eq_some_iff.mp h
          cases h
          intro region hregion i hi
          obtain ⟨out, hout, hmem⟩ := List.mem_flatten.mp hregion
          obtain ⟨o, _, ho⟩ := (mapM_some_mem houts).2 out hout
          refine ⟨p, hp, ?_⟩
          rw [hsource]
          exact separateRegion_mem ho region hmem i hi

theorem provisionPlanes_mem {stages : List (PlanStage F)}
    (hstages : ∀ stage ∈ stages, DraftStage stage) {layers : LayerMap F} {useSquashFb : Bool}
    {crtc : DrmCrtc} {primaryPlanes overlayPlanes : List DrmPlane}
    {planes : List DrmCompositionPlane}
    (h : provisionPlanes stages layers useSquashFb crtc primaryPlanes overlayPlanes = (0, planes)) :
    ∀ p ∈ planes, ∀ i ∈ p.sourceLayers, i ∈ layers.keys := by
  obtain ⟨d, hplanes, _, hindices⟩ := provisionPlanes_draft hstages h
  intro p hp i hi
  rw [hplanes] at hp
  cases List.mem_append.mp hp with
  | inl hdraft =>
      refine hindices.subset (List.mem_append.mpr ?_)
      exact (mem_composition hdraft hi).imp_right fun hpre => hpre.2
  | inr hsquash =>
      obtain ⟨plane, _, heq⟩ := List.mem_map.mp hsquash
      rw [← heq] at hi
      cases hi

/-- The layers of a planned composition are layers of the frame. -/
theorem planPlanes_mem {stages : List (PlanStage F)} (hstages : ∀ stage ∈ stages, DraftStage stage)
    {comp comp' : DrmDisplayComposition F} {crtc : DrmCrtc} {squash : SquashPlan}
    {layers : LayerMap F} {pool pool' : PlanePool} {fenceResult ret : Int}
    (hkeys : ∀ i ∈ layers.keys, i < comp.layers.length) (hnew : comp.preCompRegions = [])
    (h : planPlanes stages comp crtc squash layers pool fenceResult = some (ret, comp', pool')) :
    comp'.squashRegions = comp.squashRegions ++ squash.squashRegions ∧
    (∀ region ∈ comp'.preCompRegions, ∀ i ∈ region.sourceLayers, i < comp.layers.length) ∧
    ∀ p ∈ comp'.compositionPlanes, ∀ i ∈ p.sourceLayers, i < comp.layers.length := by
  unfold planPlanes at h
  generalize hprov : provisionPlanes stages layers squash.useSquashFramebuffer crtc
    pool.primaryPlanes pool.overlayPlanes = result at h
  obtain ⟨ret', planes⟩ := result
  dsimp only at h
  by_cases hret : ret' ≠ 0
  · have hnone := provisionPlanes_failed stages layers squash.useSquashFramebuffer crtc
      pool.primaryPlanes pool.overlayPlanes (by rw [hprov]; exact hret)
    rw [hprov] at hnone
    rw [if_pos hret] at h
    cases h
    refine ⟨rfl, fun region hregion => ?_, fun p hp => ?_⟩
    · rw [show comp.preCompRegions = [] from hnew] at hregion
      cases hregion
    · rw [show planes = [] from hnone] at hp
      cases hp
  · rw [if_neg hret] at h
    rw [not_not.mp hret] at hprov
    obtain ⟨regions, hregions, hsome⟩ := Option.bind_eq_some_iff.mp h
    cases hsome
    have hplanes : ∀ p ∈ planes.map sortSourceLayers, ∀ i ∈ p.sourceLayers,
        i < comp.layers.length := by
      intro p hp i hi
      obtain ⟨q, hq, heq⟩ := List.mem_map.mp hp
      rw [← heq] at hi
      exact hkeys i (provisionPlanes_mem hstages hprov q hq i ((List.mergeSort_perm _ _).subset hi))
    refine ⟨rfl, fun region hregion i hi => ?_, hplanes⟩
    have hregion' : region ∈ regions := by
      rw [hnew] at hregion
      exact hregion
    obtain ⟨p, hp, hpi⟩ := separateLayers_mem hregions region hregion' i hi
    exact hplanes p hp i hpi

/-! ## The squash part of a plan -/

theorem squashPlanOf_mem {count : Nat} {regions : List SquashRegion} {stableRegions : List Bool}
    {renderSquash : Bool} :
    ∀ region ∈ (squashPlanOf count regions stableRegions renderSquash).squashRegions,
      ∀ i ∈ region.sourceLayers, i < count := by
  intro region hregion i hi
  unfold squashPlanOf at hregion
  dsimp only at hregion
  split at hregion
  · obtain ⟨old, _, heq⟩ := List.mem_map.mp hregion
    rw [← heq] at hi
    exact List.mem_range.mp (List.mem_reverse.mp (List.mem_filter.mp hi).1)
  · cases hregion

theorem squashPlanOf_unused {count : Nat} {regions : List SquashRegion}
    {stableRegions : List Bool} {renderSquash : Bool} (h : true ∉ stableRegions) :
    (squashPlanOf count regions stableRegions renderSquash).squashRegions = [] ∧
      (squashPlanOf count regions stableRegions renderSquash).excludeRects = [] := by
  have hnone : ((regions.zip stableRegions).filterMap fun e =>
      if e.2 then some e.1 else none) = [] := by
    rw [List.filterMap_eq_nil_iff]
    intro e he
    have hmem : e.2 ∈ stableRegions := (List.of_mem_zip he).2
    cases hstable : e.2 with
    | true =>
        rw [hstable] at hmem
        exact absurd hmem h
    | false => rfl
  unfold squashPlanOf
  dsimp only
  rw [hnone]
  exact ⟨ite_self _, rfl⟩

theorem planSquash_mem {squash squash' : SquashState} {frame : SubmittedFrame F}
    {plan : SquashPlan}
    (h : planSquash squash frame.geometryChanged frame.layers = some (plan, squash')) :
    ∀ region ∈ plan.squashRegions, ∀ i ∈ region.sourceLayers, i < frame.layers.length := by
  cases hgeometry : frame.geometryChanged with
  | true =>
      rw [hgeometry] at h
      rw [(planSquash_geometry h).1]
      exact fun region hregion => nomatch hregion
  | false =>
      rw [hgeometry] at h
      obtain ⟨mark, history, hstep⟩ := planSquash_markStep h
      rw [hstep.plan]
      exact squashPlanOf_mem

/-- `GenerateHistory` throws only at a layer that changed and has no bit. -/
theorem SquashState.generateHistory_ne_none_iff (squash : SquashState)
    (layers : List (DrmHwcLayer F)) : squash.generateHistory layers ≠ none ↔
      (layers.length = squash.lastHandles.length →
        ∀ i, squash.LayerChangedAt layers i → i < kMaxLayers) := by
  rw [SquashState.generateHistory]
  by_cases hlength : layers.length ≠ squash.lastHandles.length
  · rw [if_pos hlength]
    exact iff_of_true (Option.some_ne_none _) fun heq => absurd heq hlength
  rw [if_neg hlength]
  have heq := not_not.mp hlength
  cases squash.changedLayers_spec layers with
  | inl hsome =>
      obtain ⟨changed, hchanged, hbits⟩ := hsome
      rw [hchanged]
      refine iff_of_true (Option.some_ne_none _) fun _ i hi => ?_
      exact BitVec.lt_of_getLsbD ((hbits i).mpr hi)
  | inr hnone =>
      obtain ⟨hthrows, i, hi, hge⟩ := hnone
      rw [hthrows]
      refine iff_of_false (fun hne => hne rfl) fun hbounded => ?_
      exact absurd (hbounded heq i hi) (Nat.not_lt.mpr hge)

/-- With another number of layers than expected, what was stable is marked. -/
theorem MarkStep.mark_eq {squash squash' : SquashState} {layers : List (DrmHwcLayer F)}
    {plan : SquashPlan} {mark : SquashRegion → Bool} {history : SquashRegion → BitVec 6}
    (h : MarkStep squash layers plan squash' mark history)
    (hlength : layers.length ≠ squash.lastHandles.length) :
    squash.regions.map mark = squash.regions.map squash.isStable := by
  have hnext := h.next
  rw [SquashState.nextMarks, SquashState.generateHistory, if_pos hlength, Option.map_some,
    squash.stableRegions_map fun _ => false] at hnext
  exact (Option.some.inj hnext).symm

theorem FrameSafe.unused [Sub F] [Div F] [IntCast F] [LT F] [DecidableLT F] {platform : Platform}
    {squash : SquashState} {frame : SubmittedFrame F} (hsafe : FrameSafe platform squash frame)
    (hrefs : RefsBounded squash) {plan : SquashPlan} {squash' : SquashState}
    (h : planSquash squash frame.geometryChanged frame.layers = some (plan, squash'))
    (hlong : kMaxLayers < frame.layers.length) :
    plan.useSquashFramebuffer = false ∧ plan.squashRegions = [] ∧ plan.excludeRects = [] := by
  cases hgeometry : frame.geometryChanged with
  | true =>
      rw [hgeometry, planSquash, if_pos rfl] at h
      obtain ⟨squash₁, _, heq⟩ := Option.bind_eq_some_iff.mp h
      cases heq
      exact ⟨rfl, rfl, rfl⟩
  | false =>
      rw [hgeometry] at h
      obtain ⟨mark, history, hstep⟩ := planSquash_markStep h
      have hnone : true ∉ squash.regions.map mark := by
        intro hmem
        obtain ⟨region, hregion, hmark⟩ := List.mem_map.mp hmem
        by_cases hlength : frame.layers.length = squash.lastHandles.length
        · rw [hlength] at hlong
          rw [hrefs.long hlong] at hregion
          cases hregion
        · have hunstable := hsafe.stable hgeometry hlength hlong region hregion
          rw [hstep.stable region hmark] at hunstable
          cases hunstable
      refine ⟨Bool.eq_false_iff.mpr fun huse => hnone (hstep.useSquash_iff.mp huse), ?_⟩
      rw [hstep.plan]
      exact squashPlanOf_unused hnone

/-- Only `GenerateHistory` can keep a frame from a squash plan. -/
theorem planSquash_ne_none {squash : SquashState} {frame : SubmittedFrame F}
    (h : frame.geometryChanged = false → squash.generateHistory frame.layers ≠ none) :
    ∃ plan squash',
      planSquash squash frame.geometryChanged frame.layers = some (plan, squash') := by
  cases hgeometry : frame.geometryChanged with
  | false =>
      obtain ⟨changed, hchanged⟩ := Option.ne_none_iff_exists'.mp (h hgeometry)
      rw [planSquash, if_neg Bool.false_ne_true, hchanged]
      exact ⟨_, _, rfl⟩
  | true =>
      have hinit : ∃ squash', squash.init frame.layers = some squash' := by
        by_cases h64 : frame.layers.length ≤ 64
        · obtain ⟨squash₁, _, hinit, _⟩ := squash.init_recorded h64
          exact ⟨squash₁, hinit⟩
        · have hnone : separateRects64 (frame.layers.map (·.displayFrame)) [] = some [] :=
            if_pos (by rw [List.length_map]; exact Nat.lt_of_not_le h64)
          rw [SquashState.init, hnone]
          exact ⟨_, rfl⟩
      obtain ⟨squash', hinit⟩ := hinit
      rw [planSquash, if_pos rfl, hinit]
      exact ⟨_, _, rfl⟩

theorem keys_toComposite_lt {layers : List (DrmHwcLayer F)} {areas : Option (List Int)} :
    ∀ i ∈ (toComposite layers areas).keys, i < layers.length := by
  intro i hi
  obtain ⟨e, he, heq⟩ := List.mem_map.mp hi
  rw [← heq]
  exact (List.getElem?_eq_some_iff.mp (getElem?_of_mem_toComposite he)).1

section Frames

variable [Sub F] [Div F] [IntCast F] [LT F] [DecidableLT F] {platform : Platform}
  {squash : SquashState} {frame : SubmittedFrame F}

/-- `Plan` of a frame is a squash plan and a plan of the planes for it. -/
theorem plan_eq {crtc : DrmCrtc} (hcrtc : frame.crtc = some crtc) :
    frame.composition.plan platform.createInstance (some squash) frame.pool frame.fenceResult =
      (planSquash squash frame.geometryChanged frame.layers).bind fun planned =>
        (planPlanes platform.createInstance frame.composition crtc planned.1
          (toComposite frame.layers (some planned.1.layerSquashArea)) frame.pool
          frame.fenceResult).map fun (ret, comp, pool) => (ret, comp, some planned.2, pool) := by
  unfold DrmDisplayComposition.plan planSquashState
  rw [if_neg fun hne => hne rfl]
  dsimp only [SubmittedFrame.composition]
  rw [hcrtc]
  cases planSquash squash frame.geometryChanged frame.layers with
  | none => rfl
  | some planned =>
      rw [Option.map_some, Option.bind_some]
      dsimp only [Option.bind_eq_bind, Option.bind_some]
      rw [Option.map_eq_bind]
      rfl

/-- The planes have a plan where the layers can be separated. -/
theorem planPlanes_ne_none_iff {crtc : DrmCrtc} {plan : SquashPlan}
    (hsize : 64 < frame.layers.length →
      plan.excludeRects.length + frame.layers.length < 2 ^ 64) :
    planPlanes platform.createInstance frame.composition crtc plan
      (toComposite frame.layers (some plan.layerSquashArea)) frame.pool frame.fenceResult ≠ none ↔
    ∀ dedicatedLayers compLayers,
      frame.plannedLayers platform plan crtc = some (dedicatedLayers, compLayers) →
        Separable frame.layers plan.excludeRects dedicatedLayers compLayers := by
  unfold planPlanes SubmittedFrame.plannedLayers
  have hlists := @provisionPlanes_lists F _ (draftStage_createInstance platform)
    (toComposite frame.layers (some plan.layerSquashArea)) plan.useSquashFramebuffer crtc
    frame.pool.primaryPlanes frame.pool.overlayPlanes
  have hprecomp := @provisionPlanes_precompOf F _ (draftStage_createInstance platform)
    frame.layers (toComposite frame.layers (some plan.layerSquashArea)) plan.useSquashFramebuffer
    crtc frame.pool.primaryPlanes frame.pool.overlayPlanes
  have hfailed := provisionPlanes_failed platform.createInstance
    (toComposite frame.layers (some plan.layerSquashArea)) plan.useSquashFramebuffer crtc
    frame.pool.primaryPlanes frame.pool.overlayPlanes
  generalize provisionPlanes platform.createInstance
    (toComposite frame.layers (some plan.layerSquashArea)) plan.useSquashFramebuffer crtc
    frame.pool.primaryPlanes frame.pool.overlayPlanes = result at hlists hprecomp hfailed
  obtain ⟨ret, planes⟩ := result
  dsimp only at hlists hprecomp hfailed ⊢
  by_cases hret : ret ≠ 0
  · rw [if_pos hret, hfailed hret]
    exact iff_of_true (Option.some_ne_none _) fun _ _ h => nomatch h
  rw [if_neg hret]
  have hbind : ∀ {α β : Type} (x : Option α) (f : α → β),
      (x.bind fun a => some (f a)) ≠ none ↔ x ≠ none := by
    intro α β x f
    cases x with
    | none => exact iff_of_false (fun h => h rfl) fun h => h rfl
    | some a => exact iff_of_true (Option.some_ne_none _) (Option.some_ne_none _)
  refine (hbind _ _).trans ?_
  rw [show frame.composition.layers = frame.layers from rfl]
  cases hfound : findPrecomp (planes.map sortSourceLayers) [] with
  | none =>
      refine iff_of_true ?_ fun _ _ h => nomatch h
      rw [separateLayers, hfound]
      exact Option.some_ne_none _
  | some lists =>
      obtain ⟨dedicatedLayers, compLayers⟩ := lists
      have hlength := (hlists hfound).1.length_le
      have hkeys : (toComposite frame.layers (some plan.layerSquashArea)).keys.length ≤
          frame.layers.length :=
        length_le_of_nodup_lt (keys_nodup _) keys_toComposite_lt
      rw [List.length_append] at hlength
      rw [separateLayers_ne_none_iff (hprecomp keys_toComposite_lt hfound) fun hmany => by
        have hfits := hsize (by omega)
        omega]
      refine ⟨fun hfit _ _ heq => ?_, fun hfit => hfit _ _ rfl⟩
      obtain ⟨rfl, rfl⟩ := Prod.mk.inj (Option.some.inj heq)
      exact hfit

/-- The references of a planned frame are in order. -/
theorem plan_mem {crtc : DrmCrtc} (hcrtc : frame.crtc = some crtc) {ret : Int}
    {comp : DrmDisplayComposition F} {squash' : Option SquashState} {pool' : PlanePool}
    (h : frame.composition.plan platform.createInstance (some squash) frame.pool
      frame.fenceResult = some (ret, comp, squash', pool')) :
    (∀ region ∈ comp.squashRegions ++ comp.preCompRegions, ∀ i ∈ region.sourceLayers,
      i < frame.layers.length) ∧
    ∀ p ∈ comp.compositionPlanes, ∀ i ∈ p.sourceLayers, i < frame.layers.length := by
  rw [plan_eq hcrtc] at h
  obtain ⟨⟨plan, squash''⟩, hsquash, h⟩ := Option.bind_eq_some_iff.mp h
  obtain ⟨⟨ret', comp', pool''⟩, hplanes, h⟩ := Option.map_eq_some_iff.mp h
  cases h
  obtain ⟨hregions, hprecomp, hplaned⟩ := planPlanes_mem (draftStage_createInstance platform)
    keys_toComposite_lt rfl hplanes
  refine ⟨fun region hregion => ?_, hplaned⟩
  rw [hregions] at hregion
  cases List.mem_append.mp hregion with
  | inl hsquashed => exact planSquash_mem hsquash region hsquashed
  | inr hpre => exact hprecomp region hpre

/-- In every run of safe frames, a frame of any number of layers (which is a `size_t`) does
nothing it must not do if and only if it is safe itself. -/
theorem squashRuns_handlesLayers_iff (platform : Platform)
    (h : (squashRuns F).Reachable (FrameSafe platform) squash)
    (hsize : frame.layers.length < 2 ^ 64) :
    HandlesLayers platform squash frame ↔ FrameSafe platform squash frame := by
  have hrefs := RefsBounded.reachable h
  constructor
  · intro hhandles
    refine ⟨fun hgeometry => ?_, fun hgeometry hlength hlong region hregion => ?_,
      fun plan squash' crtc dedicatedLayers compLayers hplan hcrtc hlists => ?_⟩
    · exact (squash.generateHistory_ne_none_iff frame.layers).mp (hhandles.noThrow hgeometry)
    · -- another list: what is stable is squashed, although the frame has too many layers
      obtain ⟨plan, squash', hplan⟩ := planSquash_ne_none hhandles.noThrow
      have hunused := (hhandles.unused plan squash' hplan hlong).1
      rw [hgeometry] at hplan
      obtain ⟨mark, history, hstep⟩ := planSquash_markStep hplan
      by_contra hstable
      have hmem : true ∈ squash.regions.map mark := by
        rw [hstep.mark_eq hlength]
        exact List.mem_map.mpr ⟨region, hregion, Bool.eq_true_of_not_eq_false hstable⟩
      rw [hstep.useSquash_iff.mpr hmem] at hunused
      cases hunused
    · obtain ⟨ret, comp, squash'', pool', hplanned, _⟩ := hhandles.planned crtc hcrtc
      rw [plan_eq hcrtc, hplan, Option.bind_some] at hplanned
      obtain ⟨planes, hplanes, _⟩ := Option.map_eq_some_iff.mp hplanned
      refine (planPlanes_ne_none_iff fun hlong => ?_).mp
        (by rw [hplanes]; exact Option.some_ne_none _) dedicatedLayers compLayers hlists
      rw [(hhandles.unused plan squash' hplan hlong).2.2, List.length_nil, Nat.zero_add]
      exact hsize
  · intro hsafe
    have hthrows : frame.geometryChanged = false →
        squash.generateHistory frame.layers ≠ none := fun hgeometry =>
      (squash.generateHistory_ne_none_iff frame.layers).mpr (hsafe.changes hgeometry)
    refine ⟨hthrows, fun plan squash' hplan => (hrefs.next hplan).refs,
      fun plan squash' hplan hlong => hsafe.unused hrefs hplan hlong, fun crtc hcrtc => ?_⟩
    obtain ⟨plan, squash', hplan⟩ := planSquash_ne_none hthrows
    have hroom : 64 < frame.layers.length →
        plan.excludeRects.length + frame.layers.length < 2 ^ 64 := by
      intro hlong
      rw [(hsafe.unused hrefs hplan hlong).2.2, List.length_nil, Nat.zero_add]
      exact hsize
    obtain ⟨⟨ret, comp, pool'⟩, hplanes⟩ := Option.ne_none_iff_exists'.mp
      ((planPlanes_ne_none_iff hroom).mpr fun ded comp =>
        hsafe.separable plan squash' crtc ded comp hplan hcrtc)
    have hplanned : frame.composition.plan platform.createInstance (some squash) frame.pool
        frame.fenceResult = some (ret, comp, some squash', pool') := by
      rw [plan_eq hcrtc, hplan, Option.bind_some, hplanes]
      rfl
    exact ⟨ret, comp, some squash', pool', hplanned, plan_mem hcrtc hplanned⟩

end Frames

/-! ## One layer too many -/

/-- Layers that keep their buffers, but for the last one. -/
def manyLayers (count handle : Nat) : List (DrmHwcLayer Rat) :=
  List.replicate count (plainLayer 0#32 0#32) ++ [{ plainLayer 0#32 0#32 with sfHandle := handle }]

/-- They are planned for one plane, to which all of them are precomposed. -/
def manyLayersFrame (geometryChanged : Bool) (count handle : Nat) : SubmittedFrame Rat where
  crtc := some smallCrtc
  layers := manyLayers count handle
  geometryChanged
  pool := ⟨[primaryPlane], []⟩
  unusedPlanes := []
  fenceResult := 0
  othersPass := true

/-- The state after `Init` with 65 layers. -/
def manyLayersState : SquashState := ⟨1, 0#32, (manyLayers 64 1).map (·.sfHandle), []⟩

theorem manyLayersState_next :
    (squashRuns Rat).next .initial (manyLayersFrame true 64 1) = some manyLayersState := by
  decide +kernel

/-- Nothing is squashed. -/
def manyLayersPlan : SquashPlan := ⟨false, [], [], List.replicate 65 0⟩

theorem planSquash_manyLayers :
    (planSquash .initial true (manyLayers 64 1)).map (·.1) = some manyLayersPlan ∧
      (planSquash manyLayersState false (manyLayers 64 1)).map (·.1) = some manyLayersPlan := by
  decide +kernel

/-- All layers are precomposed. -/
theorem provisionPlanes_manyLayers :
    provisionPlanes Platform.nvidia.createInstance
      (toComposite (manyLayers 64 1) (some manyLayersPlan.layerSquashArea))
      manyLayersPlan.useSquashFramebuffer smallCrtc [primaryPlane] [] =
      (0, [⟨.precomp, primaryPlane, some smallCrtc, List.range 65⟩]) := by
  decide +kernel

/-- The precomposed layers are too many to be separated. -/
theorem separable_manyLayers {squash squash' : SquashState} {plan : SquashPlan} {crtc : DrmCrtc}
    {dedicatedLayers compLayers : List Nat} (geometryChanged : Bool)
    (hsquash : (planSquash squash geometryChanged (manyLayers 64 1)).map (·.1) =
      some manyLayersPlan)
    (hplan : planSquash squash geometryChanged (manyLayers 64 1) = some (plan, squash'))
    (hcrtc : some smallCrtc = some crtc)
    (hlists : (manyLayersFrame geometryChanged 64 1).plannedLayers .nvidia plan crtc =
      some (dedicatedLayers, compLayers)) :
    Separable (manyLayers 64 1) plan.excludeRects dedicatedLayers compLayers := by
  rw [hplan, Option.map_some] at hsquash
  obtain rfl := Option.some.inj hsquash
  cases hcrtc
  have hfound : findPrecomp ((provisionPlanes Platform.nvidia.createInstance
      (toComposite (manyLayers 64 1) (some manyLayersPlan.layerSquashArea))
      manyLayersPlan.useSquashFramebuffer smallCrtc [primaryPlane] []).2.map sortSourceLayers) [] =
    some (dedicatedLayers, compLayers) := hlists
  rw [provisionPlanes_manyLayers] at hfound
  cases hfound
  refine Or.inl ?_
  rw [sortSourceLayers, List.length_mergeSort, List.length_range]
  decide

/-- As long as all 65 layers keep their buffers, nothing happens. -/
theorem squashRuns_handlesLayers_still :
    HandlesLayers .nvidia manyLayersState (manyLayersFrame false 64 1) := by
  have hsafe : FrameSafe .nvidia .initial (manyLayersFrame true 64 1) :=
    ⟨fun h => absurd h (by decide), fun h => absurd h (by decide),
      fun _ _ _ _ _ => separable_manyLayers true planSquash_manyLayers.1⟩
  refine (squashRuns_handlesLayers_iff .nvidia (.step (.start rfl) hsafe manyLayersState_next)
    (by decide)).mpr ⟨fun _ _ i hi => ?_, fun _ hlength => absurd rfl hlength,
      fun _ _ _ _ _ => separable_manyLayers false planSquash_manyLayers.2⟩
  obtain ⟨layer, handle, hlayer, hhandle, hchanged⟩ := hi
  have hlast : (manyLayers 64 1).map (·.sfHandle) = manyLayersState.lastHandles := rfl
  rw [← hlast, List.getElem?_map, show (manyLayers 64 1)[i]? = some layer from hlayer] at hhandle
  have hunprotected : ∀ l ∈ manyLayers 64 1, l.protectedUsage = false := by decide +kernel
  cases hhandle
  rw [hunprotected layer (List.mem_of_getElem? hlayer)] at hchanged
  simp at hchanged

/-- When the last of 65 layers gets another buffer, `GenerateHistory` throws. -/
theorem squashRuns_throws :
    (squashRuns Rat).Reachable (fun _ _ => True) manyLayersState ∧
      ¬ HandlesLayers .nvidia manyLayersState (manyLayersFrame false 64 2) := by
  refine ⟨.step (.start rfl) trivial manyLayersState_next, fun h => ?_⟩
  have hthrows : manyLayersState.generateHistory (manyLayersFrame false 64 2).layers = none := by
    decide +kernel
  exact h.noThrow rfl hthrows

end DragonDevice.Hwc
