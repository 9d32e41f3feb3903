/-
  Hwc/SquashFresh.lean --- when the squash framebuffer that is scanned out is fresh.

  The marks run ahead of the framebuffer: between the two lie the frames of the queue.
  The invariant is that the queue, once it is rendered, leaves the marked regions in the
  framebuffer, and that every frame in it that reuses the framebuffer will find what was
  marked for it.  A frame that should render and is dropped, or fails, breaks it for good.
-/
import DragonDevice.Hwc.SquashMarks
import DragonDevice.Hwc.PlaneExclusive
import DragonDevice.Lib.DeferredWrites

set_option autoImplicit false

namespace DragonDevice.Hwc

open DragonDevice.Lib

variable {F : Type}

/-! ## What planning a frame can do -/

/-- All `Plan` can do to the squash framebuffer. -/
inductive SquashPlanCases (frame : SubmittedFrame F) (squash : SquashState) (plan : SquashPlan)
    (squash' : SquashState) : Prop where
  /-- nothing is squashed -/
  | plain (hregions : plan.squashRegions = []) (huse : plan.useSquashFramebuffer = false)
      (hmarked : squash'.marked = [])
  /-- other regions than before are squashed, and have to be rendered -/
  | renders (hrenders : frame.Renders squash) (hregions : plan.squashRegions ≠ [])
      (hcontent : renderedContent frame.layers plan.squashRegions = squash'.marked)
  /-- the same regions are squashed -/
  | reuses (hregions : plan.squashRegions = []) (hmarked : squash'.marked = squash.marked)
      (hne : squash.marked ≠ []) (hhandles : squash'.lastHandles = frame.layers.map (·.sfHandle))

/-- After `Init` no region is marked. -/
theorem planSquash_geometry {squash squash' : SquashState} {layers : List (DrmHwcLayer F)}
    {plan : SquashPlan} (h : planSquash squash true layers = some (plan, squash')) :
    plan.squashRegions = [] ∧ plan.useSquashFramebuffer = false ∧ squash'.marked = [] := by
  unfold planSquash at h
  rw [if_pos rfl] at h
  obtain ⟨squash₁, hinit, h⟩ := Option.bind_eq_some_iff.mp h
  cases h
  refine ⟨rfl, rfl, ?_⟩
  unfold SquashState.init at hinit
  obtain ⟨regions, _, hinit⟩ := Option.bind_eq_some_iff.mp hinit
  cases hinit
  unfold SquashState.marked
  rw [List.map_eq_nil_iff, List.filter_eq_nil_iff]
  intro region hregion
  obtain ⟨o, _, heq⟩ := List.mem_map.mp hregion
  rw [← heq]
  exact Bool.false_ne_true

/-- A frame that squashes something has as many layers as expected. -/
theorem MarkStep.length_eq {frame : SubmittedFrame F} {squash squash' : SquashState}
    {plan : SquashPlan} {mark : SquashRegion → Bool} {history : SquashRegion → BitVec 6}
    (h : MarkStep squash frame.layers plan squash' mark history)
    (hgeometry : frame.geometryChanged = false) (hexpected : frame.Expected squash)
    (hmem : true ∈ squash.regions.map mark) :
    frame.layers.length = squash.lastHandles.length := by
  by_contra hlength
  obtain ⟨region, hregion, hmark⟩ := List.mem_map.mp hmem
  have hunstable := hexpected hgeometry hlength region hregion
  rw [h.stable region hmark] at hunstable
  cases hunstable

theorem planSquash_cases {frame : SubmittedFrame F} {squash squash' : SquashState}
    {plan : SquashPlan} (hexpected : frame.Expected squash)
    (h : planSquash squash frame.geometryChanged frame.layers = some (plan, squash')) :
    SquashPlanCases frame squash plan squash' := by
  cases hgeometry : frame.geometryChanged with
  | true =>
      rw [hgeometry] at h
      obtain ⟨hregions, huse, hmarked⟩ := planSquash_geometry h
      exact .plain hregions huse hmarked
  | false =>
      rw [hgeometry] at h
      obtain ⟨mark, history, hstep⟩ := planSquash_markStep h
      have hnil := hstep.marked_eq_nil_iff
      by_cases hmem : true ∈ squash.regions.map mark
      · have hlength := hstep.length_eq hgeometry hexpected hmem
        have hne : squash'.marked ≠ [] := fun hnone => hnil.mp hnone hmem
        by_cases hrender : squash.regions.map mark ≠ squash.marks
        · have hcontent := hstep.renderedContent_eq hlength hrender
          refine .renders ⟨hgeometry, _, hstep.next, hmem, hrender⟩ (fun hempty => ?_) hcontent
          rw [hempty] at hcontent
          exact hne hcontent.symm
        · have hmarked := hstep.marked_eq hlength (not_not.mp hrender)
          refine .reuses ?_ hmarked (hmarked ▸ hne) (hstep.handles hlength)
          rw [hstep.squashRegions_eq, if_neg hrender]
      · have hmarked := hnil.mpr hmem
        refine .plain ?_ ?_ hmarked
        · rw [hstep.squashRegions_eq]
          unfold SquashState.marked at hmarked
          rw [List.map_eq_nil_iff.mp hmarked]
          split <;> rfl
        · exact Bool.eq_false_iff.mpr fun huse => hmem (hstep.useSquash_iff.mp huse)

/-- With the same marks the same is marked. -/
theorem planSquash_marked_eq {frame : SubmittedFrame F} {squash squash' : SquashState}
    {plan : SquashPlan} (hexpected : frame.Expected squash)
    (hgeometry : frame.geometryChanged = false)
    (hsame : squash.nextMarks frame.layers = some squash.marks)
    (h : planSquash squash frame.geometryChanged frame.layers = some (plan, squash')) :
    squash'.marked = squash.marked := by
  rw [hgeometry] at h
  obtain ⟨mark, history, hstep⟩ := planSquash_markStep h
  have hmarks : squash.regions.map mark = squash.marks :=
    Option.some.inj (hstep.next.symm.trans hsame)
  by_cases hmem : true ∈ squash.regions.map mark
  · exact hstep.marked_eq (hstep.length_eq hgeometry hexpected hmem) hmarks
  · rw [hstep.marked_eq_nil_iff.mpr hmem]
    rw [hmarks] at hmem
    unfold SquashState.marked
    symm
    rw [List.map_eq_nil_iff, List.filter_eq_nil_iff]
    exact fun region hregion hsquashed => hmem (List.mem_map.mpr ⟨region, hregion, hsquashed⟩)

/-! ## The planned composition -/

theorem usesSquash_iff {planes : List DrmCompositionPlane} :
    usesSquash planes = true ↔ ∃ p ∈ planes, p.type = .squash := by
  unfold usesSquash
  rw [List.any_eq_true]
  exact exists_congr fun p => and_congr_right fun _ => beq_iff_eq

/-- The planner adds a squash plane only where one is asked for. -/
theorem usesSquash_provisionPlanes {stages : List (PlanStage F)}
    (hstages : ∀ stage ∈ stages, DraftStage stage) {layers : LayerMap F} {useSquashFb : Bool}
    {crtc : DrmCrtc} {primaryPlanes overlayPlanes : List DrmPlane}
    {planes : List DrmCompositionPlane}
    (h : provisionPlanes stages layers useSquashFb crtc primaryPlanes overlayPlanes = (0, planes))
    (huses : usesSquash planes = true) : useSquashFb = true := by
  obtain ⟨d, hplanes, _⟩ := provisionPlanes_draft hstages h
  obtain ⟨p, hp, hsquash⟩ := usesSquash_iff.mp huses
  rw [hplanes, List.mem_append] at hp
  cases hp with
  | inl hdraft =>
      cases List.mem_append.mp hdraft with
      | inl hlayer =>
          obtain ⟨q, _, heq⟩ := List.mem_map.mp hlayer
          rw [← heq] at hsquash
          cases hsquash
      | inr hprecomp =>
          obtain ⟨q, _, heq⟩ := List.mem_map.mp hprecomp
          rw [← heq] at hsquash
          cases hsquash
  | inr hplane =>
      obtain ⟨plane, hplane, _⟩ := List.mem_map.mp hplane
      cases useSquashFb with
      | true => rfl
      | false => cases hplane

/-- What the rest of the system needs to know of a planned frame. -/
structure PlannedFrame (frame : SubmittedFrame F) (plan : SquashPlan)
    (comp : DrmDisplayComposition F) : Prop where
  type : comp.type = .frame
  layers : comp.layers = frame.layers
  squashRegions : comp.squashRegions = plan.squashRegions
  uses : usesSquash comp.compositionPlanes = true → plan.useSquashFramebuffer = true

theorem planPlanes_frame {stages : List (PlanStage F)}
    (hstages : ∀ stage ∈ stages, DraftStage stage) {frame : SubmittedFrame F} {crtc : DrmCrtc}
    {plan : SquashPlan} {layers : LayerMap F} {pool pool' : PlanePool} {fenceResult ret : Int}
    {comp : DrmDisplayComposition F}
    (h : planPlanes stages frame.composition crtc plan layers pool fenceResult =
      some (ret, comp, pool')) :
    (ret = 0 → PlannedFrame frame plan comp) ∧
    (getUsablePlanes crtc pool.primaryPlanes pool.overlayPlanes ≠ [] → fenceResult = 0 →
      ret = 0) := by
  unfold planPlanes at h
  have hret : getUsablePlanes crtc pool.primaryPlanes pool.overlayPlanes ≠ [] →
      (provisionPlanes stages layers plan.useSquashFramebuffer crtc pool.primaryPlanes
        pool.overlayPlanes).1 = 0 := provisionPlanes_ret hstages layers _
  generalize hprov : provisionPlanes stages layers plan.useSquashFramebuffer crtc
    pool.primaryPlanes pool.overlayPlanes = result at h hret
  obtain ⟨ret', planes⟩ := result
  dsimp only at h hret
  by_cases hfails : ret' ≠ 0
  · rw [if_pos hfails] at h
    cases h
    exact ⟨fun hzero => absurd hzero hfails, fun husable _ => hret husable⟩
  rw [if_neg hfails] at h
  rw [not_not.mp hfails] at hprov
  obtain ⟨regions, _, h⟩ := Option.bind_eq_some_iff.mp h
  cases h
  refine ⟨fun _ => ⟨rfl, rfl, rfl, fun huses => ?_⟩, fun _ hfence => hfence⟩
  refine usesSquash_provisionPlanes hstages hprov (usesSquash_iff.mpr ?_)
  obtain ⟨p, hp, hsquash⟩ := usesSquash_iff.mp huses
  obtain ⟨q, hq, heq⟩ := List.mem_map.mp hp
  refine ⟨q, hq, ?_⟩
  rw [← heq] at hsquash
  exact hsquash

section System

variable [Sub F] [Div F] [IntCast F] [LT F] [DecidableLT F] {platform : Platform}
  {s s' : SquashSystemState F} {frame : SubmittedFrame F}

/-- A submitted frame is planned, and goes to the end of the queue or is dropped. -/
theorem submitFrame_spec (h : submitFrame platform s frame = some s') :
    ∃ plan squash', planSquash s.squash frame.geometryChanged frame.layers = some (plan, squash') ∧
      ((s' = { s with squash := squash' } ∧ ¬ frame.Queued s.active) ∨
        ∃ comp, PlannedFrame frame plan comp ∧ s' = { s with squash := squash' }.push comp) := by
  unfold submitFrame at h
  cases hplan : frame.composition.plan platform.createInstance (some s.squash) frame.pool
      frame.fenceResult with
  | none =>
      rw [hplan] at h
      cases h
  | some result =>
      obtain ⟨ret, comp, state, pool⟩ := result
      rw [hplan] at h
      dsimp only at h
      unfold DrmDisplayComposition.plan at hplan
      rw [if_neg (fun hne => hne rfl)] at hplan
      obtain ⟨⟨plan, areas, state'⟩, hstate, hplan⟩ := Option.bind_eq_some_iff.mp hplan
      obtain ⟨crtc, hcrtc, hplan⟩ := Option.bind_eq_some_iff.mp hplan
      obtain ⟨⟨ret', comp', pool'⟩, hplanes, hplan⟩ := Option.bind_eq_some_iff.mp hplan
      cases hplan
      obtain ⟨⟨plan', squash'⟩, hsquash, heq⟩ := Option.map_eq_some_iff.mp hstate
      cases heq
      obtain ⟨hframe, hret⟩ := planPlanes_frame (draftStage_createInstance platform) hplanes
      refine ⟨plan, squash', hsquash, ?_⟩
      by_cases hdropped : ret ≠ 0 ∨ frame.othersPass = false ∨ s.active = false
      · rw [if_pos hdropped] at h
        cases h
        refine Or.inl ⟨rfl, fun hqueued => ?_⟩
        obtain ⟨husable, hfence, hothers, hactive⟩ := hqueued
        rcases hdropped with hne | hfalse | hfalse
        · exact hne (hret (husable crtc hcrtc) hfence)
        · rw [hothers] at hfalse
          cases hfalse
        · rw [hactive] at hfalse
          cases hfalse
      · rw [if_neg hdropped] at h
        cases h
        obtain ⟨hzero, _⟩ := not_or.mp hdropped
        obtain ⟨htype, hlayers, hregions, huses⟩ := hframe (not_not.mp hzero)
        refine Or.inr ⟨_, ?_, rfl⟩
        rw [DrmComposition.foldl_addPlaneDisable]
        refine ⟨htype, hlayers, hregions, fun h => huses (usesSquash_iff.mpr ?_)⟩
        obtain ⟨p, hp, hsquash⟩ := usesSquash_iff.mp h
        cases List.mem_append.mp hp with
        | inl hp => exact ⟨p, hp, hsquash⟩
        | inr hdisabled =>
            obtain ⟨plane, _, heq⟩ := List.mem_map.mp hdisabled
            rw [← heq] at hsquash
            cases hsquash

end System

/-! ## The invariant -/

/-- What an entry of the queue renders. -/
def QueuedComposition.renders (e : QueuedComposition F) : Option SquashContent :=
  if e.comp.type = .frame ∧ e.comp.squashRegions ≠ [] then
    some (renderedContent e.comp.layers e.comp.squashRegions)
  else none

/-- What an entry of the queue expects to find. -/
def QueuedComposition.expects (e : QueuedComposition F) : Option SquashContent :=
  if ReusesSquash e.comp then some e.planned.marked else none

/-- What will be in the framebuffer once the queue is rendered. -/
def SquashSystemState.upcoming (s : SquashSystemState F) : Option SquashContent :=
  valueAfter QueuedComposition.renders s.compositeQueue s.content

/-- The framebuffer follows the marks, as far as the queue is rendered. -/
structure SquashInv (s : SquashSystemState F) : Prop where
  reads : ReadsRight QueuedComposition.renders QueuedComposition.expects s.compositeQueue s.content
  latest : s.squash.marked ≠ [] → s.upcoming = some s.squash.marked
  handles : ∀ e ∈ s.compositeQueue, ReusesSquash e.comp →
    e.planned.lastHandles = e.comp.layers.map (·.sfHandle)

section Invariant

variable {s s' : SquashSystemState F} {frame : SubmittedFrame F}

theorem SquashInv.fresh (h : SquashInv s) : FreshAsPlanned s := by
  intro e queue hqueue hreuses
  have hreads := h.reads
  rw [hqueue] at hreads
  refine ⟨hreads.1 _ (if_pos hreuses), h.handles e ?_ hreuses⟩
  rw [hqueue]
  exact List.mem_cons_self

/-- Planning a composition and putting it behind the queue. -/
theorem SquashInv.push (h : SquashInv s) {squash' : SquashState} {comp : DrmDisplayComposition F}
    (hreuses : ReusesSquash comp → s.upcoming = some squash'.marked ∧
      squash'.lastHandles = comp.layers.map (·.sfHandle))
    (hlatest : squash'.marked ≠ [] →
      (QueuedComposition.mk comp squash').renders.or s.upcoming = some squash'.marked) :
    SquashInv ({ s with squash := squash' }.push comp) := by
  refine ⟨h.reads.append_singleton fun content hcontent => ?_,
    fun hne => valueAfter_append_singleton.trans (hlatest hne), fun e he hreuse => ?_⟩
  · unfold QueuedComposition.expects at hcontent
    split at hcontent
    · rename_i hreuse
      cases hcontent
      exact (hreuses hreuse).1
    · cases hcontent
  · cases List.mem_append.mp he with
    | inl he => exact h.handles e he hreuse
    | inr he =>
        rw [List.mem_singleton.mp he] at hreuse ⊢
        exact (hreuses hreuse).2

/-- A composition that is no frame. -/
theorem SquashInv.pushControl (h : SquashInv s) {type : DrmCompositionType}
    (htype : type ≠ .frame) :
    SquashInv (s.push (controlComposition type)) := by
  refine h.push (fun hreuses => absurd hreuses.1 htype) fun hne => ?_
  have hidle : (QueuedComposition.mk (controlComposition (F := F) type) s.squash).renders = none :=
    if_neg fun hand => htype hand.1
  rw [hidle, Option.none_or]
  exact h.latest hne

/-- A submitted frame: only one that renders must not be dropped. -/
theorem SquashInv.submit [Sub F] [Div F] [IntCast F] [LT F] [DecidableLT F] {platform : Platform}
    (h : SquashInv s) (hexpected : frame.Expected s.squash)
    (hqueued : frame.Renders s.squash → frame.Queued s.active)
    (hnext : submitFrame platform s frame = some s') : SquashInv s' := by
  obtain ⟨plan, squash', hplan, hend⟩ := submitFrame_spec hnext
  cases planSquash_cases hexpected hplan with
  | plain hregions huse hmarked =>
      cases hend with
      | inl hdropped =>
          rw [hdropped.1]
          exact ⟨h.reads, fun hne => absurd hmarked hne, h.handles⟩
      | inr hpushed =>
          obtain ⟨comp, hcomp, heq⟩ := hpushed
          rw [heq]
          refine h.push (fun hreuses => ?_) fun hne => absurd hmarked hne
          have huses := hcomp.uses hreuses.2.1
          rw [huse] at huses
          cases huses
  | renders hrenders hregions hcontent =>
      cases hend with
      | inl hdropped => exact absurd (hqueued hrenders) hdropped.2
      | inr hpushed =>
          obtain ⟨comp, hcomp, heq⟩ := hpushed
          have hne : comp.squashRegions ≠ [] := by
            rw [hcomp.squashRegions]
            exact hregions
          rw [heq]
          refine h.push (fun hreuses => absurd hreuses.2.2 hne) fun _ => ?_
          unfold QueuedComposition.renders
          rw [if_pos ⟨hcomp.type, hne⟩, hcomp.layers, hcomp.squashRegions, hcontent, Option.some_or]
  | reuses hregions hmarked hne hhandles =>
      have hlatest : s.upcoming = some squash'.marked := by
        rw [hmarked]
        exact h.latest hne
      cases hend with
      | inl hdropped =>
          rw [hdropped.1]
          exact ⟨h.reads, fun _ => hlatest, h.handles⟩
      | inr hpushed =>
          obtain ⟨comp, hcomp, heq⟩ := hpushed
          rw [heq]
          refine h.push (fun _ => ⟨hlatest, by rw [hhandles, hcomp.layers]⟩) fun _ => ?_
          have hidle : (QueuedComposition.mk comp squash').renders = none :=
            if_neg fun hand => hand.2 (hcomp.squashRegions.trans hregions)
          rw [hidle, Option.none_or]
          exact hlatest

/-- The frames that wait for the framebuffer were planned with the marks of now. -/
def MarksKept (s : SquashSystemState F) : Prop :=
  ∀ e ∈ s.compositeQueue, ReusesSquash e.comp → e.planned.marked = s.squash.marked

theorem marksKept_push {squash' : SquashState} {comp : DrmDisplayComposition F}
    (h : ∀ e ∈ s.compositeQueue, ReusesSquash e.comp → e.planned.marked = squash'.marked) :
    MarksKept ({ s with squash := squash' }.push comp) := by
  intro e he hreuses
  cases List.mem_append.mp he with
  | inl he => exact h e he hreuses
  | inr he =>
      rw [List.mem_singleton.mp he]
      rfl

/-! ## The worker -/

theorem applySquash_content {comp : DrmDisplayComposition F} {fb : DrmFramebuffer}
    {outcomes : RenderOutcomes} (hwait : outcomes.waitReleased = 0)
    (hresolution : outcomes.resolution.2 = 0) (himport : outcomes.importBuffer = 0)
    (hgl : outcomes.glComposite = 0) :
    (applySquash comp fb outcomes).2.content =
      some (renderedContent comp.layers comp.squashRegions) := by
  unfold applySquash prepareFramebuffer
  simp only [hwait, hresolution, himport, hgl, ne_eq, not_true, if_false]
  split <;> rfl

/-- Taking a composition out of the queue: a rendering that succeeds, or nothing. -/
theorem prepareSquash_spec {comp : DrmDisplayComposition F} {outcomes : RenderOutcomes}
    (hok : comp.squashRegions ≠ [] → outcomes.waitReleased = 0 ∧ outcomes.resolution.2 = 0 ∧
      outcomes.importBuffer = 0 ∧ outcomes.glComposite = 0)
    (h : prepareSquash s comp outcomes = some s') :
    s'.squash = s.squash ∧ s'.compositeQueue = s.compositeQueue ∧
    s'.content = if comp.squashRegions ≠ [] then
      some (renderedContent comp.layers comp.squashRegions) else s.content := by
  unfold prepareSquash at h
  by_cases hregions : comp.squashRegions ≠ []
  · rw [if_pos hregions] at h ⊢
    cases h
    obtain ⟨hwait, hresolution, himport, hgl⟩ := hok hregions
    refine ⟨rfl, rfl, ?_⟩
    unfold SquashSystemState.content
    dsimp only
    rw [if_pos rfl]
    exact applySquash_content hwait hresolution himport hgl
  · rw [if_neg hregions] at h ⊢
    split at h
    · cases h
    · cases h
      exact ⟨rfl, rfl, rfl⟩

end Invariant

/-! ## Runs -/

section Runs

variable [Sub F] [Div F] [IntCast F] [LT F] [DecidableLT F] {platform : Platform}
  {s s' : SquashSystemState F}

/-- A turn of the worker, when renderings succeed. -/
theorem composite_spec {outcomes : RenderOutcomes}
    (hok : SquashStepOk s (.composite outcomes))
    (h : (squashSystem F platform).next s (.composite outcomes) = some s') :
    (s.compositeQueue = [] ∧ s' = s) ∨
    ∃ e, s.compositeQueue = e :: s'.compositeQueue ∧ s'.squash = s.squash ∧
      s'.content = e.renders.or s.content := by
  unfold squashSystem at h
  dsimp only at h
  cases hqueue : s.compositeQueue with
  | nil =>
      rw [hqueue] at h
      cases h
      exact Or.inl ⟨rfl, rfl⟩
  | cons e queue =>
      rw [hqueue] at h
      dsimp only at h
      refine Or.inr ⟨e, ?_⟩
      by_cases hframe : e.comp.type = .frame
      · rw [if_pos hframe] at h
        have hhead : e ∈ s.compositeQueue.head? := by
          rw [hqueue]
          rfl
        obtain ⟨hsquash, hrest, hcontent⟩ := prepareSquash_spec (hok e hhead hframe) h
        refine ⟨by rw [hrest], hsquash, hcontent.trans ?_⟩
        unfold QueuedComposition.renders
        by_cases hregions : e.comp.squashRegions ≠ []
        · rw [if_pos hregions, if_pos ⟨hframe, hregions⟩, Option.some_or]
        · rw [if_neg hregions, if_neg fun hand => hregions hand.2, Option.none_or]
          rfl
      · rw [if_neg hframe] at h
        cases h
        refine ⟨rfl, rfl, ?_⟩
        unfold QueuedComposition.renders
        rw [if_neg fun hand => hframe hand.1, Option.none_or]
        rfl

/-- One event. -/
theorem SquashInv.next {e : SquashEvent F} (h : SquashInv s) (hok : SquashStepOk s e)
    (hnext : (squashSystem F platform).next s e = some s') : SquashInv s' := by
  cases e with
  | submit frame => exact h.submit hok.1 hok.2 hnext
  | dpms on =>
      cases hnext
      have hactive : SquashInv { s with active := on } := ⟨h.reads, h.latest, h.handles⟩
      exact hactive.pushControl (by decide)
  | modeset =>
      cases hnext
      exact h.pushControl (by decide)
  | composite outcomes =>
      cases composite_spec hok hnext with
      | inl hidle =>
          rw [hidle.2]
          exact h
      | inr htaken =>
          obtain ⟨e, hqueue, hsquash, hcontent⟩ := htaken
          obtain ⟨hreads, hlatest, hhandles⟩ := h
          unfold SquashSystemState.upcoming at hlatest
          rw [hqueue] at hreads hlatest hhandles
          refine ⟨?_, ?_, fun e' he' => hhandles e' (List.mem_cons_of_mem e he')⟩
          · rw [hcontent]
            exact hreads.2
          · unfold SquashSystemState.upcoming
            rw [hsquash, hcontent]
            exact hlatest

theorem SquashInv.start (h : (squashSystem F platform).start s) : SquashInv s := by
  obtain ⟨hsquash, _, hqueue, _, _⟩ := h
  refine ⟨?_, fun hne => ?_, fun e he => ?_⟩
  · rw [hqueue]
    trivial
  · rw [hsquash] at hne
    exact absurd rfl hne
  · rw [hqueue] at he
    cases he

theorem MarksKept.next {e : SquashEvent F} (h : MarksKept s) (hok : SquashStepOk s e)
    (hkeeps : KeepsMarks s e) (hnext : (squashSystem F platform).next s e = some s') :
    MarksKept s' := by
  cases e with
  | submit frame =>
      obtain ⟨plan, squash', hplan, hend⟩ := submitFrame_spec hnext
      have hold : ∀ e ∈ s.compositeQueue, ReusesSquash e.comp →
          e.planned.marked = squash'.marked := by
        intro e he hreuses
        obtain ⟨hgeometry, hsame⟩ := hkeeps ⟨e, he, hreuses⟩
        rw [h e he hreuses, planSquash_marked_eq hok.1 hgeometry hsame hplan]
      cases hend with
      | inl hdropped =>
          rw [hdropped.1]
          exact hold
      | inr hpushed =>
          obtain ⟨comp, _, heq⟩ := hpushed
          rw [heq]
          exact marksKept_push hold
  | dpms on =>
      cases hnext
      exact marksKept_push h
  | modeset =>
      cases hnext
      exact marksKept_push h
  | composite outcomes =>
      cases composite_spec hok hnext with
      | inl hidle =>
          rw [hidle.2]
          exact h
      | inr htaken =>
          obtain ⟨e, hqueue, hsquash, _⟩ := htaken
          intro e' he' hreuses
          rw [hsquash]
          refine h e' ?_ hreuses
          rw [hqueue]
          exact List.mem_cons_of_mem e he'

/-- In every run where the frames that render are queued and succeed, a frame that reuses
the framebuffer finds what was marked when it was planned; and it finds what is marked
now, where the marks wait for such frames. -/
theorem squashSystem_fresh (platform : Platform) (s : SquashSystemState F) :
    ((squashSystem F platform).Reachable SquashStepOk s → FreshAsPlanned s) ∧
    ((squashSystem F platform).Reachable (fun s e => SquashStepOk s e ∧ KeepsMarks s e) s →
      FreshAsPlanned s ∧ FreshNow s) := by
  refine ⟨fun hreach => ?_, fun hreach => ?_⟩
  · exact (hreach.invariant (fun _ hstart => SquashInv.start hstart)
      fun _ _ _ hinv hok hnext => hinv.next hok hnext).fresh
  · have hboth : SquashInv s ∧ MarksKept s := by
      refine hreach.invariant (I := fun s => SquashInv s ∧ MarksKept s)
        (fun s hstart => ⟨SquashInv.start hstart, fun e he => ?_⟩)
        fun _ _ _ hinv hok hnext => ⟨hinv.1.next hok.1 hnext, hinv.2.next hok.1 hok.2 hnext⟩
      rw [hstart.2.2.1] at he
      cases he
    refine ⟨hboth.1.fresh, fun e queue hqueue hreuses => ?_⟩
    have hmem : e ∈ s.compositeQueue := by
      rw [hqueue]
      exact List.mem_cons_self
    rw [← hboth.2 e hmem hreuses]
    exact (hboth.1.fresh e queue hqueue hreuses).1

end Runs

/-! ## A still picture -/

section Still

instance (frame : SubmittedFrame F) (squash : SquashState) : Decidable (frame.Renders squash) :=
  inferInstanceAs (Decidable (_ ∧ ∃ marks ∈ squash.nextMarks frame.layers, _))

instance (frame : SubmittedFrame F) (active : Bool) : Decidable (frame.Queued active) :=
  inferInstanceAs (Decidable ((∀ crtc ∈ frame.crtc, _) ∧ _ ∧ _ ∧ _))

instance (frame : SubmittedFrame F) (squash : SquashState) : Decidable (frame.Expected squash) :=
  inferInstanceAs (Decidable (_ → _ → ∀ region ∈ squash.regions, _))

instance (s : SquashSystemState F) : (e : SquashEvent F) → Decidable (SquashStepOk s e)
  | .submit _ => inferInstanceAs (Decidable (_ ∧ (_ → _)))
  | .dpms _ => inferInstanceAs (Decidable True)
  | .modeset => inferInstanceAs (Decidable True)
  | .composite _ => inferInstanceAs (Decidable (∀ e ∈ s.compositeQueue.head?, _ → _ → _))

instance (s : SquashSystemState F) : (e : SquashEvent F) → Decidable (KeepsMarks s e)
  | .submit _ => inferInstanceAs (Decidable ((∃ e ∈ s.compositeQueue, ReusesSquash e.comp) → _))
  | .dpms _ => inferInstanceAs (Decidable True)
  | .modeset => inferInstanceAs (Decidable True)
  | .composite _ => inferInstanceAs (Decidable True)

/-- One layer that keeps its buffer, and planes for it and the squash framebuffer. -/
def stillFrame (geometryChanged : Bool) : SubmittedFrame Rat where
  crtc := some smallCrtc
  layers := [plainLayer 0#32 0#32]
  geometryChanged
  pool := ⟨[primaryPlane], [⟨32, .overlay, 1#32⟩]⟩
  unusedPlanes := []
  fenceResult := 0
  othersPass := true

/-- A turn of the worker in which only the GL compositor may fail. -/
def workerTurn (glComposite : Int) : SquashEvent Rat :=
  .composite ⟨0, ((100, 100), 0), 0, glComposite, 1⟩

def newDisplay : SquashSystemState Rat :=
  ⟨.initial, false, [], ⟨0, Nat.zero_lt_succ 1⟩, fun _ => ⟨none, none⟩⟩

theorem squashSystem_start_newDisplay : (squashSystem Rat .nvidia).start newDisplay :=
  ⟨rfl, rfl, rfl, rfl, fun _ => rfl⟩

/-- The display is switched on and shows the layer until it is stable; the next frame
renders it, the one behind that reuses the framebuffer. -/
def stillRun (glComposite : Int) : List (SquashEvent Rat) :=
  [.dpms true, workerTurn 0, .submit (stillFrame true), workerTurn 0] ++
    (List.replicate 6 [.submit (stillFrame false), workerTurn 0]).flatten ++
    [.submit (stillFrame false), workerTurn glComposite, .submit (stillFrame false)]

/-- The picture of the layer. -/
def stillContent : SquashContent := [⟨⟨0, 0, 100, 100⟩, [(0, some 1)]⟩]

theorem squashSystem_fresh_still :
    ∃ (s : SquashSystemState Rat) (e : QueuedComposition Rat), s.compositeQueue = [e] ∧
      ReusesSquash e.comp ∧ s.content = some stillContent ∧ FreshAsPlanned s ∧ FreshNow s := by
  have hrun : ((squashSystem Rat .nvidia).run (fun s e => SquashStepOk s e ∧ KeepsMarks s e)
      (stillRun 0) newDisplay).map (fun s => (s.compositeQueue.map fun e =>
        decide (ReusesSquash e.comp), s.content)) = some ([true], some stillContent) := by
    decide +kernel
  obtain ⟨s, hs, heq⟩ := Option.map_eq_some_iff.mp hrun
  obtain ⟨hqueue, hcontent⟩ := (Prod.mk.injEq _ _ _ _).mp heq
  obtain ⟨e, hqueue, hreuses⟩ := List.map_eq_singleton_iff.mp hqueue
  exact ⟨s, e, hqueue, of_decide_eq_true hreuses, hcontent, (squashSystem_fresh .nvidia s).2
    (System.Reachable.run (.start squashSystem_start_newDisplay) hs)⟩

/-- The rendering fails, and still the next frame takes the framebuffer as rendered. -/
theorem squashSystem_reuses_unrendered :
    ∃ s, (squashSystem Rat .nvidia).Reachable (fun _ _ => True) s ∧
      ¬ FreshNow s ∧ ¬ FreshAsPlanned s := by
  have hrun : ((squashSystem Rat .nvidia).run (fun _ _ => True) (stillRun (-einval))
      newDisplay).map (fun s => (s.compositeQueue.map fun e => decide (ReusesSquash e.comp),
        s.content)) = some ([true], none) := by decide +kernel
  obtain ⟨s, hs, heq⟩ := Option.map_eq_some_iff.mp hrun
  obtain ⟨hqueue, hcontent⟩ := (Prod.mk.injEq _ _ _ _).mp heq
  obtain ⟨e, hqueue, hreuses⟩ := List.map_eq_singleton_iff.mp hqueue
  refine ⟨s, System.Reachable.run (.start squashSystem_start_newDisplay) hs, fun hnow => ?_,
    fun hplanned => ?_⟩
  · have hfresh := hnow e [] hqueue (of_decide_eq_true hreuses)
    rw [hcontent] at hfresh
    cases hfresh
  · have hfresh := (hplanned e [] hqueue (of_decide_eq_true hreuses)).1
    rw [hcontent] at hfresh
    cases hfresh

end Still

end DragonDevice.Hwc
