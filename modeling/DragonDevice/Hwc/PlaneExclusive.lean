/-
  Hwc/PlaneExclusive.lean --- no plane is given to two displays.

  Whatever is planned or disabled, the planes of all displays and the planes that are
  left are together the planes of the pool.  Each step of the two passes over the
  displays keeps this, so a plane is used once at most, and an overlay plane that the
  disable pass had to visit is used.
-/
import DragonDevice.Hwc.Composition
import DragonDevice.Hwc.PlannerPlacement
import Mathlib.Data.List.Nodup

set_option autoImplicit false

namespace DragonDevice.Hwc

open DragonDevice.Lib

variable {F : Type}

/-! ## Plans of any platform -/

section Planner

/-- A stage that works on drafts and meets `StageSpec`. -/
def DraftStage (stage : PlanStage F) : Prop :=
  ∀ (crtc : DrmCrtc) (layers : LayerMap F) (d : Draft), ∃ layers' d',
    stage crtc layers (d.provision crtc) = (0, layers', d'.provision crtc) ∧
      StageSpec layers d layers' d'

theorem draftStage_greedy : DraftStage (planStageGreedy (F := F)) := fun crtc layers d =>
  ⟨_, _, planStageGreedy_provision crtc layers d, stageSpec_greedyStage layers d⟩

theorem runStages_draft (crtc : DrmCrtc) :
    ∀ (stages : List (PlanStage F)), (∀ stage ∈ stages, DraftStage stage) →
      ∀ (layers : LayerMap F) (d : Draft), ∃ layers' d',
        runStages crtc stages layers (d.provision crtc) = (0, layers', d'.provision crtc) ∧
          StageSpec layers d layers' d' := by
  intro stages
  induction stages with
  | nil => intro _ layers d; exact ⟨layers, d, rfl, StageSpec.refl layers d⟩
  | cons stage stages ih =>
      intro h layers d
      obtain ⟨layers₁, d₁, hstage, hspec⟩ := h stage List.mem_cons_self crtc layers d
      obtain ⟨layers₂, d₂, hrun, hspec'⟩ :=
        ih (fun s hs => h s (List.mem_cons_of_mem stage hs)) layers₁ d₁
      refine ⟨layers₂, d₂, ?_, hspec.trans hspec'⟩
      unfold runStages
      rw [hstage]
      exact hrun

variable [Sub F] [Div F] [IntCast F] [LT F] [DecidableLT F]

theorem draftStage_createInstance (platform : Platform) :
    ∀ stage ∈ (platform.createInstance : List (PlanStage F)), DraftStage stage := by
  intro stage hstage
  cases platform with
  | nvidia =>
      simp only [Platform.createInstance, nvStages, List.mem_cons, List.not_mem_nil, or_false]
        at hstage
      intro crtc layers d
      rcases hstage with h | h | h | h | h
      · rw [h]
        exact ⟨_, _, planStageNvLimits_provision crtc layers d, stageSpec_limitsStage layers d⟩
      · rw [h]
        exact ⟨_, _, planStageProtectedRotated_provision crtc layers d,
          stageSpec_rotatedStage layers d⟩
      · rw [h]
        exact ⟨_, _, planStageProtected_provision crtc layers d,
          stageSpec_protectedStage layers d⟩
      · rw [h]
        exact ⟨_, _, planStagePrecomp_provision crtc layers d, stageSpec_precompStage layers d⟩
      · rw [h]
        exact draftStage_greedy crtc layers d
  | drmGeneric =>
      rw [List.mem_singleton.mp hstage]
      exact draftStage_greedy

end Planner

theorem reserveSquash_perm (useSquashFb : Bool) (usable : List DrmPlane) :
    ((reserveSquash useSquashFb usable).1.toList ++ (reserveSquash useSquashFb usable).2).Perm
      usable := by
  unfold reserveSquash
  cases useSquashFb with
  | false => exact List.Perm.refl _
  | true =>
      show (usable.getLast?.toList ++ usable.dropLast).Perm usable
      cases hlast : usable.getLast? with
      | none =>
          rw [List.getLast?_eq_none_iff.mp hlast]
          exact List.Perm.refl _
      | some plane => exact perm_dropLast hlast

/-- Planning succeeds when there is a usable plane. -/
theorem provisionPlanes_ret {stages : List (PlanStage F)}
    (hstages : ∀ stage ∈ stages, DraftStage stage) (layers : LayerMap F) (useSquashFb : Bool)
    {crtc : DrmCrtc} {primaryPlanes overlayPlanes : List DrmPlane}
    (h : getUsablePlanes crtc primaryPlanes overlayPlanes ≠ []) :
    (provisionPlanes stages layers useSquashFb crtc primaryPlanes overlayPlanes).1 = 0 := by
  unfold provisionPlanes
  rw [if_neg h]
  obtain ⟨layers', d, hrun, _⟩ := runStages_draft crtc stages hstages layers
    (startDraft layers.entries.length
      (reserveSquash useSquashFb (getUsablePlanes crtc primaryPlanes overlayPlanes)).2)
  rw [← reservePrecomp_eq] at hrun
  simp only [hrun, ne_eq, not_true, if_false]
  cases (reserveSquash useSquashFb (getUsablePlanes crtc primaryPlanes overlayPlanes)).1 with
  | none => rfl
  | some plane => rfl

/-- Without success the planner has no planes. -/
theorem provisionPlanes_failed (stages : List (PlanStage F)) (layers : LayerMap F)
    (useSquashFb : Bool) (crtc : DrmCrtc) (primaryPlanes overlayPlanes : List DrmPlane)
    (h : (provisionPlanes stages layers useSquashFb crtc primaryPlanes overlayPlanes).1 ≠ 0) :
    (provisionPlanes stages layers useSquashFb crtc primaryPlanes overlayPlanes).2 = [] := by
  unfold provisionPlanes at h ⊢
  dsimp only at h ⊢
  split
  · rfl
  · rename_i hsome
    rw [if_neg hsome] at h
    split
    · rfl
    · rename_i hret
      rw [if_neg hret] at h
      split at h
      · exact absurd rfl h
      · exact absurd rfl h

/-- A successful plan is a draft with the squash plane behind it, its planes are usable
planes, each once, and its layers are layers of the frame, each once. -/
theorem provisionPlanes_draft {stages : List (PlanStage F)}
    (hstages : ∀ stage ∈ stages, DraftStage stage) {layers : LayerMap F} {useSquashFb : Bool}
    {crtc : DrmCrtc} {primaryPlanes overlayPlanes : List DrmPlane}
    {planes : List DrmCompositionPlane}
    (h : provisionPlanes stages layers useSquashFb crtc primaryPlanes overlayPlanes =
      (0, planes)) :
    ∃ d : Draft, planes = d.composition crtc ++ squashPlanes crtc useSquashFb
        (getUsablePlanes crtc primaryPlanes overlayPlanes) ∧
      (planes.map (·.plane)).Subperm (getUsablePlanes crtc primaryPlanes overlayPlanes) ∧
      d.indices.Subperm layers.keys := by
  unfold provisionPlanes at h
  generalize getUsablePlanes crtc primaryPlanes overlayPlanes = usable at h ⊢
  by_cases hempty : usable = []
  · rw [if_pos hempty] at h
    cases h
  rw [if_neg hempty] at h
  obtain ⟨layers', d, hrun, hspec⟩ := runStages_draft crtc stages hstages layers
    (startDraft layers.entries.length (reserveSquash useSquashFb usable).2)
  rw [← reservePrecomp_eq] at hrun
  simp only [hrun] at h
  have hplanes : planes = d.composition crtc ++ squashPlanes crtc useSquashFb usable := by
    unfold squashPlanes
    cases hsquash : (reserveSquash useSquashFb usable).1 with
    | none =>
        rw [hsquash] at h
        simpa [Draft.provision] using h.symm
    | some plane =>
        rw [hsquash] at h
        simpa [Draft.provision] using h.symm
  have hindices : d.indices.Subperm layers.keys := by
    have hsub := hspec.indices
    rw [startDraft_indices, List.append_nil] at hsub
    exact (List.sublist_append_right _ _).subperm.trans hsub
  refine ⟨d, hplanes, ?_, hindices⟩
  have hall : d.allPlanes.Perm (reserveSquash useSquashFb usable).2 :=
    hspec.planes.trans (startDraft_allPlanes _ _)
  have hmap : planes.map (·.plane) = d.dedicated.map (·.1) ++ (d.precomp.map (·.1)).toList ++
      (reserveSquash useSquashFb usable).1.toList := by
    rw [hplanes, List.map_append, Draft.composition, List.map_append, List.map_map, squashPlanes,
      List.map_map, List.map_map]
    congr 1
    · congr 1
      cases d.precomp with
      | none => rfl
      | some p => rfl
    · cases (reserveSquash useSquashFb usable).1 with
      | none => rfl
      | some plane => rfl
  rw [hmap]
  refine List.Subperm.trans ?_ (reserveSquash_perm useSquashFb usable).subperm
  refine List.perm_append_comm.subperm.trans ?_
  refine List.Subperm.append (List.Subperm.refl _) ?_
  refine List.Subperm.trans ?_ hall.subperm
  exact (List.sublist_append_left _ _).subperm

/-! ## The pool -/

namespace PlanePool

def all (pool : PlanePool) : List DrmPlane := pool.primaryPlanes ++ pool.overlayPlanes

/-- Each plane is in the list of its type. -/
structure Typed (pool : PlanePool) : Prop where
  primary : ∀ plane ∈ pool.primaryPlanes, plane.isPrimary = true
  overlay : ∀ plane ∈ pool.overlayPlanes, plane.isPrimary = false

theorem remove_spec {pool : PlanePool} (htyped : pool.Typed) {p : DrmCompositionPlane}
    (hmem : p.plane ∈ pool.all) :
    (p.plane :: (pool.remove p).all).Perm pool.all ∧ (pool.remove p).Typed := by
  unfold remove
  cases hprimary : p.plane.isPrimary with
  | true =>
      have hin : p.plane ∈ pool.primaryPlanes := by
        cases List.mem_append.mp hmem with
        | inl h => exact h
        | inr h =>
            rw [htyped.overlay _ h] at hprimary
            cases hprimary
      rw [if_pos rfl]
      refine ⟨(List.perm_cons_erase hin).symm.append_right _, ?_, htyped.overlay⟩
      exact fun plane h => htyped.primary plane (List.mem_of_mem_erase h)
  | false =>
      have hin : p.plane ∈ pool.overlayPlanes := by
        cases List.mem_append.mp hmem with
        | inl h =>
            rw [htyped.primary _ h] at hprimary
            cases hprimary
        | inr h => exact h
      rw [if_neg Bool.false_ne_true]
      refine ⟨?_, htyped.primary, fun plane h => htyped.overlay plane (List.mem_of_mem_erase h)⟩
      exact List.perm_middle.symm.trans ((List.perm_cons_erase hin).symm.append_left _)

/-- The planes of a plan leave the pool, and nothing else does. -/
theorem foldl_remove_spec :
    ∀ (planes : List DrmCompositionPlane) {pool : PlanePool}, pool.Typed →
      (planes.map (·.plane)).Subperm pool.all →
      (planes.map (·.plane) ++ (planes.foldl remove pool).all).Perm pool.all ∧
        (planes.foldl remove pool).Typed := by
  intro planes
  induction planes with
  | nil => intro pool htyped _; exact ⟨List.Perm.refl _, htyped⟩
  | cons p planes ih =>
      intro pool htyped hsub
      have hmem : p.plane ∈ pool.all := hsub.subset List.mem_cons_self
      obtain ⟨hperm, htyped'⟩ := remove_spec htyped hmem
      have hrest : (planes.map (·.plane)).Subperm (pool.remove p).all :=
        (List.subperm_cons p.plane).mp (hsub.trans hperm.symm.subperm)
      obtain ⟨hperm', htyped''⟩ := ih htyped' hrest
      exact ⟨(hperm'.cons p.plane).trans hperm, htyped''⟩

end PlanePool

/-! ## One display -/

/-- At most one precomp plane, above the planes with a layer of their own; a squash plane
has only disabled planes behind it. -/
structure PlaneOrder (planes : List DrmCompositionPlane) : Prop where
  onePrecomp : (planes.filter (·.isPrecomp)).length ≤ 1
  precompAbove : planes.Pairwise fun a b => a.type = .precomp → b.type ≠ .layer
  squashLast : planes.Pairwise fun a b => a.type = .squash → b.type = .disable

theorem PlaneOrder.nil : PlaneOrder [] :=
  ⟨Nat.zero_le 1, List.Pairwise.nil, List.Pairwise.nil⟩

theorem PlaneOrder.append_disabled {planes disabled : List DrmCompositionPlane}
    (h : PlaneOrder planes) (hdis : ∀ p ∈ disabled, p.type = .disable) :
    PlaneOrder (planes ++ disabled) := by
  have hpairs : ∀ {R : DrmCompositionPlane → DrmCompositionPlane → Prop},
      (∀ a b, b.type = .disable → R a b) → planes.Pairwise R → (planes ++ disabled).Pairwise R := by
    intro R hR hplanes
    refine List.pairwise_append.mpr ⟨hplanes, ?_, fun a _ b hb => hR a b (hdis b hb)⟩
    exact List.pairwise_of_forall_mem_list fun a _ b hb => hR a b (hdis b hb)
  refine ⟨?_, hpairs ?_ h.precompAbove, hpairs ?_ h.squashLast⟩
  · have hnone : disabled.filter (·.isPrecomp) = [] := by
      rw [List.filter_eq_nil_iff]
      intro p hp
      simp [DrmCompositionPlane.isPrecomp, hdis p hp]
    rw [List.filter_append, hnone, List.append_nil]
    exact h.onePrecomp
  · intro a b hb _
    rw [hb]
    decide
  · intro a b hb _
    exact hb

/-- Only the types matter. -/
theorem PlaneOrder.map {planes : List DrmCompositionPlane} (h : PlaneOrder planes)
    {f : DrmCompositionPlane → DrmCompositionPlane} (hf : ∀ p, (f p).type = p.type) :
    PlaneOrder (planes.map f) := by
  refine ⟨?_, ?_, ?_⟩
  · have hcomp : (fun p : DrmCompositionPlane => p.isPrecomp) ∘ f = fun p => p.isPrecomp := by
      funext p
      simp [DrmCompositionPlane.isPrecomp, hf]
    rw [List.filter_map, List.length_map, hcomp]
    exact h.onePrecomp
  · rw [List.pairwise_map]
    refine h.precompAbove.imp fun {a b} hab ha => ?_
    rw [hf] at ha ⊢
    exact hab ha
  · rw [List.pairwise_map]
    refine h.squashLast.imp fun {a b} hab ha => ?_
    rw [hf] at ha ⊢
    exact hab ha

theorem PlaneOrder.layers_append {layers rest : List DrmCompositionPlane} (h : PlaneOrder rest)
    (hlayers : ∀ p ∈ layers, p.type = .layer) : PlaneOrder (layers ++ rest) := by
  have hpairs : ∀ {R : DrmCompositionPlane → DrmCompositionPlane → Prop},
      (∀ a b, a.type = .layer → R a b) → rest.Pairwise R → (layers ++ rest).Pairwise R := by
    intro R hR hrest
    refine List.pairwise_append.mpr ⟨?_, hrest, fun a ha b _ => hR a b (hlayers a ha)⟩
    exact List.pairwise_of_forall_mem_list fun a ha b _ => hR a b (hlayers a ha)
  refine ⟨?_, hpairs ?_ h.precompAbove, hpairs ?_ h.squashLast⟩
  · have hnone : layers.filter (·.isPrecomp) = [] := by
      rw [List.filter_eq_nil_iff]
      intro p hp
      simp [DrmCompositionPlane.isPrecomp, hlayers p hp]
    rw [List.filter_append, hnone, List.nil_append]
    exact h.onePrecomp
  · intro a b ha hpre
    rw [ha] at hpre
    cases hpre
  · intro a b ha hsquash
    rw [ha] at hsquash
    cases hsquash

theorem planeOrder_composition (crtc : DrmCrtc) (d : Draft) (useSquashFb : Bool)
    (usable : List DrmPlane) :
    PlaneOrder (d.composition crtc ++ squashPlanes crtc useSquashFb usable) := by
  have hlayer : ∀ p ∈ d.dedicated.map (layerPlane crtc), p.type = .layer := by
    intro p hp
    obtain ⟨q, _, hq⟩ := List.mem_map.mp hp
    rw [← hq]
    rfl
  unfold Draft.composition squashPlanes
  rw [List.append_assoc]
  apply PlaneOrder.layers_append _ hlayer
  cases d.precomp with
  | none =>
      cases (reserveSquash useSquashFb usable).1 with
      | none => exact PlaneOrder.nil
      | some q => exact ⟨by simp [DrmCompositionPlane.isPrecomp], by simp, by simp⟩
  | some p =>
      cases (reserveSquash useSquashFb usable).1 with
      | none => exact ⟨by simp [DrmCompositionPlane.isPrecomp, precompPlane], by simp, by simp⟩
      | some q =>
          exact ⟨by simp [DrmCompositionPlane.isPrecomp, precompPlane],
            by simp [precompPlane], by simp [precompPlane]⟩

/-- What planning a display does: planes that support its crtc move from the pool to the
display, in the order of the planner. -/
structure PlanSpec (comp comp' : DrmDisplayComposition F) (pool pool' : PlanePool) : Prop where
  type : comp'.type = comp.type
  crtc : comp'.crtc = comp.crtc
  planes : (comp'.compositionPlanes.map (·.plane) ++ pool'.all).Perm pool.all
  typed : pool'.Typed
  order : PlaneOrder comp'.compositionPlanes
  supported : ∀ p ∈ comp'.compositionPlanes, ∃ crtc, comp.crtc = some crtc ∧
    p.plane.getCrtcSupported crtc = true

theorem planPlanes_spec {stages : List (PlanStage F)}
    (hstages : ∀ stage ∈ stages, DraftStage stage) {comp comp' : DrmDisplayComposition F}
    {crtc : DrmCrtc} {squash : SquashPlan} {layers : LayerMap F} {pool pool' : PlanePool}
    {fenceResult : Int} (hcrtc : comp.crtc = some crtc) (htyped : pool.Typed)
    (h : planPlanes stages comp crtc squash layers pool fenceResult = some (0, comp', pool')) :
    PlanSpec comp comp' pool pool' := by
  unfold planPlanes at h
  generalize hprov : provisionPlanes stages layers squash.useSquashFramebuffer crtc
    pool.primaryPlanes pool.overlayPlanes = result at h
  obtain ⟨ret, planes⟩ := result
  dsimp only at h
  by_cases hret : ret ≠ 0
  · rw [if_pos hret] at h
    have heq := (Prod.mk.injEq _ _ _ _).mp (Option.some.inj h)
    exact absurd heq.1 hret
  rw [if_neg hret] at h
  rw [not_not.mp hret] at hprov
  obtain ⟨regions, hregions, hsome⟩ := Option.bind_eq_some_iff.mp h
  have heq := (Prod.mk.injEq _ _ _ _).mp (Option.some.inj hsome)
  obtain ⟨hcomp, hpool⟩ := (Prod.mk.injEq _ _ _ _).mp heq.2
  obtain ⟨d, hplanes, hsub, _⟩ := provisionPlanes_draft hstages hprov
  have hmap : (planes.map sortSourceLayers).map (·.plane) = planes.map (·.plane) := by
    rw [List.map_map]
    rfl
  have husable : (getUsablePlanes crtc pool.primaryPlanes pool.overlayPlanes).Sublist pool.all :=
    List.filter_sublist.append List.filter_sublist
  obtain ⟨hperm, htyped'⟩ := PlanePool.foldl_remove_spec (planes.map sortSourceLayers) htyped
    (by rw [hmap]; exact hsub.trans husable.subperm)
  rw [← hcomp, ← hpool]
  refine ⟨rfl, rfl, hperm, htyped', ?_, ?_⟩
  · rw [hplanes]
    exact (planeOrder_composition crtc d _ _).map fun _ => rfl
  · intro p hp
    refine ⟨crtc, hcrtc, ?_⟩
    have hmem : p.plane ∈ getUsablePlanes crtc pool.primaryPlanes pool.overlayPlanes := by
      apply hsub.subset
      rw [← hmap]
      exact List.mem_map_of_mem hp
    unfold getUsablePlanes at hmem
    rw [← List.filter_append] at hmem
    exact (List.mem_filter.mp hmem).2

/-- A display that has no planes yet. -/
theorem plan_spec {stages : List (PlanStage F)} (hstages : ∀ stage ∈ stages, DraftStage stage)
    {comp comp' : DrmDisplayComposition F} {squash squash' : Option SquashState}
    {pool pool' : PlanePool} {fenceResult : Int} (hnew : comp.compositionPlanes = [])
    (htyped : pool.Typed)
    (h : comp.plan stages squash pool fenceResult = some (0, comp', squash', pool')) :
    PlanSpec comp comp' pool pool' := by
  unfold DrmDisplayComposition.plan at h
  by_cases hframe : comp.type ≠ .frame
  · rw [if_pos hframe] at h
    cases h
    refine ⟨rfl, rfl, ?_, htyped, ?_, ?_⟩
    · rw [hnew]
      exact List.Perm.refl _
    · rw [hnew]
      exact PlaneOrder.nil
    · rw [hnew]
      intro p hp
      cases hp
  rw [if_neg hframe] at h
  obtain ⟨⟨squashPlan, areas, state⟩, _, h⟩ := Option.bind_eq_some_iff.mp h
  obtain ⟨crtc, hcrtc, h⟩ := Option.bind_eq_some_iff.mp h
  obtain ⟨⟨ret, comp₁, pool₁⟩, hplan, h⟩ := Option.bind_eq_some_iff.mp h
  cases h
  exact planPlanes_spec hstages hcrtc htyped hplan

/-! ## All displays -/

/-- When one of the lists gets longer, so does their concatenation. -/
theorem flatMap_perm_of_append {α β : Type} {f f' : α → List β} {a : α} {new : List β}
    (ha : f' a = f a ++ new) (hother : ∀ b, b ≠ a → f' b = f b) :
    ∀ l : List α, l.Nodup → a ∈ l → (l.flatMap f').Perm (l.flatMap f ++ new) := by
  intro l
  induction l with
  | nil => intro _ hmem; cases hmem
  | cons b l ih =>
      intro hnodup hmem
      obtain ⟨hnot, hrest⟩ := List.nodup_cons.mp hnodup
      rw [List.flatMap_cons, List.flatMap_cons, List.append_assoc]
      cases List.mem_cons.mp hmem with
      | inl heq =>
          have hsame : l.flatMap f' = l.flatMap f := by
            refine List.flatMap_congr fun c hc => hother c fun hca => ?_
            exact hnot (heq ▸ hca ▸ hc)
          rw [← heq, ha, hsame, List.append_assoc]
          exact List.perm_append_comm.append_left _
      | inr hin =>
          have hne : b ≠ a := fun h => hnot (h ▸ hin)
          rw [hother b hne]
          exact (ih hrest hin).append_left _

namespace DrmComposition

/-- The planes of a display. -/
def displayPlanes (c : DrmComposition F) (display : Int) : List DrmPlane :=
  match c.compositionMap display with
  | some comp => comp.compositionPlanes.map (·.plane)
  | none => []

/-- The planes of all displays. -/
def usedPlanes (drm : DrmResources) (c : DrmComposition F) : List DrmPlane :=
  drm.displays.flatMap c.displayPlanes

/-- Between the steps of the two passes: the planes of the displays and those that are
left are the planes of the pool, and each display has its planes in order. -/
structure PlanesKept (drm : DrmResources) (pool : PlanePool) (c : DrmComposition F) : Prop where
  planes : (c.usedPlanes drm ++ c.pool.all).Perm pool.all
  typed : c.pool.Typed
  crtc : ∀ display comp, c.compositionMap display = some comp →
    comp.crtc = drm.getCrtcForDisplay display
  order : ∀ display comp, c.compositionMap display = some comp →
    PlaneOrder comp.compositionPlanes
  supported : ∀ display comp, c.compositionMap display = some comp →
    ∀ p ∈ comp.compositionPlanes, ∃ crtc, drm.getCrtcForDisplay display = some crtc ∧
      p.plane.getCrtcSupported crtc = true

variable {drm : DrmResources} {pool : PlanePool} {c : DrmComposition F} {display : Int}
  {comp comp' : DrmDisplayComposition F}

theorem set_map_self (c : DrmComposition F) (display : Int) (comp : DrmDisplayComposition F) :
    (c.set display comp).compositionMap display = some comp := if_pos rfl

theorem set_map_of_ne {d : Int} (hne : d ≠ display) (comp : DrmDisplayComposition F) :
    (c.set display comp).compositionMap d = c.compositionMap d := if_neg hne

theorem isSome_set {d : Int} (h : (c.compositionMap d).isSome = true)
    (comp : DrmDisplayComposition F) :
    ((c.set display comp).compositionMap d).isSome = true := by
  by_cases hd : d = display
  · rw [hd, set_map_self]
    rfl
  · rw [set_map_of_ne hd]
    exact h

/-- One display gets more planes from the pool. -/
theorem PlanesKept.set (h : PlanesKept drm pool c) (hd : display ∈ drm.displays)
    (hcomp : c.compositionMap display = some comp) {pool' : PlanePool} {new : List DrmPlane}
    (hplanes : comp'.compositionPlanes.map (·.plane) =
      comp.compositionPlanes.map (·.plane) ++ new)
    (hpool : (new ++ pool'.all).Perm c.pool.all) (htyped : pool'.Typed)
    (hcrtc : comp'.crtc = comp.crtc) (horder : PlaneOrder comp'.compositionPlanes)
    (hsupported : ∀ p ∈ comp'.compositionPlanes, ∃ crtc,
      drm.getCrtcForDisplay display = some crtc ∧ p.plane.getCrtcSupported crtc = true) :
    PlanesKept drm pool { c.set display comp' with pool := pool' } := by
  -- every other display keeps its composition
  have hcases : ∀ d e, (c.set display comp').compositionMap d = some e →
      d = display ∧ e = comp' ∨ c.compositionMap d = some e := by
    intro d e he
    by_cases heq : d = display
    · rw [heq, set_map_self] at he
      exact Or.inl ⟨heq, (Option.some.inj he).symm⟩
    · rw [set_map_of_ne heq] at he
      exact Or.inr he
  refine ⟨?_, htyped, ?_, ?_, ?_⟩
  · have hused : (DrmComposition.usedPlanes drm { c.set display comp' with pool := pool' }).Perm
        (c.usedPlanes drm ++ new) := by
      refine flatMap_perm_of_append ?_ ?_ drm.displays drm.displays_nodup hd
      · simp only [displayPlanes, set_map_self, hcomp]
        exact hplanes
      · intro d hne
        simp only [displayPlanes, set_map_of_ne hne]
    refine (hused.append_right pool'.all).trans ?_
    rw [List.append_assoc]
    exact (hpool.append_left _).trans h.planes
  · intro d e he
    cases hcases d e he with
    | inl hnew => rw [hnew.1, hnew.2, hcrtc, h.crtc display comp hcomp]
    | inr hold => exact h.crtc d e hold
  · intro d e he
    cases hcases d e he with
    | inl hnew => rw [hnew.2]; exact horder
    | inr hold => exact h.order d e hold
  · intro d e he
    cases hcases d e he with
    | inl hnew => rw [hnew.1, hnew.2]; exact hsupported
    | inr hold => exact h.supported d e hold

/-! ## The two passes -/

theorem planDisplays_spec {stages : List (PlanStage F)}
    (hstages : ∀ stage ∈ stages, DraftStage stage) {fences : Int → Int} :
    ∀ (displays : List Int) {c c' : DrmComposition F} {squash squash' : SquashStates},
      displays ⊆ drm.displays → displays.Nodup → PlanesKept drm pool c →
      (∀ d ∈ displays, ∀ comp, c.compositionMap d = some comp → comp.compositionPlanes = []) →
      planDisplays stages fences displays c squash = some (0, c', squash') →
      PlanesKept drm pool c' ∧
        ∀ d, (c.compositionMap d).isSome = true → (c'.compositionMap d).isSome = true := by
  intro displays
  induction displays with
  | nil =>
      intro c c' squash squash' _ _ hkept _ h
      cases h
      exact ⟨hkept, fun d hd => hd⟩
  | cons display rest ih =>
      intro c c' squash squash' hsub hnodup hkept hnew h
      obtain ⟨hnot, hrest⟩ := List.nodup_cons.mp hnodup
      obtain ⟨comp, hcomp, h⟩ := Option.bind_eq_some_iff.mp h
      obtain ⟨⟨ret, comp', state, pool'⟩, hplan, h⟩ := Option.bind_eq_some_iff.mp h
      dsimp only at h
      by_cases hret : ret ≠ 0
      · rw [if_pos hret] at h
        exact absurd ((Prod.mk.injEq _ _ _ _).mp (Option.some.inj h)).1 hret
      rw [if_neg hret] at h
      rw [not_not.mp hret] at hplan
      have hempty := hnew display List.mem_cons_self comp hcomp
      have hspec := plan_spec hstages hempty hkept.typed hplan
      have hstep : PlanesKept drm pool { c.set display comp' with pool := pool' } := by
        refine hkept.set (hsub List.mem_cons_self) hcomp ?_ hspec.planes hspec.typed hspec.crtc
          hspec.order ?_
        · rw [hempty]
          rfl
        · intro p hp
          rw [← hkept.crtc display comp hcomp]
          exact hspec.supported p hp
      obtain ⟨hkept', hsome⟩ := ih (fun d hd => hsub (List.mem_cons_of_mem display hd)) hrest hstep
        (fun d hd e he => by
          have hne : d ≠ display := fun heq => hnot (heq ▸ hd)
          exact hnew d (List.mem_cons_of_mem display hd) e
            ((set_map_of_ne hne comp').symm.trans he))
        h
      exact ⟨hkept', fun d hd => hsome d (isSome_set hd comp')⟩

theorem foldl_addPlaneDisable :
    ∀ (planes : List DrmPlane) (comp : DrmDisplayComposition F),
      planes.foldl .addPlaneDisable comp = { comp with
        compositionPlanes := comp.compositionPlanes ++
          planes.map fun plane => ⟨.disable, plane, comp.crtc, []⟩ } := by
  intro planes
  induction planes with
  | nil => intro comp; simp
  | cons plane planes ih =>
      intro comp
      rw [List.foldl_cons, ih]
      simp [DrmDisplayComposition.addPlaneDisable]

/-- The disable pass takes planes that support the crtc, and leaves no such overlay
plane. -/
theorem unusedPlanes_spec (crtc : DrmCrtc) {pool : PlanePool} (htyped : pool.Typed) :
    let pool' : PlanePool :=
      { primaryPlanes := pool.primaryPlanes.eraseP (·.getCrtcSupported crtc)
        overlayPlanes := pool.overlayPlanes.filter fun plane => !plane.getCrtcSupported crtc }
    (unusedPlanes crtc pool ++ pool'.all).Perm pool.all ∧ pool'.Typed ∧
      ∀ plane ∈ unusedPlanes crtc pool, plane.getCrtcSupported crtc = true := by
  refine ⟨?_, ⟨?_, ?_⟩, ?_⟩
  · have hprimary := find?_eraseP_perm (·.getCrtcSupported crtc) pool.primaryPlanes
    have hoverlay := List.filter_append_perm (·.getCrtcSupported crtc) pool.overlayPlanes
    refine List.Perm.trans ?_ (hprimary.append hoverlay)
    unfold unusedPlanes PlanePool.all
    rw [List.append_assoc, List.append_assoc]
    exact (List.perm_append_comm_assoc _ _ _).append_left _
  · exact fun plane h => htyped.primary plane (List.mem_of_mem_eraseP h)
  · exact fun plane h => htyped.overlay plane (List.mem_filter.mp h).1
  · intro plane hplane
    unfold unusedPlanes at hplane
    cases List.mem_append.mp hplane with
    | inl h =>
        have hfind := Option.mem_toList.mp h
        exact @List.find?_some _ (·.getCrtcSupported crtc) plane _ hfind
    | inr h => exact (List.mem_filter.mp h).2

/-- What one turn of the disable pass does. -/
structure DisableSpec (drm : DrmResources) (c c' : DrmComposition F) : Prop where
  overlays : c'.pool.overlayPlanes ⊆ c.pool.overlayPlanes
  types : ∀ d, (c'.compositionMap d).map (·.type) = (c.compositionMap d).map (·.type)

theorem disableUnused_spec (h : PlanesKept drm pool c) (hd : display ∈ drm.displays)
    (hcomp : c.compositionMap display = some comp) :
    ∃ c', c.disableUnused drm display = some c' ∧ PlanesKept drm pool c' ∧
      DisableSpec drm c c' ∧
      (comp.type = .frame → ∀ crtc, drm.getCrtcForDisplay display = some crtc →
        ∀ plane ∈ c'.pool.overlayPlanes, plane.getCrtcSupported crtc = false) := by
  unfold disableUnused
  rw [hcomp]
  simp only [Option.bind_eq_bind, Option.bind_some]
  by_cases htype : comp.type = .empty ∨ comp.type = .modeset
  · rw [if_pos htype]
    refine ⟨c, rfl, h, ⟨List.Subset.refl _, fun d => rfl⟩, fun hframe => ?_⟩
    rw [hframe] at htype
    cases htype with
    | inl h => cases h
    | inr h => cases h
  rw [if_neg htype]
  cases hcrtc : drm.getCrtcForDisplay display with
  | none =>
      refine ⟨c, rfl, h, ⟨List.Subset.refl _, fun d => rfl⟩, fun _ crtc hsome => ?_⟩
      cases hsome
  | some crtc =>
      obtain ⟨hperm, htyped, hsupported⟩ := unusedPlanes_spec crtc h.typed
      dsimp only
      rw [foldl_addPlaneDisable]
      refine ⟨_, rfl, ?_, ⟨List.filter_subset_self _, fun d => ?_⟩,
        fun _ crtc' hsome plane hp => ?_⟩
      · refine h.set hd hcomp ?_ hperm htyped ?_ ?_ ?_
        · rw [List.map_append, List.map_map]
          congr 1
          exact List.map_id _
        · rfl
        · refine (h.order display comp hcomp).append_disabled fun p hp => ?_
          obtain ⟨plane, _, heq⟩ := List.mem_map.mp hp
          rw [← heq]
        · intro p hp
          cases List.mem_append.mp hp with
          | inl hold => exact h.supported display comp hcomp p hold
          | inr hnew =>
              obtain ⟨plane, hplane, heq⟩ := List.mem_map.mp hnew
              refine ⟨crtc, hcrtc, ?_⟩
              rw [← heq]
              exact hsupported plane hplane
      · by_cases heq : d = display
        · rw [heq]
          show Option.map _ ((c.set display _).compositionMap display) = _
          rw [set_map_self, hcomp]
          rfl
        · show Option.map _ ((c.set display _).compositionMap d) = _
          rw [set_map_of_ne heq]
      · cases hsome
        have hnot := (List.mem_filter.mp hp).2
        simpa using hnot

theorem DisableSpec.trans {c₁ c₂ c₃ : DrmComposition F} (h : DisableSpec drm c₁ c₂)
    (h' : DisableSpec drm c₂ c₃) : DisableSpec drm c₁ c₃ :=
  ⟨List.Subset.trans h'.overlays h.overlays, fun d => (h'.types d).trans (h.types d)⟩

/-- The whole pass: no overlay plane is left for a display with a frame. -/
theorem foldlM_disableUnused_spec :
    ∀ (displays : List Int) {c : DrmComposition F}, displays ⊆ drm.displays →
      PlanesKept drm pool c → (∀ d ∈ displays, (c.compositionMap d).isSome = true) →
      ∃ c', displays.foldlM (disableUnused drm) c = some c' ∧ PlanesKept drm pool c' ∧
        DisableSpec drm c c' ∧
        ∀ d ∈ displays, ∀ comp, c.compositionMap d = some comp → comp.type = .frame →
          ∀ crtc, drm.getCrtcForDisplay d = some crtc →
            ∀ plane ∈ c'.pool.overlayPlanes, plane.getCrtcSupported crtc = false := by
  intro displays
  induction displays with
  | nil =>
      intro c _ hkept _
      exact ⟨c, rfl, hkept, ⟨List.Subset.refl _, fun d => rfl⟩, fun d hd => nomatch hd⟩
  | cons display rest ih =>
      intro c hsub hkept hsome
      obtain ⟨comp, hcomp⟩ := Option.isSome_iff_exists.mp (hsome display List.mem_cons_self)
      obtain ⟨c₁, hstep, hkept₁, hspec₁, hnone₁⟩ :=
        disableUnused_spec hkept (hsub List.mem_cons_self) hcomp
      have hsome₁ : ∀ d ∈ rest, (c₁.compositionMap d).isSome = true := by
        intro d hd
        rw [← Option.isSome_map (f := fun comp : DrmDisplayComposition F => comp.type),
          hspec₁.types d, Option.isSome_map]
        exact hsome d (List.mem_cons_of_mem display hd)
      obtain ⟨c₂, hrun, hkept₂, hspec₂, hnone₂⟩ :=
        ih (fun d hd => hsub (List.mem_cons_of_mem display hd)) hkept₁ hsome₁
      refine ⟨c₂, ?_, hkept₂, hspec₁.trans hspec₂, ?_⟩
      · rw [List.foldlM_cons, hstep]
        exact hrun
      · intro d hd e he hframe crtc hcrtc plane hplane
        cases List.mem_cons.mp hd with
        | inl heq =>
            rw [heq] at he hcrtc
            rw [hcomp] at he
            cases he
            exact hnone₁ hframe crtc hcrtc plane (hspec₂.overlays hplane)
        | inr hin =>
            have htypes := hspec₁.types d
            rw [he] at htypes
            obtain ⟨e₁, he₁, htype⟩ := Option.map_eq_some_iff.mp htypes
            exact hnone₂ d hin e₁ he₁ (htype.trans hframe) crtc hcrtc plane hplane

/-! ## New compositions -/

/-- What the calls that fill a composition leave: no plane is used yet. -/
structure Prepared (drm : DrmResources) (pool : PlanePool) (c : DrmComposition F) : Prop where
  pool : c.pool = pool
  present : ∀ d ∈ drm.displays, (c.compositionMap d).isSome = true
  crtc : ∀ d comp, c.compositionMap d = some comp → comp.crtc = drm.getCrtcForDisplay d
  planes : ∀ d comp, c.compositionMap d = some comp → comp.compositionPlanes = []

theorem Prepared.set (h : Prepared drm pool c)
    (hcrtc : comp.crtc = drm.getCrtcForDisplay display) (hplanes : comp.compositionPlanes = []) :
    Prepared drm pool (c.set display comp) := by
  refine ⟨h.pool, fun d hd => isSome_set (h.present d hd) comp, fun d e he => ?_, fun d e he => ?_⟩
  · by_cases hd : d = display
    · rw [hd, set_map_self] at he
      cases he
      rw [hd]
      exact hcrtc
    · rw [set_map_of_ne hd] at he
      exact h.crtc d e he
  · by_cases hd : d = display
    · rw [hd, set_map_self] at he
      cases he
      exact hplanes
    · rw [set_map_of_ne hd] at he
      exact h.planes d e he

theorem prepared_onDisplay {f : DrmDisplayComposition F → Int × DrmDisplayComposition F}
    (hf : ∀ comp, (f comp).2.crtc = comp.crtc ∧
      (f comp).2.compositionPlanes = comp.compositionPlanes)
    (h : Prepared drm pool c) {r : Int × DrmComposition F}
    (hr : c.onDisplay display f = some r) : Prepared drm pool r.2 := by
  obtain ⟨comp, hcomp, hr⟩ := Option.bind_eq_some_iff.mp hr
  cases hr
  obtain ⟨hcrtc, hplanes⟩ := hf comp
  exact h.set (hcrtc.trans (h.crtc display comp hcomp))
    (hplanes.trans (h.planes display comp hcomp))

theorem prepared_setLayers :
    ∀ (maps : List (DisplayLayers F)) {c : DrmComposition F}, Prepared drm pool c →
      ∀ r, setLayers drm maps c = some r → Prepared drm pool r.2 := by
  intro maps
  induction maps with
  | nil =>
      intro c h r hr
      cases hr
      exact h
  | cons map maps ih =>
      intro c h r hr
      unfold setLayers at hr
      cases hconn : drm.getConnectorForDisplay map.display with
      | none =>
          rw [hconn] at hr
          exact ih h r hr
      | some conn =>
          rw [hconn] at hr
          obtain ⟨⟨ret, c₁⟩, hstep, hr⟩ := Option.bind_eq_some_iff.mp hr
          have h₁ : Prepared drm pool c₁ := by
            refine prepared_onDisplay (fun comp => ?_) h hstep
            unfold DrmDisplayComposition.setLayers
            split
            · exact ⟨rfl, rfl⟩
            · exact ⟨rfl, rfl⟩
          dsimp only at hr
          split at hr
          · cases hr
            exact h₁
          · exact ih h₁ r hr

theorem setType_keeps (comp : DrmDisplayComposition F) (des : DrmCompositionType) :
    (comp.setType des).2.crtc = comp.crtc ∧
      (comp.setType des).2.compositionPlanes = comp.compositionPlanes := by
  unfold DrmDisplayComposition.setType
  split
  · exact ⟨rfl, rfl⟩
  · exact ⟨rfl, rfl⟩

theorem prepared_request (h : Prepared drm pool c) (req : Request F)
    {r : Int × DrmComposition F} (hr : c.request drm req = some r) : Prepared drm pool r.2 := by
  cases req with
  | setLayers maps => exact prepared_setLayers maps h r hr
  | setDpmsMode display => exact prepared_onDisplay (fun comp => setType_keeps comp _) h hr
  | setDisplayMode display => exact prepared_onDisplay (fun comp => setType_keeps comp _) h hr

theorem prepared_init (drm : DrmResources) (useOverlayPlanes : Bool) :
    Prepared drm (create (F := F) drm useOverlayPlanes).pool
      ((create (F := F) drm useOverlayPlanes).init drm) := by
  -- while the loop of `Init` runs, the displays behind it have their compositions
  have hloop : ∀ (rest : List Int) (c : DrmComposition F),
      c.pool = (create (F := F) drm useOverlayPlanes).pool →
      (∀ d comp, c.compositionMap d = some comp →
        comp.crtc = drm.getCrtcForDisplay d ∧ comp.compositionPlanes = []) →
      let c' := rest.foldl (fun c display =>
        c.set display (.init (drm.getCrtcForDisplay display))) c
      c'.pool = (create (F := F) drm useOverlayPlanes).pool ∧
      (∀ d comp, c'.compositionMap d = some comp →
        comp.crtc = drm.getCrtcForDisplay d ∧ comp.compositionPlanes = []) ∧
      ∀ d, d ∈ rest ∨ (c.compositionMap d).isSome = true →
        (c'.compositionMap d).isSome = true := by
    intro rest
    induction rest with
    | nil =>
        intro c hpool hmap
        refine ⟨hpool, hmap, fun d hd => ?_⟩
        cases hd with
        | inl h => cases h
        | inr h => exact h
    | cons display rest ih =>
        intro c hpool hmap
        obtain ⟨hpool', hmap', hsome⟩ := ih (c.set display (.init (drm.getCrtcForDisplay display)))
          hpool (fun d comp hcomp => by
            by_cases hd : d = display
            · rw [hd, set_map_self] at hcomp
              cases hcomp
              rw [hd]
              exact ⟨rfl, rfl⟩
            · rw [set_map_of_ne hd] at hcomp
              exact hmap d comp hcomp)
        refine ⟨hpool', hmap', fun d hd => hsome d ?_⟩
        by_cases heq : d = display
        · rw [heq, set_map_self]
          exact Or.inr rfl
        · cases hd with
          | inl hin =>
              cases List.mem_cons.mp hin with
              | inl h => exact absurd h heq
              | inr h => exact Or.inl h
          | inr h => exact Or.inr (isSome_set h _)
  obtain ⟨hpool, hmap, hsome⟩ := hloop drm.displays (create drm useOverlayPlanes) rfl
    (fun d comp hcomp => by cases hcomp)
  exact ⟨hpool, fun d hd => hsome d (Or.inl hd), fun d comp h => (hmap d comp h).1,
    fun d comp h => (hmap d comp h).2⟩

theorem prepared_prepare :
    ∀ (requests : List (Request F)) {c : DrmComposition F}, Prepared drm pool c →
      ∀ c', requests.foldlM (fun c r => (c.request drm r).map (·.2)) c = some c' →
        Prepared drm pool c' := by
  intro requests
  induction requests with
  | nil =>
      intro c h c' hc'
      cases hc'
      exact h
  | cons req requests ih =>
      intro c h c' hc'
      rw [List.foldlM_cons] at hc'
      obtain ⟨c₁, hstep, hrun⟩ := Option.bind_eq_some_iff.mp hc'
      obtain ⟨r, hr, heq⟩ := Option.map_eq_some_iff.mp hstep
      rw [← heq] at hrun
      exact ih (prepared_request h req hr) c' hrun

theorem typed_create (drm : DrmResources) (useOverlayPlanes : Bool) :
    (create (F := F) drm useOverlayPlanes).pool.Typed := by
  refine ⟨fun plane h => ?_, fun plane h => ?_⟩
  · exact (List.mem_filter.mp h).2
  · have htype := (List.mem_filter.mp h).2
    rw [Bool.and_eq_true, beq_iff_eq] at htype
    simp [DrmPlane.isPrimary, htype.2]

theorem nodup_create (drm : DrmResources) (useOverlayPlanes : Bool) :
    (create (F := F) drm useOverlayPlanes).pool.all.Nodup := by
  have htyped := typed_create (F := F) drm useOverlayPlanes
  refine List.nodup_append.mpr ⟨drm.planes_nodup.filter _, drm.planes_nodup.filter _, ?_⟩
  intro a ha b hb heq
  have hprimary := htyped.primary a ha
  rw [heq, htyped.overlay b hb] at hprimary
  cases hprimary

theorem Prepared.planesKept (h : Prepared drm pool c) (htyped : pool.Typed) :
    PlanesKept drm pool c := by
  have hnone : c.usedPlanes drm = [] := by
    unfold usedPlanes
    rw [List.flatMap_eq_nil_iff]
    intro d _
    unfold displayPlanes
    cases hcomp : c.compositionMap d with
    | none => rfl
    | some comp =>
        dsimp only
        rw [h.planes d comp hcomp]
        rfl
  refine ⟨?_, ?_, h.crtc, fun d comp hcomp => ?_, fun d comp hcomp p hp => ?_⟩
  · rw [hnone, h.pool]
    exact List.Perm.refl _
  · rw [h.pool]
    exact htyped
  · rw [h.planes d comp hcomp]
    exact PlaneOrder.nil
  · rw [h.planes d comp hcomp] at hp
    cases hp

/-! ## The composition after both passes -/

/-- Each plane is used once at most and by a display whose crtc it supports, the planes
of a display are in order, and every overlay plane that could show a frame is used. -/
structure PlanesExclusive (drm : DrmResources) (pool : PlanePool) (c : DrmComposition F) :
    Prop where
  once : (c.usedPlanes drm).Nodup
  supported : ∀ display ∈ drm.displays, ∀ comp, c.compositionMap display = some comp →
    ∀ p ∈ comp.compositionPlanes, ∃ crtc, drm.getCrtcForDisplay display = some crtc ∧
      p.plane.getCrtcSupported crtc = true
  order : ∀ display ∈ drm.displays, ∀ comp, c.compositionMap display = some comp →
    PlaneOrder comp.compositionPlanes
  overlays : ∀ display ∈ drm.displays, ∀ comp, c.compositionMap display = some comp →
    comp.type = .frame → ∀ crtc, drm.getCrtcForDisplay display = some crtc →
      ∀ plane ∈ pool.overlayPlanes, plane.getCrtcSupported crtc = true →
        (c.usedPlanes drm).count plane = 1

variable [Sub F] [Div F] [IntCast F] [LT F] [DecidableLT F]

/-- Whatever a composition has been filled with: when its plan succeeds, the disable pass
leaves the planes exclusive. -/
theorem plan_disableUnusedPlanes_exclusive (drm : DrmResources) (useOverlayPlanes : Bool)
    (platform : Platform) (requests : List (Request F)) (fences : Int → Int)
    (squash squash' : SquashStates) (c c' : DrmComposition F)
    (hprepare : prepare drm useOverlayPlanes requests = some c)
    (hplan : c.plan drm platform.createInstance fences squash = some (0, c', squash')) :
    ∃ c'', c'.disableUnusedPlanes drm = some c'' ∧
      PlanesExclusive drm (create (F := F) drm useOverlayPlanes).pool c'' := by
  have hprepared := prepared_prepare requests (prepared_init drm useOverlayPlanes) c hprepare
  obtain ⟨hkept, hsome⟩ := planDisplays_spec (draftStage_createInstance platform) drm.displays
    (List.Subset.refl _) drm.displays_nodup
    (hprepared.planesKept (typed_create drm useOverlayPlanes))
    (fun d _ comp hcomp => hprepared.planes d comp hcomp) hplan
  obtain ⟨c'', hrun, hkept', hspec, hnone⟩ := foldlM_disableUnused_spec drm.displays
    (List.Subset.refl _) hkept fun d hd => hsome d (hprepared.present d hd)
  have hnodup := hkept'.planes.nodup_iff.mpr (nodup_create drm useOverlayPlanes)
  have honce := (List.nodup_append.mp hnodup).1
  refine ⟨c'', hrun, honce, fun d _ => hkept'.supported d, fun d _ => hkept'.order d, ?_⟩
  intro d hd comp hcomp hframe crtc hcrtc plane hplane hsupports
  have htypes := hspec.types d
  rw [hcomp] at htypes
  obtain ⟨comp', hcomp', htype⟩ := Option.map_eq_some_iff.mp htypes.symm
  have hmem : plane ∈ c''.usedPlanes drm ++ c''.pool.all :=
    hkept'.planes.mem_iff.mpr (List.mem_append_right _ hplane)
  have hused : plane ∈ c''.usedPlanes drm := by
    cases List.mem_append.mp hmem with
    | inl h => exact h
    | inr h =>
        cases List.mem_append.mp h with
        | inl hprimary =>
            -- an overlay plane is not in the list of the primary ones
            have htrue := hkept'.typed.primary plane hprimary
            rw [(typed_create drm useOverlayPlanes).overlay plane hplane] at htrue
            cases htrue
        | inr hoverlay =>
            have hfalse := hnone d hd comp' hcomp' (htype.trans hframe) crtc hcrtc plane hoverlay
            rw [hsupports] at hfalse
            cases hfalse
  exact List.count_eq_one_of_mem honce hused

/-- An internal panel and an external display, each with a primary plane, and an overlay
plane for both. -/
def twoDisplays : DrmResources :=
  .init [primaryPlane, ⟨31, .primary, 2#32⟩, ⟨32, .overlay, 3#32⟩] (by decide)
    [(smallCrtc, 0), (⟨2, 1⟩, 1)] [⟨1, false, true, -1⟩, ⟨2, true, false, -1⟩]

/-- A frame of one layer on the panel, while the external display is switched off. -/
def panelFrame : List (Request Rat) :=
  [.setLayers [⟨0, true, [plainLayer 0#32 0#32]⟩], .setDpmsMode 1]

theorem plan_disableUnusedPlanes_exclusive_twoDisplays :
    ∃ c c' squash' c'', prepare twoDisplays true panelFrame = some c ∧
      c.plan twoDisplays Platform.nvidia.createInstance (fun _ => 0) (fun _ => none) =
        some (0, c', squash') ∧
      c'.disableUnusedPlanes twoDisplays = some c'' ∧
      PlanesExclusive twoDisplays (create (F := Rat) twoDisplays true).pool c'' := by
  have hrun : ((prepare twoDisplays true panelFrame).bind fun c =>
      (c.plan twoDisplays Platform.nvidia.createInstance (fun _ => 0) fun _ => none).map (·.1)) =
      some 0 := by decide +kernel
  obtain ⟨c, hc, hplan⟩ := Option.bind_eq_some_iff.mp hrun
  obtain ⟨⟨ret, c', squash'⟩, hplan, hret⟩ := Option.map_eq_some_iff.mp hplan
  cases hret
  obtain ⟨c'', hdisable, hexclusive⟩ := plan_disableUnusedPlanes_exclusive twoDisplays true .nvidia
    panelFrame (fun _ => 0) (fun _ => none) squash' c c' hc hplan
  exact ⟨c, c', squash', c'', hc, hplan, hdisable, hexclusive⟩

end DrmComposition

end DragonDevice.Hwc
