/-
  Hwc/PlannerPlacement.lean --- where the planner puts the layers of a frame.

  The planner starts from a draft without layers.  Such a draft has room for all
  layers unless the squash plane was the only one; then nothing can be placed any
  more, which the planner logs and reports as success.
-/
import DragonDevice.Hwc.PlanStages

set_option autoImplicit false

namespace DragonDevice.Hwc

open DragonDevice.Lib

variable {F : Type}

/-! ## From the start to the composition -/

/-- The draft the stages start from. -/
def startDraft (layerCount : Nat) (planes : List DrmPlane) : Draft :=
  if planes.length < layerCount then
    match planes.getLast? with
    | some plane => ⟨[], some (plane, []), planes.dropLast⟩
    | none => ⟨[], none, planes⟩
  else ⟨[], none, planes⟩

theorem reservePrecomp_eq (crtc : DrmCrtc) (layerCount : Nat) (planes : List DrmPlane) :
    reservePrecomp crtc layerCount planes = (startDraft layerCount planes).provision crtc := by
  rw [reservePrecomp, startDraft]
  split
  · cases planes.getLast? with
    | none => rfl
    | some plane => rfl
  · rfl

theorem startDraft_indices (layerCount : Nat) (planes : List DrmPlane) :
    (startDraft layerCount planes).indices = [] := by
  rw [startDraft]
  split
  · cases planes.getLast? with
    | none => rfl
    | some plane => rfl
  · rfl

theorem startDraft_allPlanes (layerCount : Nat) (planes : List DrmPlane) :
    (startDraft layerCount planes).allPlanes.Perm planes := by
  rw [startDraft]
  split
  · cases hlast : planes.getLast? with
    | none => exact List.Perm.refl _
    | some plane => exact perm_dropLast hlast
  · exact List.Perm.refl _

/-- Any plane at all is enough to start with room for every layer. -/
theorem startDraft_room {layerCount : Nat} {planes : List DrmPlane}
    (h : planes ≠ [] ∨ layerCount = 0) : (startDraft layerCount planes).Room layerCount := by
  rw [startDraft]
  split
  · rename_i hlt
    cases hlast : planes.getLast? with
    | none =>
        have hnil : planes = [] := List.getLast?_eq_none_iff.mp hlast
        cases h with
        | inl hne => exact absurd hnil hne
        | inr hzero =>
            rw [hzero] at hlt
            exact absurd hlt (Nat.not_lt_zero _)
    | some plane => exact Or.inl rfl
  · rename_i hle
    exact Or.inr (Nat.le_of_not_lt hle)

section Planner

variable [Sub F] [Div F] [IntCast F] [LT F] [DecidableLT F]

/-- The draft the stages leave. -/
def finalDraft (layers : LayerMap F) (useSquashFb : Bool) (usable : List DrmPlane) : Draft :=
  (planDraft layers
    (startDraft layers.entries.length (reserveSquash useSquashFb usable).2)).2

/-- The squash plane as a composition plane. -/
def squashPlanes (crtc : DrmCrtc) (useSquashFb : Bool) (usable : List DrmPlane) :
    List DrmCompositionPlane :=
  (reserveSquash useSquashFb usable).1.toList.map fun plane => ⟨.squash, plane, some crtc, []⟩

/-- A composition is the final draft with the squash plane behind it. -/
theorem provisionPlanes_eq (layers : LayerMap F) (useSquashFb : Bool) (crtc : DrmCrtc)
    (primaryPlanes overlayPlanes : List DrmPlane) :
    provisionPlanes nvStages layers useSquashFb crtc primaryPlanes overlayPlanes =
      if getUsablePlanes crtc primaryPlanes overlayPlanes = [] then (-enodev, [])
      else (0, (finalDraft layers useSquashFb
          (getUsablePlanes crtc primaryPlanes overlayPlanes)).composition crtc ++
        squashPlanes crtc useSquashFb (getUsablePlanes crtc primaryPlanes overlayPlanes)) := by
  simp only [provisionPlanes]
  split
  · rfl
  · rw [reservePrecomp_eq, runStages_nvStages, finalDraft, squashPlanes]
    cases (reserveSquash useSquashFb (getUsablePlanes crtc primaryPlanes overlayPlanes)).1 with
    | none => simp [Draft.provision]
    | some plane => simp [Draft.provision]

end Planner

theorem flatMap_composition (crtc : DrmCrtc) (d : Draft) :
    (d.composition crtc).flatMap (·.sourceLayers) = d.indices := by
  rw [Draft.composition, List.flatMap_append, Draft.indices]
  congr 1
  · rw [Draft.dedicatedIndices]
    induction d.dedicated with
    | nil => rfl
    | cons p l ih =>
        rw [List.map_cons, List.flatMap_cons, ih]
        rfl
  · rw [Draft.precompIndices]
    cases d.precomp with
    | none => rfl
    | some p => simp [precompPlane]

/-! ## Every unprotected layer has its place -/

/-- Every unprotected layer is in exactly one plane, and no layer is placed twice. -/
structure PlacesAll (layers : LayerMap F) (composition : List DrmCompositionPlane) : Prop where
  once : ∀ e ∈ layers.entries, e.2.protectedUsage = false →
    (composition.filter fun p => decide (e.1 ∈ p.sourceLayers)).length = 1
  nodup : (composition.flatMap (·.sourceLayers)).Nodup

theorem filter_mem_length_eq_one {i : Nat} :
    ∀ {composition : List DrmCompositionPlane},
      (composition.flatMap (·.sourceLayers)).Nodup →
      i ∈ composition.flatMap (·.sourceLayers) →
      (composition.filter fun p => decide (i ∈ p.sourceLayers)).length = 1 := by
  intro composition
  induction composition with
  | nil => intro _ hi; cases hi
  | cons p rest ih =>
      intro hnodup hi
      rw [List.flatMap_cons] at hnodup hi
      obtain ⟨_, hrest, hdisj⟩ := List.nodup_append.mp hnodup
      by_cases hp : i ∈ p.sourceLayers
      · have hnone : rest.filter (fun q => decide (i ∈ q.sourceLayers)) = [] := by
          rw [List.filter_eq_nil_iff]
          intro q hq hiq
          exact hdisj i hp i (List.mem_flatMap.mpr ⟨q, hq, of_decide_eq_true hiq⟩) rfl
        rw [List.filter_cons_of_pos (by simpa using hp), hnone]
        rfl
      · rw [List.filter_cons_of_neg (by simpa using hp)]
        cases List.mem_append.mp hi with
        | inl h => exact absurd h hp
        | inr h => exact ih hrest h

theorem keys_nodup (layers : LayerMap F) : layers.keys.Nodup :=
  layers.keys_sorted.imp fun h => Nat.ne_of_lt h

variable [Sub F] [Div F] [IntCast F] [LT F] [DecidableLT F]

theorem finalDraft_spec (layers : LayerMap F) (useSquashFb : Bool) (usable : List DrmPlane) :
    StageSpec layers
      (startDraft layers.entries.length (reserveSquash useSquashFb usable).2)
      (planDraft layers
        (startDraft layers.entries.length (reserveSquash useSquashFb usable).2)).1
      (finalDraft layers useSquashFb usable) :=
  stageSpec_planDraft layers _

/-- No layer is placed twice, whatever the planes. -/
theorem finalDraft_indices_nodup (layers : LayerMap F) (useSquashFb : Bool)
    (usable : List DrmPlane) : (finalDraft layers useSquashFb usable).indices.Nodup := by
  have hsub := (finalDraft_spec layers useSquashFb usable).indices
  rw [startDraft_indices, List.append_nil] at hsub
  obtain ⟨l, hperm, hl⟩ := hsub
  have hnodup := hperm.nodup_iff.mp (hl.nodup (keys_nodup layers))
  exact (List.nodup_append.mp hnodup).2.1

/-- With room every unprotected layer is placed. -/
theorem finalDraft_placed {layers : LayerMap F} {useSquashFb : Bool} {usable : List DrmPlane}
    (hroom : (reserveSquash useSquashFb usable).2 ≠ [] ∨ layers.entries.length = 0)
    {e : Nat × DrmHwcLayer F} (he : e ∈ layers.entries) (hplain : e.2.protectedUsage = false) :
    e.1 ∈ (finalDraft layers useSquashFb usable).indices := by
  have hstart := startDraft_room hroom
  have hspec := finalDraft_spec layers useSquashFb usable
  have hempty : (planDraft layers (startDraft layers.entries.length
      (reserveSquash useSquashFb usable).2)).1.entries = [] := by
    have hlimits := (stageSpec_limitsStage layers _).room hstart
    have hrotated := (stageSpec_rotatedStage _ _).room hlimits
    have hprotected := (stageSpec_protectedStage _ _).room hrotated
    exact greedyStage_empties ((stageSpec_precompStage _ _).room hprotected)
  cases hspec.placed hstart e he hplain with
  | inl hin => exact hin
  | inr hleft =>
      rw [hempty] at hleft
      cases hleft

/-- A draft without any plane has placed nothing. -/
theorem indices_of_allPlanes_nil {d : Draft} (h : d.allPlanes = []) : d.indices = [] := by
  rw [Draft.allPlanes, List.append_eq_nil_iff, List.append_eq_nil_iff, List.map_eq_nil_iff] at h
  obtain ⟨⟨hded, hpre⟩, _⟩ := h
  have hprecomp : d.precomp = none := by
    cases hp : d.precomp with
    | none => rfl
    | some p =>
        rw [hp] at hpre
        cases hpre
  rw [Draft.indices, Draft.dedicatedIndices, Draft.precompIndices, hded, hprecomp]
  rfl

/-- The squash plane takes the only plane there is. -/
def SquashTakesAll (useSquashFb : Bool) (usable : List DrmPlane) : Prop :=
  useSquashFb = true ∧ usable.length = 1

theorem reserveSquash_eq_nil_iff {useSquashFb : Bool} {usable : List DrmPlane}
    (h : usable ≠ []) :
    (reserveSquash useSquashFb usable).2 = [] ↔ SquashTakesAll useSquashFb usable := by
  rw [reserveSquash, SquashTakesAll]
  cases useSquashFb with
  | false => simp [h]
  | true =>
      have hpos : 0 < usable.length := List.length_pos_iff.mpr h
      have hlen : usable.dropLast = [] ↔ usable.length = 1 := by
        rw [← List.length_eq_zero_iff, List.length_dropLast]
        omega
      simpa using hlen

/-- A successful plan places every unprotected layer once, except when the squash plane
takes the only plane away from a layer. -/
theorem provisionPlanes_placesAll_iff (layers : LayerMap F) (useSquashFb : Bool)
    (crtc : DrmCrtc) (primaryPlanes overlayPlanes : List DrmPlane)
    (hret : (provisionPlanes nvStages layers useSquashFb crtc primaryPlanes overlayPlanes).1 = 0) :
    PlacesAll layers
        (provisionPlanes nvStages layers useSquashFb crtc primaryPlanes overlayPlanes).2 ↔
      ¬ (useSquashFb = true ∧ (getUsablePlanes crtc primaryPlanes overlayPlanes).length = 1 ∧
        ∃ e ∈ layers.entries, e.2.protectedUsage = false) := by
  rw [provisionPlanes_eq] at hret ⊢
  generalize getUsablePlanes crtc primaryPlanes overlayPlanes = usable at hret ⊢
  by_cases husable : usable = []
  · rw [if_pos husable] at hret
    cases hret
  rw [if_neg husable]
  have hflat : ((finalDraft layers useSquashFb usable).composition crtc ++
      squashPlanes crtc useSquashFb usable).flatMap (·.sourceLayers) =
      (finalDraft layers useSquashFb usable).indices := by
    rw [List.flatMap_append, flatMap_composition, squashPlanes]
    cases (reserveSquash useSquashFb usable).1 with
    | none => simp
    | some plane => simp
  have hnodup := finalDraft_indices_nodup layers useSquashFb usable
  refine ⟨fun hplaces hbad => ?_, fun hgood => ⟨fun e he hplain => ?_, by rw [hflat]; exact hnodup⟩⟩
  · obtain ⟨hsquash, hone, e, he, hplain⟩ := hbad
    -- without a plane the final draft is empty, so no plane has the layer
    have hnil := (reserveSquash_eq_nil_iff husable).mpr ⟨hsquash, hone⟩
    have hperm := (finalDraft_spec layers useSquashFb usable).planes.trans
      (startDraft_allPlanes _ _)
    rw [hnil] at hperm
    have hindices := indices_of_allPlanes_nil hperm.eq_nil
    have honce := hplaces.once e he hplain
    obtain ⟨p, hp⟩ := List.exists_mem_of_length_pos (by rw [honce]; exact Nat.one_pos)
    have hmem := List.mem_filter.mp hp
    have hin : e.1 ∈ (finalDraft layers useSquashFb usable).indices := by
      rw [← hflat]
      exact List.mem_flatMap.mpr ⟨p, hmem.1, of_decide_eq_true hmem.2⟩
    rw [hindices] at hin
    cases hin
  · refine filter_mem_length_eq_one (by rw [hflat]; exact hnodup) ?_
    rw [hflat]
    refine finalDraft_placed (Or.inl ?_) he hplain
    intro hnil
    obtain ⟨hsquash, hone⟩ := (reserveSquash_eq_nil_iff husable).mp hnil
    exact hgood ⟨hsquash, hone, e, he, hplain⟩

/-! ## One plane -/

/-- An opaque layer of 100 by 100 pixels, shown unscaled. -/
def plainLayer (usage transform : BitVec 32) : DrmHwcLayer Rat where
  sfHandle := 1
  grallocBufferUsage := usage
  format := .nv12
  transform := transform
  blending := .none
  sourceCrop := ⟨0, 0, 100, 100⟩
  displayFrame := ⟨0, 0, 100, 100⟩

def smallCrtc : DrmCrtc := ⟨1, 0⟩

def primaryPlane : DrmPlane := ⟨30, .primary, 1#32⟩

/-- A frame of one unprotected layer. -/
def oneLayer : LayerMap Rat := ⟨[(0, plainLayer 0#32 0#32)], by simp⟩

/-- With the squash framebuffer on the only plane the layer is nowhere, and the plan is
reported as a success. -/
theorem provisionPlanes_loses_layer :
    (provisionPlanes nvStages oneLayer true smallCrtc [primaryPlane] []).1 = 0 ∧
      ¬ PlacesAll oneLayer
        (provisionPlanes nvStages oneLayer true smallCrtc [primaryPlane] []).2 := by
  refine ⟨by decide +kernel, fun hplaces => ?_⟩
  have honce := hplaces.once (0, plainLayer 0#32 0#32) (by simp [oneLayer]) (by decide)
  exact absurd honce (by decide +kernel)

def overlayAt (id : Nat) : DrmPlane := ⟨id, .overlay, 1#32⟩

/-- A protected layer, a plain one, one that is to be shown at a tenth of its width, and a plain
one above that. -/
def fourLayers : LayerMap Rat :=
  ⟨[(0, plainLayer grallocUsageProtected 0#32), (1, plainLayer 0#32 0#32),
    (2, { plainLayer 0#32 0#32 with displayFrame := ⟨0, 0, 10, 100⟩ }),
    (3, plainLayer 0#32 0#32)], by simp⟩

/-- On four planes, one of them for the squash framebuffer, two layers have a plane and two share
the precomposition. -/
theorem provisionPlanes_placesAll_fourLayers :
    PlacesAll fourLayers (provisionPlanes nvStages fourLayers true smallCrtc [primaryPlane]
        [overlayAt 31, overlayAt 32, overlayAt 33]).2 ∧
      (provisionPlanes nvStages fourLayers true smallCrtc [primaryPlane]
        [overlayAt 31, overlayAt 32, overlayAt 33]).2.map (·.sourceLayers) =
        [[0], [1], [2, 3], []] := by
  refine ⟨(provisionPlanes_placesAll_iff fourLayers true smallCrtc [primaryPlane]
    [overlayAt 31, overlayAt 32, overlayAt 33] (by decide +kernel)).mpr ?_,
    by decide +kernel⟩
  rintro ⟨_, hone, _⟩
  revert hone
  decide +kernel

end DragonDevice.Hwc
