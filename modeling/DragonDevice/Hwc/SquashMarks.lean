/-
  Hwc/SquashMarks.lean --- what `Plan` does to the marks of the squash state.

  A frame without a change of geometry marks the regions that are stable.  `MarkStep`
  says it region by region; from it follows that the frame either renders just what it
  marks, or that neither the marks nor the buffers behind them are new.
-/
import DragonDevice.Hwc.SeparateLayers
import DragonDevice.Hwc.SquashSystem

set_option autoImplicit false

namespace DragonDevice.Hwc

variable {F : Type}

/-! ## Changed layers -/

namespace SquashState

/-- One turn of the loop over the layers. -/
def markChanged (changed : BitVec 64) (e : (DrmHwcLayer F × Nat) × Nat) : Option (BitVec 64) :=
  if layerChanged e.1.1 e.1.2 then
    if e.2 < kMaxLayers then some (changed ||| (1#64 <<< e.2)) else none
  else some changed

theorem changedLayers_eq (squash : SquashState) (layers : List (DrmHwcLayer F)) :
    squash.changedLayers layers =
      ((layers.zip squash.lastHandles).zipIdx).foldlM markChanged 0#64 := rfl

theorem markChanged_spec (acc : BitVec 64) (e : DrmHwcLayer F × Nat) (k : Nat) :
    (∃ acc', markChanged acc (e, k) = some acc' ∧ ∀ j, acc'.getLsbD j = true ↔
      acc.getLsbD j = true ∨ layerChanged e.1 e.2 = true ∧ j = k) ∨
    markChanged acc (e, k) = none ∧ layerChanged e.1 e.2 = true ∧ 64 ≤ k := by
  unfold markChanged
  cases hchanged : layerChanged e.1 e.2 with
  | false => exact Or.inl ⟨acc, by simp, fun j => by simp⟩
  | true =>
      by_cases hk : k < kMaxLayers
      · refine Or.inl ⟨acc ||| (1#64 <<< k), by simp [hk], fun j => ?_⟩
        simp [getLsbD_bit hk]
      · exact Or.inr ⟨by simp [hk], rfl, Nat.le_of_not_lt hk⟩

/-- The loop adds the bits of the layers that changed, and throws at one that has no bit. -/
theorem foldlM_markChanged :
    ∀ (l : List (DrmHwcLayer F × Nat)) (k : Nat) (acc : BitVec 64),
      (∃ changed, (l.zipIdx k).foldlM markChanged acc = some changed ∧
        ∀ j, changed.getLsbD j = true ↔ acc.getLsbD j = true ∨
          ∃ i e, l[i]? = some e ∧ layerChanged e.1 e.2 = true ∧ j = k + i) ∨
      (l.zipIdx k).foldlM markChanged acc = none ∧
        ∃ i e, l[i]? = some e ∧ layerChanged e.1 e.2 = true ∧ 64 ≤ k + i := by
  intro l
  induction l with
  | nil =>
      intro k acc
      exact Or.inl ⟨acc, rfl, fun j => by simp⟩
  | cons e l ih =>
      intro k acc
      rw [List.zipIdx_cons, List.foldlM_cons]
      cases markChanged_spec acc e k with
      | inr hthrows =>
          obtain ⟨hnone, hchanged, hk⟩ := hthrows
          rw [hnone]
          exact Or.inr ⟨rfl, 0, e, rfl, hchanged, hk⟩
      | inl hmarks =>
          obtain ⟨acc', hsome, hfirst⟩ := hmarks
          rw [hsome, Option.bind_eq_bind, Option.bind_some]
          cases ih (k + 1) acc' with
          | inr hthrows =>
              obtain ⟨hnone, i, e', he', hchanged, hk⟩ := hthrows
              exact Or.inr ⟨hnone, i + 1, e', he', hchanged, by omega⟩
          | inl hrest =>
              obtain ⟨changed, hrun, hbits⟩ := hrest
              refine Or.inl ⟨changed, hrun, fun j => ?_⟩
              rw [hbits j, hfirst j, or_assoc]
              refine or_congr_right ⟨fun h => ?_, fun h => ?_⟩
              · cases h with
                | inl hhead => exact ⟨0, e, rfl, hhead.1, hhead.2⟩
                | inr htail =>
                    obtain ⟨i, e', he', hchanged, hj⟩ := htail
                    exact ⟨i + 1, e', he', hchanged, by omega⟩
              · obtain ⟨i, e', he', hchanged, hj⟩ := h
                cases i with
                | zero =>
                    cases he'
                    exact Or.inl ⟨hchanged, hj⟩
                | succ i => exact Or.inr ⟨i, e', he', hchanged, by omega⟩

theorem layerChanged_iff {layer : DrmHwcLayer F} {handle : Nat} :
    layerChanged layer handle = true ↔ layer.protectedUsage = true ∨ handle ≠ layer.sfHandle := by
  rw [layerChanged, Bool.or_eq_true, bne_iff_ne]

/-- The layer counts as changed when its buffer was another one before. -/
def LayerChangedAt (squash : SquashState) (layers : List (DrmHwcLayer F)) (i : Nat) : Prop :=
  ∃ layer handle, layers[i]? = some layer ∧ squash.lastHandles[i]? = some handle ∧
    (layer.protectedUsage = true ∨ handle ≠ layer.sfHandle)

theorem zip_changed_iff {squash : SquashState} {layers : List (DrmHwcLayer F)} {i : Nat} :
    (∃ e, (layers.zip squash.lastHandles)[i]? = some e ∧ layerChanged e.1 e.2 = true) ↔
      squash.LayerChangedAt layers i := by
  refine ⟨fun h => ?_, fun h => ?_⟩
  · obtain ⟨e, he, hchanged⟩ := h
    obtain ⟨hlayer, hhandle⟩ := List.getElem?_zip_eq_some.mp he
    exact ⟨e.1, e.2, hlayer, hhandle, layerChanged_iff.mp hchanged⟩
  · obtain ⟨layer, handle, hlayer, hhandle, hchanged⟩ := h
    exact ⟨(layer, handle), List.getElem?_zip_eq_some.mpr ⟨hlayer, hhandle⟩,
      layerChanged_iff.mpr hchanged⟩

/-- The bit set of the changed layers, unless one of them has no bit. -/
theorem changedLayers_spec (squash : SquashState) (layers : List (DrmHwcLayer F)) :
    (∃ changed, squash.changedLayers layers = some changed ∧
      ∀ i, changed.getLsbD i = true ↔ squash.LayerChangedAt layers i) ∨
    squash.changedLayers layers = none ∧ ∃ i, squash.LayerChangedAt layers i ∧ 64 ≤ i := by
  rw [changedLayers_eq]
  cases foldlM_markChanged (layers.zip squash.lastHandles) 0 0#64 with
  | inl hsome =>
      obtain ⟨changed, hrun, hbits⟩ := hsome
      refine Or.inl ⟨changed, hrun, fun i => ?_⟩
      rw [hbits i, BitVec.getLsbD_zero, ← zip_changed_iff]
      refine ⟨fun h => ?_, fun h => Or.inr ?_⟩
      · obtain ⟨j, e, he, hchanged, hij⟩ := h.resolve_left Bool.false_ne_true
        rw [Nat.zero_add] at hij
        exact ⟨e, by rw [hij]; exact he, hchanged⟩
      · obtain ⟨e, he, hchanged⟩ := h
        exact ⟨i, e, he, hchanged, (Nat.zero_add i).symm⟩
  | inr hnone =>
      obtain ⟨hrun, i, e, he, hchanged, hi⟩ := hnone
      exact Or.inr ⟨hrun, i, zip_changed_iff.mp ⟨e, he, hchanged⟩, by omega⟩

/-- A layer whose bit is not set has the buffer it had. -/
theorem handle_of_changedLayers {squash : SquashState} {layers : List (DrmHwcLayer F)}
    {changed : BitVec 64} (h : squash.changedLayers layers = some changed)
    (hlength : layers.length = squash.lastHandles.length) {i : Nat}
    (hbit : changed.getLsbD i = false) :
    squash.lastHandles[i]? = (layers.map (·.sfHandle))[i]? := by
  cases squash.changedLayers_spec layers with
  | inr hnone =>
      rw [hnone.1] at h
      cases h
  | inl hsome =>
      obtain ⟨changed', hchanged', hbits⟩ := hsome
      rw [h] at hchanged'
      cases hchanged'
      by_cases hi : i < layers.length
      · have hi' : i < squash.lastHandles.length := by omega
        have hlayer := List.getElem?_eq_getElem hi
        have hhandle := List.getElem?_eq_getElem hi'
        rw [hhandle, List.getElem?_map, hlayer]
        by_contra hne
        have hset := (hbits i).mpr ⟨_, _, hlayer, hhandle, Or.inr fun heq => hne (by rw [heq]; rfl)⟩
        rw [hbit] at hset
        cases hset
      · rw [List.getElem?_eq_none (by omega), List.getElem?_eq_none (by simp; omega)]

end SquashState

/-! ## Marking -/

/-- A frame without a change of geometry, region by region. -/
structure MarkStep (squash : SquashState) (layers : List (DrmHwcLayer F)) (plan : SquashPlan)
    (squash' : SquashState) (mark : SquashRegion → Bool) (history : SquashRegion → BitVec 6) :
    Prop where
  next : squash.nextMarks layers = some (squash.regions.map mark)
  regions : squash'.regions = squash.regions.map fun region =>
    { region with changeHistory := history region, squashed := mark region }
  plan : plan = squashPlanOf layers.length squash'.regions (squash.regions.map mark)
    ((squash.regions.map fun region => region.squashed != mark region).any id)
  stable : ∀ region, mark region = true → squash.isStable region = true
  handles : layers.length = squash.lastHandles.length →
    squash'.lastHandles = layers.map (·.sfHandle)
  kept : layers.length = squash.lastHandles.length → ∀ region, mark region = true →
    ∀ i, region.layerRefs.getLsbD i = true →
      squash.lastHandles[i]? = (layers.map (·.sfHandle))[i]?

theorem zipWith_map_map {α β γ δ : Type} (g : β → γ → δ) (f : α → β) (f' : α → γ) (l : List α) :
    List.zipWith g (l.map f) (l.map f') = l.map fun a => g (f a) (f' a) := by
  rw [List.zipWith_map, List.zipWith_self]

namespace SquashState

variable {squash : SquashState} {layers : List (DrmHwcLayer F)} {changedRegions : List Bool}

theorem generateHistory_spec (h : squash.generateHistory layers = some changedRegions) :
    ∃ changed : SquashRegion → Bool, changedRegions = squash.regions.map changed ∧
      (layers.length = squash.lastHandles.length → ∀ region, changed region = false →
        ∀ i, region.layerRefs.getLsbD i = true →
          squash.lastHandles[i]? = (layers.map (·.sfHandle))[i]?) := by
  unfold generateHistory at h
  by_cases hlength : layers.length ≠ squash.lastHandles.length
  · rw [if_pos hlength] at h
    cases h
    exact ⟨fun _ => false, rfl, fun heq => absurd heq hlength⟩
  · rw [if_neg hlength] at h
    obtain ⟨changed, hchanged, h⟩ := Option.bind_eq_some_iff.mp h
    cases h
    refine ⟨_, rfl, fun heq region hregion i hi => ?_⟩
    refine handle_of_changedLayers hchanged heq ?_
    have hzero : region.layerRefs &&& changed = 0#64 := bne_eq_false_iff_eq.mp hregion
    have hbit : (region.layerRefs &&& changed).getLsbD i = false := by
      rw [hzero]
      exact BitVec.getLsbD_zero
    rwa [BitVec.getLsbD_and, hi, Bool.true_and] at hbit

theorem stableRegions_map (squash : SquashState) (changed : SquashRegion → Bool) :
    squash.stableRegionsWithMarginalHistory (squash.regions.map changed) =
      squash.regions.map fun region => !changed region && squash.isStable region := by
  unfold stableRegionsWithMarginalHistory
  rw [List.zipWith_map_right, List.zipWith_self]

/-- `RecordHistory` leaves everything but the histories and the buffers. -/
theorem recordHistory_spec (squash : SquashState) (layers : List (DrmHwcLayer F))
    (changed : SquashRegion → Bool) :
    ∃ history : SquashRegion → BitVec 6,
      (squash.recordHistory layers (squash.regions.map changed)).regions =
        (squash.regions.map fun region => { region with changeHistory := history region }) ∧
      (layers.length = squash.lastHandles.length →
        (squash.recordHistory layers (squash.regions.map changed)).lastHandles =
          layers.map (·.sfHandle)) := by
  unfold recordHistory
  by_cases hlength : layers.length ≠ squash.lastHandles.length
  · rw [if_pos hlength]
    exact ⟨fun region => region.changeHistory, (List.map_id _).symm, fun heq => absurd heq hlength⟩
  · rw [if_neg hlength, if_neg (by rw [List.length_map]; exact fun h => h rfl)]
    refine ⟨fun region => (region.changeHistory <<< 1) ||| (if changed region then 1#6 else 0#6),
      ?_, fun _ => rfl⟩
    dsimp only
    rw [List.zipWith_map_right, List.zipWith_self]

theorem recordAndCompareSquashed_spec {regions : List SquashRegion}
    {update : SquashRegion → SquashRegion} (hregions : squash.regions = regions.map update)
    (mark : SquashRegion → Bool) :
    squash.recordAndCompareSquashed (regions.map mark) =
      ((regions.map fun region => (update region).squashed != mark region).any id,
        { squash with
          regions := regions.map fun region =>
            { update region with squashed := mark region } }) := by
  unfold recordAndCompareSquashed
  rw [if_neg (by rw [hregions, List.length_map, List.length_map]; exact fun h => h rfl), hregions,
    zipWith_map_map, zipWith_map_map]

end SquashState

/-- `Plan` marks the regions that are stable and not changed. -/
theorem planSquash_markStep {squash squash' : SquashState} {layers : List (DrmHwcLayer F)}
    {plan : SquashPlan} (h : planSquash squash false layers = some (plan, squash')) :
    ∃ mark history, MarkStep squash layers plan squash' mark history := by
  unfold planSquash at h
  rw [if_neg Bool.false_ne_true] at h
  obtain ⟨changedRegions, hchanges, h⟩ := Option.bind_eq_some_iff.mp h
  obtain ⟨changed, hchanged, hkept⟩ := SquashState.generateHistory_spec hchanges
  rw [hchanged] at hchanges h
  obtain ⟨history, hregions, hhandles⟩ := squash.recordHistory_spec layers changed
  dsimp only at h
  rw [squash.stableRegions_map changed, SquashState.recordAndCompareSquashed_spec hregions] at h
  cases h
  refine ⟨fun region => !changed region && squash.isStable region, history, ?_, rfl, rfl, ?_,
    hhandles, ?_⟩
  · unfold SquashState.nextMarks
    rw [hchanges, Option.map_some, squash.stableRegions_map changed]
  · exact fun region hmark => (Bool.and_eq_true_iff.mp hmark).2
  · intro hlength region hmark
    have hsame := (Bool.and_eq_true_iff.mp hmark).1
    exact hkept hlength region (by simpa using hsame)

/-! ## What is rendered and what is kept -/

/-- `render_squash`: some region is marked that was not, or the other way around. -/
theorem SquashState.render_iff (squash : SquashState) (mark : SquashRegion → Bool) :
    (squash.regions.map fun region => region.squashed != mark region).any id = true ↔
      squash.regions.map mark ≠ squash.marks := by
  unfold marks
  rw [List.any_eq_true, Ne, List.map_inj_left]
  refine ⟨fun hany hsame => ?_, fun hdiffer => ?_⟩
  · obtain ⟨b, hb, htrue⟩ := hany
    obtain ⟨region, hregion, hne⟩ := List.mem_map.mp hb
    rw [hsame region hregion, bne_self_eq_false] at hne
    rw [← hne] at htrue
    exact absurd htrue Bool.false_ne_true
  · obtain ⟨region, hregion⟩ := not_forall.mp hdiffer
    obtain ⟨hmem, hne⟩ := not_forall.mp hregion
    exact ⟨_, List.mem_map.mpr ⟨region, hmem, rfl⟩, bne_iff_ne.mpr (Ne.symm hne)⟩

namespace MarkStep

variable {squash squash' : SquashState} {layers : List (DrmHwcLayer F)} {plan : SquashPlan}
  {mark : SquashRegion → Bool} {history : SquashRegion → BitVec 6}
  (h : MarkStep squash layers plan squash' mark history)

include h

/-- The framebuffer is used when a region is marked. -/
theorem useSquash_iff : plan.useSquashFramebuffer = true ↔ true ∈ squash.regions.map mark := by
  rw [h.plan]
  unfold squashPlanOf
  rw [List.any_eq_true]
  refine ⟨fun hany => ?_, fun hmem => ⟨true, hmem, rfl⟩⟩
  obtain ⟨b, hb, htrue⟩ := hany
  rw [show b = true from htrue] at hb
  exact hb

theorem filter_squashed : squash'.regions.filter (·.squashed) =
    (squash.regions.filter mark).map fun region =>
      { region with changeHistory := history region, squashed := mark region } := by
  rw [h.regions, List.filter_map]
  rfl

theorem marked_eq_nil_iff : squash'.marked = [] ↔ true ∉ squash.regions.map mark := by
  unfold SquashState.marked
  rw [List.map_eq_nil_iff, h.filter_squashed, List.map_eq_nil_iff, List.filter_eq_nil_iff]
  refine ⟨fun hnone hmem => ?_, fun hnone region hregion hmark => ?_⟩
  · obtain ⟨region, hregion, hmark⟩ := List.mem_map.mp hmem
    exact hnone region hregion hmark
  · exact hnone (List.mem_map.mpr ⟨region, hregion, hmark⟩)

theorem squashRegions_eq : plan.squashRegions =
    if squash.regions.map mark ≠ squash.marks then
      (squash'.regions.filter (·.squashed)).map fun region =>
        ⟨region.rect, regionLayers layers.length region⟩
    else [] := by
  have hstable : ((squash'.regions.zip (squash.regions.map mark)).filterMap fun e =>
      if e.2 then some e.1 else none) = squash'.regions.filter (·.squashed) := by
    rw [h.filter_squashed, h.regions, List.zip_map', List.filterMap_map, ← List.filterMap_eq_map,
      List.filterMap_filter]
    rfl
  rw [h.plan, ← hstable]
  show (if _ then _ else _) = _
  by_cases hrender : squash.regions.map mark ≠ squash.marks
  · rw [if_pos hrender, if_pos ((squash.render_iff mark).mpr hrender)]
  · rw [if_neg hrender, if_neg fun hany => hrender ((squash.render_iff mark).mp hany)]

/-- What is rendered is what is marked. -/
theorem renderedContent_eq (hlength : layers.length = squash.lastHandles.length)
    (hrender : squash.regions.map mark ≠ squash.marks) :
    renderedContent layers plan.squashRegions = squash'.marked := by
  unfold renderedContent SquashState.marked
  rw [h.squashRegions_eq, if_pos hrender, List.map_map, h.handles hlength, List.length_map]
  refine List.map_congr_left fun region _ => ?_
  simp only [Function.comp_apply, List.getElem?_map]

/-- With the same marks the marked regions have the buffers they had. -/
theorem marked_eq (hlength : layers.length = squash.lastHandles.length)
    (hsame : squash.regions.map mark = squash.marks) : squash'.marked = squash.marked := by
  have hfilter : squash.regions.filter (·.squashed) = squash.regions.filter mark := by
    refine List.filter_congr fun region hregion => ?_
    exact (List.map_inj_left.mp hsame region hregion).symm
  unfold SquashState.marked
  rw [h.filter_squashed, hfilter, List.map_map, h.handles hlength, List.length_map, hlength]
  refine List.map_congr_left fun region hregion => ?_
  refine congrArg (DrawnRegion.mk region.rect) (List.map_congr_left fun i hi => ?_)
  have hbit : region.layerRefs.getLsbD i = true := (List.mem_filter.mp hi).2
  rw [h.kept hlength region (List.mem_filter.mp hregion).2 i hbit]

end MarkStep

end DragonDevice.Hwc
