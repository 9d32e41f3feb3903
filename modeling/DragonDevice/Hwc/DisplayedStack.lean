/-
  Hwc/DisplayedStack.lean --- what a planned frame shows at a point.

  Below lie the dedicated planes in their order, above them the precomp plane with
  what has been rendered into it.  The order of the plan and the holes of the
  precomposition together make this the stack of the layers.
-/
import DragonDevice.Hwc.PlanOrder
import DragonDevice.Hwc.SeparateLayers
import Mathlib.Data.List.Sort

set_option autoImplicit false

namespace DragonDevice.Hwc

open DragonDevice.Lib

variable {F : Type}

/-! ## The stack at a point -/

instance (layers : List (DrmHwcLayer F)) (x y : Int) (i : Nat) :
    Decidable (FrameCovers layers x y i) :=
  match h : layers[i]? with
  | some layer => decidable_of_iff (layer.displayFrame.Contains x y) (by simp [FrameCovers, h])
  | none => isFalse (by simp [FrameCovers, h])

/-- The layers with a plane of their own, in the order of the planes. -/
def dedicatedLayers (planes : List DrmCompositionPlane) : List Nat :=
  (planes.filter fun p => p.type == .layer).flatMap (·.sourceLayers)

/-- What is shown at a point, from the bottom to the top: the dedicated layers there, and
what has been rendered into the regions of the precomposition there. -/
def displayedStack (layers : List (DrmHwcLayer F)) (planes : List DrmCompositionPlane)
    (regions : List DrmCompositionRegion) (x y : Int) : List Nat :=
  ((dedicatedLayers planes).filter fun i => decide (FrameCovers layers x y i)) ++
    (regions.filter fun r => decide (r.frame.Contains x y)).flatMap (·.sourceLayers.reverse)

/-- At the point the layers appear in their z-order, and each layer in a plane that covers
the point appears, unless it is precomposed and a dedicated layer there lies above it. -/
structure StackOrdered (layers : List (DrmHwcLayer F)) (planes : List DrmCompositionPlane)
    (regions : List DrmCompositionRegion) (x y : Int) : Prop where
  region : (regions.filter fun r => decide (r.frame.Contains x y)).length ≤ 1
  increasing : (displayedStack layers planes regions x y).Pairwise (· < ·)
  complete : ∀ p ∈ planes, ∀ i ∈ p.sourceLayers, FrameCovers layers x y i →
    i ∈ displayedStack layers planes regions x y ∨
      p.type = .precomp ∧ ∃ d ∈ dedicatedLayers planes, FrameCovers layers x y d ∧ i < d

/-! ## The planes of a draft, sorted -/

theorem sortSourceLayers_layerPlane (crtc : DrmCrtc) (p : DrmPlane × Nat) :
    sortSourceLayers (layerPlane crtc p) = layerPlane crtc p := by
  simp [sortSourceLayers, layerPlane]

/-- The draft with its precomposed layers in order. -/
def Draft.sortPrecomp (d : Draft) : Draft :=
  { d with precomp := d.precomp.map fun p => (p.1, p.2.mergeSort (fun a b => decide (a ≤ b))) }

theorem map_sortSourceLayers_composition (crtc : DrmCrtc) (d : Draft) :
    (d.composition crtc).map sortSourceLayers = d.sortPrecomp.composition crtc := by
  rw [Draft.composition, Draft.composition, List.map_append, List.map_map]
  congr 1
  · refine List.map_congr_left fun p _ => ?_
    exact sortSourceLayers_layerPlane crtc p
  · rw [Draft.sortPrecomp]
    cases d.precomp with
    | none => rfl
    | some p => rfl

theorem sortPrecomp_precompIndices_perm (d : Draft) :
    d.sortPrecomp.precompIndices.Perm d.precompIndices := by
  rw [Draft.precompIndices, Draft.precompIndices, Draft.sortPrecomp]
  cases d.precomp with
  | none => exact List.Perm.refl _
  | some p => exact List.mergeSort_perm p.2 _

theorem sortPrecomp_precompIndices_sorted (d : Draft) (hnodup : d.precompIndices.Nodup) :
    d.sortPrecomp.precompIndices.Pairwise (· < ·) := by
  have hle : d.sortPrecomp.precompIndices.Pairwise (· ≤ ·) := by
    rw [Draft.precompIndices, Draft.sortPrecomp]
    cases d.precomp with
    | none => exact List.Pairwise.nil
    | some p => exact List.pairwise_mergeSort' (· ≤ ·) p.2
  have hne : d.sortPrecomp.precompIndices.Nodup :=
    (sortPrecomp_precompIndices_perm d).nodup_iff.mpr hnodup
  exact (hle.and hne).imp fun h => Nat.lt_of_le_of_ne h.1 h.2

theorem findPrecomp_layers (crtc : DrmCrtc) (rest : List DrmCompositionPlane) :
    ∀ (l : List (DrmPlane × Nat)) (acc : List Nat),
      findPrecomp (l.map (layerPlane crtc) ++ rest) acc =
        findPrecomp rest (acc ++ l.map (·.2)) := by
  intro l
  induction l with
  | nil => intro acc; simp
  | cons p l ih =>
      intro acc
      rw [List.map_cons, List.cons_append, findPrecomp]
      exact (ih _).trans (by simp [layerPlane])

theorem findPrecomp_composition (crtc : DrmCrtc) (d : Draft) :
    findPrecomp (d.composition crtc) [] =
      d.precomp.map fun p => (d.dedicatedIndices, p.2) := by
  rw [Draft.composition, findPrecomp_layers, List.nil_append]
  cases d.precomp with
  | none => rfl
  | some p => rfl

theorem dedicatedLayers_composition (crtc : DrmCrtc) (d : Draft) :
    dedicatedLayers (d.composition crtc) = d.dedicatedIndices := by
  rw [dedicatedLayers, Draft.composition, List.filter_append, List.flatMap_append]
  have hlayers : (d.dedicated.map (layerPlane crtc)).filter (fun p => p.type == .layer) =
      d.dedicated.map (layerPlane crtc) := by
    rw [List.filter_eq_self]
    intro p hp
    obtain ⟨q, _, hq⟩ := List.mem_map.mp hp
    rw [← hq]
    rfl
  have hprecomp : (d.precomp.toList.map (precompPlane crtc)).filter
      (fun p => p.type == .layer) = [] := by
    rw [List.filter_eq_nil_iff]
    intro p hp
    obtain ⟨q, _, hq⟩ := List.mem_map.mp hp
    rw [← hq]
    simp [precompPlane]
  rw [hlayers, hprecomp, List.flatMap_nil, List.append_nil, List.flatMap_map]
  exact List.map_eq_flatMap.symm

theorem mem_composition {crtc : DrmCrtc} {d : Draft} {p : DrmCompositionPlane} {i : Nat}
    (hp : p ∈ d.composition crtc) (hi : i ∈ p.sourceLayers) :
    i ∈ d.dedicatedIndices ∨ p.type = .precomp ∧ i ∈ d.precompIndices := by
  rw [Draft.composition] at hp
  cases List.mem_append.mp hp with
  | inl h =>
      obtain ⟨q, hq, hpq⟩ := List.mem_map.mp h
      rw [← hpq] at hi
      refine Or.inl (List.mem_map.mpr ⟨q, hq, ?_⟩)
      exact (List.mem_singleton.mp hi).symm
  | inr h =>
      obtain ⟨q, hq, hpq⟩ := List.mem_map.mp h
      rw [← hpq] at hi ⊢
      refine Or.inr ⟨rfl, ?_⟩
      rw [Draft.precompIndices, Option.mem_toList.mp hq]
      exact hi

/-! ## Regions at a point -/

section Regions

variable {layers : List (DrmHwcLayer F)} {ded comp : List Nat}
  {excludeRects : List (Rect Int)} {regions : List DrmCompositionRegion}

theorem HolePunched.filter_length (h : HolePunched layers ded comp excludeRects regions)
    (x y : Int) : (regions.filter fun r => decide (r.frame.Contains x y)).length ≤ 1 := by
  have hpairs := h.disjoint.filter fun r => decide (r.frame.Contains x y)
  have hall : ∀ r ∈ regions.filter fun r => decide (r.frame.Contains x y),
      r.frame.Contains x y := fun r hr => of_decide_eq_true (List.mem_filter.mp hr).2
  cases hf : regions.filter fun r => decide (r.frame.Contains x y) with
  | nil => exact Nat.zero_le 1
  | cons a rest =>
      cases rest with
      | nil => exact Nat.le_refl 1
      | cons b rest =>
          rw [hf] at hpairs hall
          have hdisj := (List.pairwise_cons.mp hpairs).1 b List.mem_cons_self
          exact absurd (hall b (List.mem_cons_of_mem a List.mem_cons_self))
            (hdisj x y (hall a List.mem_cons_self))

/-- What is rendered at a point: the layers that have to be seen there, in their order. -/
theorem HolePunched.rendered (h : HolePunched layers ded comp [] regions) (x y : Int) :
    let rendered := (regions.filter fun r => decide (r.frame.Contains x y)).flatMap
      (·.sourceLayers.reverse)
    rendered.Pairwise (· < ·) ∧ ∀ c, c ∈ rendered ↔ VisibleIn layers ded comp x y c := by
  have hlen := h.filter_length x y
  have hexists := h.covers x y
  have hall : ∀ r ∈ regions.filter fun r => decide (r.frame.Contains x y),
      r ∈ regions ∧ r.frame.Contains x y := fun r hr =>
    ⟨(List.mem_filter.mp hr).1, of_decide_eq_true (List.mem_filter.mp hr).2⟩
  cases hf : regions.filter fun r => decide (r.frame.Contains x y) with
  | nil =>
      refine ⟨List.Pairwise.nil, fun c => ⟨fun hc => absurd hc List.not_mem_nil, fun hc => ?_⟩⟩
      obtain ⟨r, hr, hpoint⟩ := hexists.mpr
        ⟨fun _ hr => absurd hr List.not_mem_nil, c, hc⟩
      have hmem : r ∈ regions.filter fun r => decide (r.frame.Contains x y) :=
        List.mem_filter.mpr ⟨hr, decide_eq_true hpoint⟩
      rw [hf] at hmem
      cases hmem
  | cons r rest =>
      have hrest : rest = [] := by
        rw [hf, List.length_cons] at hlen
        exact List.length_eq_zero_iff.mp (by omega)
      rw [hf] at hall
      obtain ⟨hr, hpoint⟩ := hall r List.mem_cons_self
      rw [hrest, List.flatMap_singleton]
      refine ⟨List.pairwise_reverse.mpr (h.descending r hr), fun c => ?_⟩
      rw [List.mem_reverse]
      exact h.sources r hr x y hpoint c

end Regions

/-! ## The stack of a plan -/

/-- A draft in order shows, with its precomposition sorted and separated, the stack of its
layers. -/
theorem stackOrdered_composition (crtc : DrmCrtc) {layers : List (DrmHwcLayer F)} {d : Draft}
    (hsorted : d.dedicatedIndices.Pairwise (· < ·)) (hnodup : d.indices.Nodup)
    (hrange : ∀ i ∈ d.indices, i < layers.length) (hall : d.indices.length ≤ 64)
    (hfit : d.precomp.isSome = true → d.dedicatedIndices.length ≤ 31) :
    ∃ regions, separateLayers layers (d.sortPrecomp.composition crtc) [] = some regions ∧
      ∀ x y, StackOrdered layers (d.sortPrecomp.composition crtc) regions x y := by
  have hcomplete : ∀ p ∈ d.sortPrecomp.composition crtc, ∀ i ∈ p.sourceLayers,
      i ∈ d.dedicatedIndices ∨ p.type = .precomp ∧ i ∈ d.sortPrecomp.precompIndices :=
    fun p hp i hi => mem_composition hp hi
  have hdedicated : dedicatedLayers (d.sortPrecomp.composition crtc) = d.dedicatedIndices :=
    dedicatedLayers_composition crtc d.sortPrecomp
  have hfind := findPrecomp_composition crtc d.sortPrecomp
  obtain ⟨_, hpreNodup, hapart⟩ := List.nodup_append.mp hnodup
  cases hprecomp : d.precomp with
  | none =>
      have hnone : d.sortPrecomp.precomp = none := by rw [Draft.sortPrecomp, hprecomp]; rfl
      rw [hnone] at hfind
      refine ⟨[], by rw [separateLayers, hfind]; rfl, fun x y => ⟨Nat.zero_le 1, ?_, ?_⟩⟩
      · rw [displayedStack, hdedicated, List.filter_nil, List.flatMap_nil, List.append_nil]
        exact hsorted.filter _
      · intro p hp i hi hcovers
        rw [displayedStack, hdedicated]
        cases hcomplete p hp i hi with
        | inl hded =>
            exact Or.inl (List.mem_append_left _
              (List.mem_filter.mpr ⟨hded, decide_eq_true hcovers⟩))
        | inr hpre =>
            rw [Draft.precompIndices, hnone] at hpre
            cases hpre.2
  | some q =>
      have hsome : d.sortPrecomp.precomp =
          some (q.1, q.2.mergeSort (fun a b => decide (a ≤ b))) := by
        rw [Draft.sortPrecomp, hprecomp]
        rfl
      have hindices : d.sortPrecomp.precompIndices =
          q.2.mergeSort (fun a b => decide (a ≤ b)) := by
        rw [Draft.precompIndices, hsome]
        rfl
      have hperm := sortPrecomp_precompIndices_perm d
      have hlen := hperm.length_eq
      rw [hsome] at hfind
      rw [Option.map_some, ← hindices] at hfind
      rw [Draft.indices, List.length_append] at hall
      have hholesLen := hfit (by rw [hprecomp]; rfl)
      obtain ⟨regions, hregions, hholes⟩ := @separateLayers_holePunched F layers _
        d.dedicatedIndices _ [] hfind (fun i hi => hrange i (List.mem_append_left _ hi))
        (fun i hi => hrange i (List.mem_append_right _ (hperm.subset hi)))
        (sortPrecomp_precompIndices_sorted d hpreNodup)
        (by simp only [List.length_nil]; omega) (by simp) (by omega)
        (Or.inl (by simp only [List.length_nil]; omega))
      refine ⟨regions, hregions, fun x y => ?_⟩
      obtain ⟨hincreasing, hrendered⟩ := hholes.rendered x y
      refine ⟨hholes.filter_length x y, ?_, ?_⟩
      · rw [displayedStack, hdedicated, List.pairwise_append]
        refine ⟨hsorted.filter _, hincreasing, fun a ha c hc => ?_⟩
        -- a layer that is rendered here is not below a dedicated one, and no layer is both
        obtain ⟨hmem, hcovers⟩ := List.mem_filter.mp ha
        obtain ⟨hcomp, _, habove⟩ := (hrendered c).mp hc
        have hne := hapart a hmem c (hperm.subset hcomp)
        have hle := habove a hmem (of_decide_eq_true hcovers)
        omega
      · intro p hp i hi hcovers
        rw [displayedStack, hdedicated]
        cases hcomplete p hp i hi with
        | inl hded =>
            exact Or.inl (List.mem_append_left _
              (List.mem_filter.mpr ⟨hded, decide_eq_true hcovers⟩))
        | inr hpre =>
            by_cases habove : ∃ a ∈ d.dedicatedIndices, FrameCovers layers x y a ∧ i < a
            · exact Or.inr ⟨hpre.1, habove⟩
            · refine Or.inl (List.mem_append_right _ ((hrendered i).mpr ⟨hpre.2, hcovers, ?_⟩))
              intro a ha hcov hlt
              exact habove ⟨a, ha, hcov, hlt⟩

section Planner

variable [Sub F] [Div F] [IntCast F] [LT F] [DecidableLT F]

/-- The final draft of a plan for layers of the list. -/
theorem finalDraft_indices_mem {toPlace : LayerMap F} {useSquashFb : Bool}
    {usable : List DrmPlane} {i : Nat} (hi : i ∈ (finalDraft toPlace useSquashFb usable).indices) :
    ∃ e ∈ toPlace.entries, e.1 = i := by
  have hsub := (finalDraft_spec toPlace useSquashFb usable).indices
  rw [startDraft_indices, List.append_nil] at hsub
  exact List.mem_map.mp (hsub.subset (List.mem_append_right _ hi))

theorem length_le_of_nodup_lt {l : List Nat} {n : Nat} (hnodup : l.Nodup)
    (hlt : ∀ i ∈ l, i < n) : l.length ≤ n := by
  have hsub : l ⊆ List.range n := fun i hi => List.mem_range.mpr (hlt i hi)
  have hlen := (hnodup.subperm hsub).length_le
  rw [List.length_range] at hlen
  exact hlen

/-- A precomp plane leaves at most one plane less for dedicated layers. -/
theorem finalDraft_dedicated_length {toPlace : LayerMap F} {usable : List DrmPlane}
    (hlen : usable.length ≤ 32) (hsome : (finalDraft toPlace false usable).precomp.isSome = true) :
    (finalDraft toPlace false usable).dedicatedIndices.length ≤ 31 := by
  have hperm := ((finalDraft_spec toPlace false usable).planes.trans
    (startDraft_allPlanes _ _)).length_eq
  rw [Draft.allPlanes, List.length_append, List.length_append, List.length_map] at hperm
  obtain ⟨p, hp⟩ := Option.isSome_iff_exists.mp hsome
  have hone : ((finalDraft toPlace false usable).precomp.map (·.1)).toList.length = 1 := by
    rw [hp]
    rfl
  have husable : (reserveSquash false usable).2 = usable := rfl
  rw [hone, husable] at hperm
  rw [Draft.dedicatedIndices, List.length_map]
  omega

/-- A frame of at most 64 layers, planned without squash framebuffer and exclude rectangles
on at most 32 planes with one primary plane for the crtc: at every point the dedicated
layers and, above them, the region of the precomposition show the layers in their
z-order, each that is placed and not hidden by a dedicated one. -/
theorem planPlanes_stackOrdered (comp : DrmDisplayComposition F) (crtc : DrmCrtc)
    (squash : SquashPlan) (toPlace : LayerMap F) (pool : PlanePool) (fenceResult : Int)
    (h64 : comp.layers.length ≤ 64)
    (hlayers : ∀ e ∈ toPlace.entries, comp.layers[e.1]? = some e.2)
    (hnew : comp.preCompRegions = [])
    (hsquash : squash.useSquashFramebuffer = false) (hexclude : squash.excludeRects = [])
    (h32 : (pool.primaryPlanes ++ pool.overlayPlanes).length ≤ 32)
    (hprimary : (getUsablePlanes crtc pool.primaryPlanes pool.overlayPlanes).countP
      (·.isPrimary) ≤ 1)
    (hret : (provisionPlanes nvStages toPlace false crtc pool.primaryPlanes
      pool.overlayPlanes).1 = 0) :
    ∃ comp' pool', planPlanes nvStages comp crtc squash toPlace pool fenceResult =
        some (fenceResult, comp', pool') ∧
      comp'.compositionPlanes = (provisionPlanes nvStages toPlace false crtc
        pool.primaryPlanes pool.overlayPlanes).2.map sortSourceLayers ∧
      ∀ x y, StackOrdered comp.layers comp'.compositionPlanes comp'.preCompRegions x y := by
  generalize husable : getUsablePlanes crtc pool.primaryPlanes pool.overlayPlanes = usable
    at hprimary
  have hplanes := provisionPlanes_eq toPlace false crtc pool.primaryPlanes pool.overlayPlanes
  rw [husable] at hplanes
  by_cases hempty : usable = []
  · rw [hplanes, if_pos hempty] at hret
    cases hret
  rw [if_neg hempty] at hplanes
  have hkey : ∀ e ∈ toPlace.entries, e.1 < comp.layers.length := fun e he =>
    (List.getElem?_eq_some_iff.mp (hlayers e he)).1
  have hrange : ∀ i ∈ (finalDraft toPlace false usable).indices, i < comp.layers.length := by
    intro i hi
    obtain ⟨e, he, hei⟩ := finalDraft_indices_mem hi
    rw [← hei]
    exact hkey e he
  have hnodup := finalDraft_indices_nodup toPlace false usable
  have husableLen : usable.length ≤ 32 := by
    rw [← husable, getUsablePlanes, ← List.filter_append]
    exact Nat.le_trans (List.length_filter_le _ _) h32
  obtain ⟨regions, hregions, hstack⟩ := stackOrdered_composition crtc
    (finalDraft_dedicated_sorted (fun e he => by have := hkey e he; omega) hprimary) hnodup
    hrange (Nat.le_trans (length_le_of_nodup_lt hnodup hrange) h64)
    (finalDraft_dedicated_length husableLen)
  have hcomposition : (provisionPlanes nvStages toPlace false crtc pool.primaryPlanes
      pool.overlayPlanes).2.map sortSourceLayers =
      (finalDraft toPlace false usable).sortPrecomp.composition crtc := by
    rw [hplanes, squashPlanes, reserveSquash]
    simp only [Bool.false_eq_true, if_false, Option.toList_none, List.map_nil, List.append_nil]
    exact map_sortSourceLayers_composition crtc _
  rw [planPlanes, hsquash, hexclude]
  dsimp only
  rw [hcomposition]
  rw [if_neg (fun h => h hret), hregions]
  refine ⟨_, _, rfl, rfl, ?_⟩
  rw [hnew]
  exact hstack

end Planner

/-- A frame of three layers over each other. -/
def threeLayers : DrmDisplayComposition Rat where
  type := .frame
  crtc := some smallCrtc
  layers := List.replicate 3 (plainLayer 0#32 0#32)
  geometryChanged := true
  squashRegions := []
  preCompRegions := []
  compositionPlanes := []

/-- One primary and one overlay plane: two of the three layers are precomposed. -/
theorem planPlanes_stackOrdered_threeLayers :
    ∃ comp' pool', planPlanes nvStages threeLayers smallCrtc ⟨false, [], [], []⟩
        (toComposite threeLayers.layers none)
        ⟨[primaryPlane], [⟨31, .overlay, 1#32⟩]⟩ 0 = some (0, comp', pool') ∧
      ∀ x y, StackOrdered threeLayers.layers comp'.compositionPlanes comp'.preCompRegions x y := by
  obtain ⟨comp', pool', hplan, _, hstack⟩ := planPlanes_stackOrdered threeLayers smallCrtc
    ⟨false, [], [], []⟩ (toComposite threeLayers.layers none)
    ⟨[primaryPlane], [⟨31, .overlay, 1#32⟩]⟩ 0 (by decide)
    (fun e he => getElem?_of_mem_toComposite he) rfl rfl rfl (by decide) (by decide)
    (by decide +kernel)
  exact ⟨comp', pool', hplan, hstack⟩

end DragonDevice.Hwc
