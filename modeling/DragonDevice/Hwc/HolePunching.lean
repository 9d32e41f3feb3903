/-
  Hwc/HolePunching.lean --- when `SeparateLayers` shows what has to be seen.

  The bit of a dedicated layer is looked up with `1 << (i + num_exclude_rects)`, the
  shift of an `int`, and `layer_offset` keeps its value where exclude rectangles are
  cut off.  With many exclude rectangles the one leaves the holes undefined, and the
  other leaves no region at all.  Both conditions are exact.
-/
import DragonDevice.Hwc.DisplayedStack
import DragonDevice.Hwc.PlaneExclusive

set_option autoImplicit false

namespace DragonDevice.Hwc

open DragonDevice.Lib

variable {F : Type}

/-! ## What `SeparateLayers` is given -/

/-- The planes of a plan: the precomp plane, the layers of the planes before it, and the
order that `Plan` sorts its layers in. -/
structure PrecompOf (layers : List (DrmHwcLayer F)) (planes : List DrmCompositionPlane)
    (dedicatedLayers compLayers : List Nat) : Prop where
  found : findPrecomp planes [] = some (dedicatedLayers, compLayers)
  dedicated : ∀ i ∈ dedicatedLayers, i < layers.length
  composed : ∀ i ∈ compLayers, i < layers.length
  sorted : compLayers.Pairwise (· < ·)

theorem findPrecomp_squashPlanes (crtc : DrmCrtc) (useSquashFb : Bool) (usable : List DrmPlane)
    (acc : List Nat) :
    findPrecomp ((squashPlanes crtc useSquashFb usable).map sortSourceLayers) acc = none := by
  rw [squashPlanes]
  cases (reserveSquash useSquashFb usable).1 with
  | none => rfl
  | some plane => rfl

theorem findPrecomp_composition_append (crtc : DrmCrtc) (d : Draft)
    {rest : List DrmCompositionPlane} (hrest : ∀ acc, findPrecomp rest acc = none) :
    findPrecomp (d.composition crtc ++ rest) [] =
      d.precomp.map fun p => (d.dedicatedIndices, p.2) := by
  rw [Draft.composition, List.append_assoc, findPrecomp_layers, List.nil_append]
  cases d.precomp with
  | none => exact hrest _
  | some p => rfl

/-- The dedicated and the precomposed layers of a plan are layers of the frame, each once, and the
precomposed ones are sorted. -/
theorem provisionPlanes_lists {stages : List (PlanStage F)}
    (hstages : ∀ stage ∈ stages, DraftStage stage) {toPlace : LayerMap F} {useSquashFb : Bool}
    {crtc : DrmCrtc} {primaryPlanes overlayPlanes : List DrmPlane}
    {dedicatedLayers compLayers : List Nat}
    (hfound : findPrecomp ((provisionPlanes stages toPlace useSquashFb crtc primaryPlanes
      overlayPlanes).2.map sortSourceLayers) [] = some (dedicatedLayers, compLayers)) :
    (dedicatedLayers ++ compLayers).Subperm toPlace.keys ∧ compLayers.Pairwise (· < ·) := by
  generalize hprov : provisionPlanes stages toPlace useSquashFb crtc primaryPlanes
    overlayPlanes = result at hfound
  obtain ⟨ret, planes⟩ := result
  by_cases hret : ret ≠ 0
  · have hnone := provisionPlanes_failed stages toPlace useSquashFb crtc primaryPlanes overlayPlanes
      (by rw [hprov]; exact hret)
    rw [hprov] at hnone
    rw [show planes = [] from hnone] at hfound
    cases hfound
  rw [not_not.mp hret] at hprov
  obtain ⟨d, hplanes, _, hindices⟩ := provisionPlanes_draft hstages hprov
  rw [hplanes, List.map_append, map_sortSourceLayers_composition,
    findPrecomp_composition_append crtc _ (findPrecomp_squashPlanes crtc useSquashFb _)] at hfound
  obtain ⟨p, hp, heq⟩ := Option.map_eq_some_iff.mp hfound
  have hcomp : d.sortPrecomp.precompIndices = compLayers := by
    rw [Draft.precompIndices, hp]
    exact congrArg Prod.snd heq
  have hded : d.dedicatedIndices = dedicatedLayers := congrArg Prod.fst heq
  obtain ⟨l, hperm, hl⟩ := id hindices
  have hnodup : d.indices.Nodup := hperm.nodup_iff.mp (hl.nodup (keys_nodup toPlace))
  rw [← hcomp, ← hded]
  refine ⟨?_, sortPrecomp_precompIndices_sorted d (List.nodup_append.mp hnodup).2.1⟩
  exact ((sortPrecomp_precompIndices_perm d).append_left _).subperm.trans hindices

/-- What `Plan` hands to `SeparateLayers` is in order. -/
theorem provisionPlanes_precompOf {stages : List (PlanStage F)}
    (hstages : ∀ stage ∈ stages, DraftStage stage) {layers : List (DrmHwcLayer F)}
    {toPlace : LayerMap F} {useSquashFb : Bool} {crtc : DrmCrtc}
    {primaryPlanes overlayPlanes : List DrmPlane} {dedicatedLayers compLayers : List Nat}
    (hkeys : ∀ i ∈ toPlace.keys, i < layers.length)
    (hfound : findPrecomp ((provisionPlanes stages toPlace useSquashFb crtc primaryPlanes
      overlayPlanes).2.map sortSourceLayers) [] = some (dedicatedLayers, compLayers)) :
    PrecompOf layers ((provisionPlanes stages toPlace useSquashFb crtc primaryPlanes
      overlayPlanes).2.map sortSourceLayers) dedicatedLayers compLayers := by
  obtain ⟨hlists, hsorted⟩ := provisionPlanes_lists hstages hfound
  exact ⟨hfound, fun i hi => hkeys i (hlists.subset (List.mem_append_left _ hi)),
    fun i hi => hkeys i (hlists.subset (List.mem_append_right _ hi)), hsorted⟩

/-! ## Holes out of reach -/

theorem intBit_eq_none {n : Nat} (hn : 32 ≤ n) : intBit n = none := if_neg (Nat.not_lt.mpr hn)

/-- The loop over the dedicated layers comes to one whose bit is behind those of an `int`. -/
theorem foldlM_punchHole_none {numExcludeRects layerOffset : Nat} {compLayers : List Nat}
    {dedicatedIntersect : BitVec 64} :
    ∀ (dedicatedLayers : List Nat) (k : Nat) (s : IdSet), dedicatedLayers ≠ [] →
      32 < k + dedicatedLayers.length + numExcludeRects →
      (dedicatedLayers.zipIdx k).foldlM
        (punchHole numExcludeRects layerOffset compLayers dedicatedIntersect) s = none := by
  intro dedicatedLayers
  induction dedicatedLayers with
  | nil => exact fun _ _ hne => absurd rfl hne
  | cons d rest ih =>
      intro k s _ hlong
      rw [List.length_cons] at hlong
      rw [List.zipIdx_cons, List.foldlM_cons]
      by_cases hk : 32 ≤ k + numExcludeRects
      · rw [punchHole, intBit_eq_none hk]
        rfl
      · have hrest : rest ≠ [] := by
          intro hnil
          rw [hnil, List.length_nil] at hlong
          omega
        cases punchHole numExcludeRects layerOffset compLayers dedicatedIntersect s (d, k) with
        | none => rfl
        | some s₁ => exact ih (k + 1) s₁ hrest (by omega)

theorem separateRegion_eq_none {numExcludeRects layerOffset : Nat}
    {dedicatedLayers compLayers : List Nat} {region : RectSet Int}
    (hexclude : numExcludeRects < 64) (hdedicated : dedicatedLayers.length < 64)
    (hall : numExcludeRects + dedicatedLayers.length ≤ 64)
    (hlong : 32 < numExcludeRects + dedicatedLayers.length)
    (hno : ∀ i, i < numExcludeRects → ¬ region.idSet.Mem i) {a : Nat}
    (ha : a < dedicatedLayers.length) (hmem : region.idSet.Mem (a + numExcludeRects)) :
    separateRegion numExcludeRects layerOffset dedicatedLayers compLayers
      ((1#64 <<< numExcludeRects) - 1#64)
      (((1#64 <<< dedicatedLayers.length) - 1#64) <<< numExcludeRects) region = none := by
  have hzero : region.idSet.getBits &&& ((1#64 <<< numExcludeRects) - 1#64) = 0#64 :=
    (and_low_mask_eq_zero_iff hexclude).mpr fun i hi => Bool.eq_false_iff.mpr (hno i hi)
  have hintersect : region.idSet.getBits &&&
      ((1#64 <<< dedicatedLayers.length) - 1#64) <<< numExcludeRects ≠ 0#64 := by
    intro h
    have hbit := eq_zero_iff_getLsbD.mp h (a + numExcludeRects)
    rw [BitVec.getLsbD_and, getLsbD_dedicated_mask hdedicated hall, decide_eq_true (by omega),
      Bool.and_true] at hbit
    exact Bool.eq_false_iff.mp hbit hmem
  have hne : dedicatedLayers ≠ [] := List.ne_nil_of_length_pos (by omega)
  rw [separateRegion, if_neg (fun h => h hzero), punchHoles, if_neg hintersect,
    foldlM_punchHole_none dedicatedLayers 0 region.idSet hne (by omega)]
  rfl

section Separation

variable {layers : List (DrmHwcLayer F)} {planes : List DrmCompositionPlane}
  {dedicatedLayers compLayers : List Nat} {excludeRects : List (Rect Int)}

/-- With the rectangles in the set, `SeparateLayers` is defined only where the holes fit. -/
theorem HolesFit.of_separateLayers {regions : List DrmCompositionRegion}
    (h : PrecompOf layers planes dedicatedLayers compLayers)
    (hall : excludeRects.length + dedicatedLayers.length + compLayers.length ≤ 64)
    (hregions : separateLayers layers planes excludeRects = some regions) :
    excludeRects.length < 64 ∧ dedicatedLayers.length < 64 ∧
      HolesFit layers dedicatedLayers excludeRects := by
  obtain ⟨sep, hswept, heq⟩ := separateLayers_eq h.found h.dedicated h.composed hall
  by_cases hbits : excludeRects.length < 64 ∧ dedicatedLayers.length < 64
  · rw [heq, if_pos hbits] at hregions
    obtain ⟨outs, houts, _⟩ := Option.map_eq_some_iff.mp hregions
    refine ⟨hbits.1, hbits.2, ?_⟩
    by_contra hunfit
    obtain ⟨hlong, hseen⟩ := not_or.mp hunfit
    refine hseen fun x y d hd hcovers => ?_
    by_contra hnone
    -- a dedicated layer at a point that is not excluded: its region has no result
    obtain ⟨o, ho, hc⟩ := hswept.covers x y d (Or.inl hd) hcovers
    obtain ⟨a, ha⟩ := List.mem_iff_getElem?.mp hd
    have hno := (hswept.excluded o ho x y hc).mpr fun r hr hrc => hnone ⟨r, hr, hrc⟩
    obtain ⟨out, _, hout⟩ := (mapM_some_mem houts).1 o ho
    rw [separateRegion_eq_none hbits.1 hbits.2 (by omega) (Nat.lt_of_not_le hlong) hno
      (List.getElem?_eq_some_iff.mp ha).1 ((hswept.dedicated o ho x y hc a d ha).mpr hcovers)]
      at hout
    cases hout
  · rw [heq, if_neg hbits] at hregions
    cases hregions

/-- At most 64 rectangles: the regions of the precomposition are those that have to be seen if
and only if the masks can be built and the holes are in reach. -/
theorem separateLayers_holePunched_iff (h : PrecompOf layers planes dedicatedLayers compLayers)
    (hall : excludeRects.length + dedicatedLayers.length + compLayers.length ≤ 64) :
    (∃ regions, separateLayers layers planes excludeRects = some regions ∧
      HolePunched layers dedicatedLayers compLayers excludeRects regions) ↔
    excludeRects.length < 64 ∧ dedicatedLayers.length < 64 ∧
      HolesFit layers dedicatedLayers excludeRects := by
  refine ⟨fun hpunched => ?_, fun hfit => ?_⟩
  · obtain ⟨regions, hregions, _⟩ := hpunched
    exact HolesFit.of_separateLayers h hall hregions
  · exact separateLayers_holePunched h.found h.dedicated h.composed h.sorted hall hfit.1 hfit.2.1
      hfit.2.2

/-! ## Exclude rectangles cut off -/

/-- The exclude rectangles that are left beside the layers. -/
def keptExcludeRects (excludeRects : List (Rect Int)) (dedicatedLayers compLayers : List Nat) :
    List (Rect Int) :=
  excludeRects.take (64 - compLayers.length - dedicatedLayers.length)

/-- What has to be seen outside the exclude rectangles is in some region. -/
def KeepsVisible (layers : List (DrmHwcLayer F)) (dedicatedLayers compLayers : List Nat)
    (excludeRects : List (Rect Int)) (regions : List DrmCompositionRegion) : Prop :=
  ∀ x y c, VisibleIn layers dedicatedLayers compLayers x y c →
    (∀ r ∈ excludeRects, ¬ r.Contains x y) → ∃ region ∈ regions, region.frame.Contains x y

/-- More than 64 rectangles: the list is as long as before, the sweep does not take it, and
there is no region. -/
theorem separateLayers_truncated (h : PrecompOf layers planes dedicatedLayers compLayers)
    (hlayers : dedicatedLayers.length + compLayers.length ≤ 64)
    (hover : 64 < excludeRects.length + dedicatedLayers.length + compLayers.length) :
    separateLayers layers planes excludeRects =
      if (keptExcludeRects excludeRects dedicatedLayers compLayers).length < 64 ∧
        dedicatedLayers.length < 64 then some [] else none := by
  obtain ⟨dedicatedFrames, hdedFrames, hdedLen, _⟩ := displayFrames_spec h.dedicated
  obtain ⟨compFrames, hcompFrames, hcompLen, _⟩ := displayFrames_spec h.composed
  have hnum : (if 64 < compLayers.length + (excludeRects.length + dedicatedLayers.length) then
      (2 ^ 64 + 64 - compLayers.length - dedicatedLayers.length) % 2 ^ 64
      else excludeRects.length) = 64 - compLayers.length - dedicatedLayers.length := by
    rw [if_pos (by omega)]
    omega
  have hkept : (keptExcludeRects excludeRects dedicatedLayers compLayers).length =
      64 - compLayers.length - dedicatedLayers.length := by
    rw [keptExcludeRects, List.length_take]
    omega
  simp only [separateLayers, h.found]
  rw [if_neg (by omega), hnum, if_neg (by omega), hdedFrames, hcompFrames, hkept]
  simp only [Option.bind_eq_bind, Option.bind_some]
  generalize hrects : excludeRects.take (64 - compLayers.length - dedicatedLayers.length) ++
    dedicatedFrames ++ List.replicate (excludeRects.length + dedicatedLayers.length -
      (64 - compLayers.length - dedicatedLayers.length) - dedicatedLayers.length) ⟨0, 0, 0, 0⟩ ++
    compFrames = layerRects
  have hlen : layerRects.length =
      excludeRects.length + dedicatedLayers.length + compLayers.length := by
    rw [← hrects]
    simp only [List.length_append, List.length_take, List.length_replicate, hdedLen, hcompLen]
    omega
  have hnone : separateRects64 layerRects [] = some [] :=
    if_pos (by rw [hlen]; exact hover)
  rw [hnone, Option.bind_some]
  by_cases hexclude : 64 - compLayers.length - dedicatedLayers.length < 64
  · rw [uint64Bit_eq hexclude, Option.bind_some]
    by_cases hdedicated : dedicatedLayers.length < 64
    · rw [uint64Bit_eq hdedicated, if_pos ⟨hexclude, hdedicated⟩]
      rfl
    · rw [uint64Bit_eq_none hdedicated, if_neg (fun h => hdedicated h.2), Option.bind_none]
  · rw [uint64Bit_eq_none hexclude, if_neg (fun h => hexclude h.1), Option.bind_none]

/-- More than 64 layers, but not in the precomposition: the number of the exclude rectangles wraps,
and the copy runs off their end. -/
theorem separateLayers_wraps (h : PrecompOf layers planes dedicatedLayers compLayers)
    (hcomp : compLayers.length ≤ 64) (hmany : 64 < dedicatedLayers.length + compLayers.length)
    (hsize : excludeRects.length + dedicatedLayers.length + compLayers.length < 2 ^ 64) :
    separateLayers layers planes excludeRects = none := by
  have hnum : (if 64 < compLayers.length + (excludeRects.length + dedicatedLayers.length) then
      (2 ^ 64 + 64 - compLayers.length - dedicatedLayers.length) % 2 ^ 64
      else excludeRects.length) = 2 ^ 64 + 64 - compLayers.length - dedicatedLayers.length := by
    rw [if_pos (by omega)]
    omega
  simp only [separateLayers, h.found]
  rw [if_neg (by omega), hnum, if_pos (by omega)]
  rfl

/-- The layers that `SeparateLayers` can be given: too many of them precomposed, or all of them
within the bits of the set, where the masks are defined and the holes fit. -/
def Separable (layers : List (DrmHwcLayer F)) (excludeRects : List (Rect Int))
    (dedicatedLayers compLayers : List Nat) : Prop :=
  64 < compLayers.length ∨
    dedicatedLayers.length + compLayers.length ≤ 64 ∧
    (keptExcludeRects excludeRects dedicatedLayers compLayers).length < 64 ∧
    dedicatedLayers.length < 64 ∧
    (excludeRects.length + dedicatedLayers.length + compLayers.length ≤ 64 →
      HolesFit layers dedicatedLayers excludeRects)

/-- It is defined for these and no others. -/
theorem separateLayers_ne_none_iff (h : PrecompOf layers planes dedicatedLayers compLayers)
    (hsize : 64 < dedicatedLayers.length + compLayers.length →
      excludeRects.length + dedicatedLayers.length + compLayers.length < 2 ^ 64) :
    separateLayers layers planes excludeRects ≠ none ↔
      Separable layers excludeRects dedicatedLayers compLayers := by
  unfold Separable
  by_cases hcomp : 64 < compLayers.length
  · refine iff_of_true ?_ (Or.inl hcomp)
    simp only [separateLayers, h.found]
    rw [if_pos hcomp]
    exact Option.some_ne_none _
  rw [or_iff_right hcomp]
  by_cases hlayers : dedicatedLayers.length + compLayers.length ≤ 64
  · rw [and_iff_right hlayers]
    by_cases hall : excludeRects.length + dedicatedLayers.length + compLayers.length ≤ 64
    · have hkept : keptExcludeRects excludeRects dedicatedLayers compLayers = excludeRects :=
        List.take_of_length_le (by omega)
      rw [hkept]
      constructor
      · intro hsome
        obtain ⟨regions, hregions⟩ := Option.ne_none_iff_exists'.mp hsome
        obtain ⟨hexclude, hdedicated, hfit⟩ := HolesFit.of_separateLayers h hall hregions
        exact ⟨hexclude, hdedicated, fun _ => hfit⟩
      · rintro ⟨hexclude, hdedicated, hfit⟩
        obtain ⟨regions, hregions, _⟩ := separateLayers_holePunched h.found h.dedicated h.composed
          h.sorted hall hexclude hdedicated (hfit hall)
        rw [hregions]
        exact Option.some_ne_none _
    · rw [separateLayers_truncated h hlayers (Nat.lt_of_not_le hall)]
      split
      · rename_i hbits
        exact iff_of_true (Option.some_ne_none _) ⟨hbits.1, hbits.2, fun hle => absurd hle hall⟩
      · rename_i hbits
        exact iff_of_false (fun hne => hne rfl) fun hfit => hbits ⟨hfit.1, hfit.2.1⟩
  · rw [separateLayers_wraps h (Nat.not_lt.mp hcomp) (Nat.lt_of_not_le hlayers)
      (hsize (Nat.lt_of_not_le hlayers))]
    exact iff_of_false (fun hne => hne rfl) fun hfit => hlayers hfit.1

/-- At most 64 layers and any exclude rectangles: nothing that has to be seen is lost if and
only if all rectangles fit and the holes are in reach, or there is nothing to lose. -/
theorem separateLayers_keepsVisible_iff (h : PrecompOf layers planes dedicatedLayers compLayers)
    (hlayers : dedicatedLayers.length + compLayers.length ≤ 64) :
    (∃ regions, separateLayers layers planes excludeRects = some regions ∧
      KeepsVisible layers dedicatedLayers compLayers
        (keptExcludeRects excludeRects dedicatedLayers compLayers) regions) ↔
    ((keptExcludeRects excludeRects dedicatedLayers compLayers).length < 64 ∧
      dedicatedLayers.length < 64) ∧
    if excludeRects.length + dedicatedLayers.length + compLayers.length ≤ 64 then
      HolesFit layers dedicatedLayers excludeRects
    else ∀ x y c, VisibleIn layers dedicatedLayers compLayers x y c →
      ∃ r ∈ keptExcludeRects excludeRects dedicatedLayers compLayers, r.Contains x y := by
  by_cases hall : excludeRects.length + dedicatedLayers.length + compLayers.length ≤ 64
  · have hkept : keptExcludeRects excludeRects dedicatedLayers compLayers = excludeRects :=
      List.take_of_length_le (by omega)
    rw [if_pos hall, hkept]
    refine ⟨fun hkeeps => ?_, fun hfit => ?_⟩
    · obtain ⟨regions, hregions, _⟩ := hkeeps
      obtain ⟨hexclude, hdedicated, hfit⟩ := HolesFit.of_separateLayers h hall hregions
      exact ⟨⟨hexclude, hdedicated⟩, hfit⟩
    · obtain ⟨regions, hregions, hholes⟩ := separateLayers_holePunched h.found h.dedicated
        h.composed h.sorted hall hfit.1.1 hfit.1.2 hfit.2
      exact ⟨regions, hregions, fun x y c hvisible hno =>
        (hholes.covers x y).mpr ⟨hno, c, hvisible⟩⟩
  · rw [if_neg hall, separateLayers_truncated h hlayers (Nat.lt_of_not_le hall)]
    by_cases hbits : (keptExcludeRects excludeRects dedicatedLayers compLayers).length < 64 ∧
        dedicatedLayers.length < 64
    · rw [if_pos hbits]
      refine ⟨fun hkeeps => ⟨hbits, fun x y c hvisible => ?_⟩, fun hnothing => ?_⟩
      · obtain ⟨regions, hregions, hkeeps⟩ := hkeeps
        cases hregions
        by_contra hnone
        obtain ⟨region, hregion, _⟩ := hkeeps x y c hvisible fun r hr hc => hnone ⟨r, hr, hc⟩
        cases hregion
      · refine ⟨[], rfl, fun x y c hvisible hno => ?_⟩
        obtain ⟨r, hr, hc⟩ := hnothing.2 x y c hvisible
        exact absurd hc (hno r hr)
    · rw [if_neg hbits]
      refine ⟨fun hkeeps => ?_, fun hfit => absurd hfit.1 hbits⟩
      obtain ⟨regions, hregions, _⟩ := hkeeps
      cases hregions

end Separation

/-! ## Two layers and many squashed regions -/

/-- Two layers on the whole screen, the lower one precomposed and the other on a plane below. -/
def crossedPlanes : List DrmCompositionPlane :=
  [⟨.layer, primaryPlane, some smallCrtc, [1]⟩,
    ⟨.precomp, ⟨31, .overlay, 1#32⟩, some smallCrtc, [0]⟩]

def crossedLayers : List (DrmHwcLayer Rat) := List.replicate 2 (plainLayer 0#32 0#32)

/-- Squashed regions in a row, one pixel each. -/
def squashedRow (n : Nat) : List (Rect Int) :=
  (List.range n).map fun i => ⟨(i : Int) + 1, 1, (i : Int) + 2, 2⟩

theorem crossedPlanes_precompOf : PrecompOf crossedLayers crossedPlanes [1] [0] :=
  ⟨rfl, by decide, by decide, by decide⟩

theorem squashedRow_not_corner {n : Nat} : ∀ r ∈ squashedRow n, ¬ r.Contains 0 0 := by
  intro r hr hc
  obtain ⟨i, _, hi⟩ := List.mem_map.mp hr
  rw [← hi] at hc
  have htop : (1 : Int) ≤ 0 := hc.2.1
  exact absurd htop (by decide)

theorem crossedLayers_covers {i : Nat} (hi : i < 2) : FrameCovers crossedLayers 0 0 i :=
  ⟨plainLayer 0#32 0#32, List.getElem?_replicate_of_lt hi, by decide⟩

/-- With three squashed regions the holes are punched. -/
theorem separateLayers_holePunched_row :
    ∃ regions, separateLayers crossedLayers crossedPlanes (squashedRow 3) = some regions ∧
      HolePunched crossedLayers [1] [0] (squashedRow 3) regions :=
  (separateLayers_holePunched_iff crossedPlanes_precompOf (by decide)).mpr
    ⟨by decide, by decide, Or.inl (by decide)⟩

/-- With 32 of them the bit of the dedicated layer is out of reach. -/
theorem separateLayers_hole_out_of_reach :
    (squashedRow 32).length + [1].length + [0].length ≤ 64 ∧
      ¬ ∃ regions, separateLayers crossedLayers crossedPlanes (squashedRow 32) = some regions ∧
        HolePunched crossedLayers [1] [0] (squashedRow 32) regions := by
  have hall : (squashedRow 32).length + [1].length + [0].length ≤ 64 := by decide
  refine ⟨hall, fun h => ?_⟩
  obtain ⟨regions, hregions, _⟩ := h
  obtain ⟨_, _, hfit⟩ := HolesFit.of_separateLayers crossedPlanes_precompOf hall hregions
  cases hfit with
  | inl hshort => exact absurd hshort (by decide)
  | inr hcovered =>
      obtain ⟨r, hr, hc⟩ := hcovered 0 0 1 List.mem_cons_self (crossedLayers_covers (by decide))
      exact squashedRow_not_corner r hr hc

/-- One layer that is precomposed. -/
def precompPlanes : List DrmCompositionPlane :=
  [⟨.precomp, ⟨31, .overlay, 1#32⟩, some smallCrtc, [0]⟩]

theorem precompPlanes_precompOf : PrecompOf crossedLayers precompPlanes [] [0] :=
  ⟨rfl, by decide, by decide, by decide⟩

theorem separateLayers_keepsVisible_row :
    ∃ regions, separateLayers crossedLayers precompPlanes (squashedRow 3) = some regions ∧
      KeepsVisible crossedLayers [] [0] (keptExcludeRects (squashedRow 3) [] [0]) regions :=
  (separateLayers_keepsVisible_iff precompPlanes_precompOf (by decide)).mpr
    ⟨by decide, Or.inl (by decide)⟩

/-- With 64 squashed regions beside it the layer is lost. -/
theorem separateLayers_loses_layer :
    ¬ ∃ regions, separateLayers crossedLayers precompPlanes (squashedRow 64) = some regions ∧
      KeepsVisible crossedLayers [] [0] (keptExcludeRects (squashedRow 64) [] [0]) regions := by
  intro h
  obtain ⟨regions, hregions, hkeeps⟩ := h
  rw [separateLayers_truncated precompPlanes_precompOf (by decide) (by decide), if_pos (by decide)]
    at hregions
  cases hregions
  have hvisible : VisibleIn crossedLayers [] [0] 0 0 0 :=
    ⟨List.mem_cons_self, crossedLayers_covers (by decide), fun d hd => nomatch hd⟩
  obtain ⟨region, hregion, _⟩ := hkeeps 0 0 0 hvisible fun r hr =>
    squashedRow_not_corner r (List.mem_of_mem_take hr)
  cases hregion

end DragonDevice.Hwc
