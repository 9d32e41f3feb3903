/-
  Hwc/PlanOrder.lean --- the order of the planes of a plan.

  The stages choose layers in different orders, yet a layer that gets a plane of its
  own always lies above those that have one already: each stage leaves only layers
  above the ones it has placed.  Only several primary planes would break this, since
  a rotated layer goes below all the others.
-/
import DragonDevice.Hwc.PlannerPlacement
import Mathlib.Algebra.Group.Nat.Defs

set_option autoImplicit false

namespace DragonDevice.Hwc

open DragonDevice.Lib

variable {F : Type}

/-! ## Layers with a plane, and layers that are left -/

/-- The layers with a plane of their own are in order, and all below those that are
left. -/
structure InOrder (rest : List (Nat × DrmHwcLayer F)) (d : Draft) : Prop where
  sorted : d.dedicatedIndices.Pairwise (· < ·)
  below : ∀ i ∈ d.dedicatedIndices, ∀ e ∈ rest, i < e.1

variable {d d' : Draft} {rest : List (Nat × DrmHwcLayer F)} {layers : LayerMap F}

theorem InOrder.of_dedicated (h : InOrder rest d) (hd : d'.dedicatedIndices = d.dedicatedIndices)
    {rest' : List (Nat × DrmHwcLayer F)} (hrest : rest' ⊆ rest) : InOrder rest' d' := by
  refine ⟨?_, ?_⟩
  · rw [hd]
    exact h.sorted
  · rw [hd]
    intro i hi e he
    exact h.below i hi e (hrest he)

/-- Layers that are left may be placed in their order, also only the first of them. -/
theorem InOrder.append (h : InOrder rest d) {taken : List (Nat × DrmHwcLayer F)}
    (htaken : taken.Pairwise fun a b => a.1 < b.1) (hsub : taken ⊆ rest)
    (hd : d'.dedicatedIndices = d.dedicatedIndices ++ taken.map (·.1)) :
    d'.dedicatedIndices.Pairwise (· < ·) := by
  rw [hd, List.pairwise_append]
  refine ⟨h.sorted, List.pairwise_map.mpr htaken, ?_⟩
  intro i hi j hj
  obtain ⟨e, he, hej⟩ := List.mem_map.mp hj
  rw [← hej]
  exact h.below i hi e (hsub he)

theorem precompose_dedicated (d : Draft) (i : Nat) :
    (d.precompose i).dedicatedIndices = d.dedicatedIndices := by
  rw [Draft.precompose]
  split
  · rfl
  · split
    · rfl
    · rfl

theorem foldl_precompose_dedicated :
    ∀ (l : List (Nat × DrmHwcLayer F)) (d : Draft),
      (l.foldl precomposeDraft d).dedicatedIndices = d.dedicatedIndices := by
  intro l
  induction l with
  | nil => intro d; rfl
  | cons e l ih =>
      intro d
      rw [List.foldl_cons, ih]
      exact precompose_dedicated d e.1

theorem foldl_limitDraft_dedicated :
    ∀ (l : List (Nat × DrmHwcLayer F)) (d : Draft),
      (l.foldl limitDraft d).dedicatedIndices = d.dedicatedIndices := by
  intro l
  induction l with
  | nil => intro d; rfl
  | cons e l ih =>
      intro d
      rw [List.foldl_cons, ih, limitDraft]
      split
      · rfl
      · exact precompose_dedicated d e.1

/-! ## The z-order of a protected layer -/

theorem intOfSizeT_eq {i : Nat} (hi : i < 2 ^ 31) : intOfSizeT i = i := by
  rw [intOfSizeT, BitVec.toInt_eq_toNat_cond, BitVec.toNat_ofNat, Nat.mod_eq_of_lt (by omega),
    if_pos (by omega)]

/-- Below 2^31 a layer index survives the trip through an `int`. -/
theorem sizeTOfInt_intOfSizeT {i : Nat} (hi : i < 2 ^ 31) : sizeTOfInt (intOfSizeT i) = i := by
  rw [intOfSizeT_eq hi, sizeTOfInt, BitVec.ofInt_natCast, BitVec.toNat_ofNat]
  exact Nat.mod_eq_of_lt (by omega)

theorem intOfSizeT_ne {i : Nat} (hi : i < 2 ^ 31) : intOfSizeT i ≠ -1 := by
  rw [intOfSizeT_eq hi]
  omega

/-- The second loop of the protected stages leaves only layers above `i`. -/
theorem belowStage_left {i : Nat} (hi : i < 2 ^ 31) (d : Draft) (layers : LayerMap F) :
    ∀ e ∈ (belowStage (d, intOfSizeT i) layers).1.entries, i < e.1 ∧ e ∈ layers.entries := by
  intro e he
  rw [belowStage, if_neg (intOfSizeT_ne hi)] at he
  obtain ⟨hmem, hnot⟩ := List.mem_filter.mp he
  rw [below, sizeTOfInt_intOfSizeT hi] at hnot
  refine ⟨?_, hmem⟩
  simpa using hnot

theorem belowStage_dedicated (s : Draft × Int) (layers : LayerMap F) :
    (belowStage s layers).2.dedicatedIndices = s.1.dedicatedIndices := by
  rw [belowStage]
  split
  · rfl
  · exact foldl_precompose_dedicated _ s.1

/-! ## Stage by stage -/

theorem foldl_rotateDraft_of_no_primary {z : Int} (h : d.planes.countP (·.isPrimary) = 0) :
    ∀ l : List (Nat × DrmHwcLayer F), l.foldl rotateDraft (d, z) = (d, z) := by
  intro l
  induction l with
  | nil => rfl
  | cons e l ih =>
      have hnone : d.dedicateFirst e.1 = none := by
        rw [Draft.dedicateFirst]
        cases htake : takePrimary d.planes with
        | none => rfl
        | some p =>
            have := countP_of_takePrimary htake
            omega
      rw [List.foldl_cons, rotateDraft, hnone]
      exact ih

/-- With one primary plane the first rotated layer gets it, and no other. -/
theorem foldl_rotateDraft_of_one_primary {z : Int} (h : d.planes.countP (·.isPrimary) ≤ 1) :
    ∀ l : List (Nat × DrmHwcLayer F), l.foldl rotateDraft (d, z) = (d, z) ∨
      ∃ e ∈ l, ∃ d', l.foldl rotateDraft (d, z) = (d', intOfSizeT e.1) ∧
        d'.dedicatedIndices = e.1 :: d.dedicatedIndices := by
  intro l
  cases l with
  | nil => exact Or.inl rfl
  | cons e l =>
      cases htake : takePrimary d.planes with
      | none => exact Or.inl (foldl_rotateDraft_of_no_primary (countP_of_takePrimary_none htake) _)
      | some p =>
          obtain ⟨plane, planes⟩ := p
          have hcount := countP_of_takePrimary htake
          have hsome : rotateDraft (d, z) e =
              ({ d with dedicated := (plane, e.1) :: d.dedicated, planes }, intOfSizeT e.1) := by
            rw [rotateDraft, Draft.dedicateFirst, htake]
          have hrest : planes.countP (·.isPrimary) = 0 := by omega
          refine Or.inr ⟨e, List.mem_cons_self,
            { d with dedicated := (plane, e.1) :: d.dedicated, planes }, ?_, rfl⟩
          rw [List.foldl_cons, hsome]
          exact foldl_rotateDraft_of_no_primary hrest l

theorem inOrder_rotatedStage (hkeys : ∀ e ∈ layers.entries, e.1 < 2 ^ 31)
    (hnone : d.dedicatedIndices = []) (hone : d.planes.countP (·.isPrimary) ≤ 1) :
    InOrder (rotatedStage layers d).1.entries (rotatedStage layers d).2 := by
  rw [rotatedStage]
  cases foldl_rotateDraft_of_one_primary hone (z := -1)
      (layers.entries.filter protectedRotated) with
  | inl hsame =>
      rw [hsame]
      have hempty : (belowStage (d, -1)
          (layers.filter fun e => !protectedRotated e)).2.dedicatedIndices = [] := by
        rw [belowStage_dedicated, hnone]
      refine ⟨?_, ?_⟩
      · rw [hempty]
        exact List.Pairwise.nil
      · rw [hempty]
        intro i hi
        cases hi
  | inr hplaced =>
      obtain ⟨e, he, d', hfold, hd'⟩ := hplaced
      have hlt := hkeys e (List.mem_filter.mp he).1
      rw [hfold]
      have hsingle : (belowStage (d', intOfSizeT e.1)
          (layers.filter fun e => !protectedRotated e)).2.dedicatedIndices = [e.1] := by
        rw [belowStage_dedicated, hd', hnone]
      refine ⟨?_, ?_⟩
      · rw [hsingle]
        exact List.pairwise_singleton _ _
      · rw [hsingle]
        intro i hi a ha
        rw [List.mem_singleton.mp hi]
        exact (belowStage_left hlt d' _ a ha).1

/-- The first loop of `PlanStageProtected` gives planes to the first layers of the list, and
remembers the last of all. -/
theorem foldl_protectDraft_spec :
    ∀ (l : List (Nat × DrmHwcLayer F)) (d : Draft) (z : Int),
      (l.foldl protectDraft (d, z)).1.dedicatedIndices =
          d.dedicatedIndices ++ (l.take d.planes.length).map (·.1) ∧
      (l.foldl protectDraft (d, z)).2 = (l.getLast?.map fun e => intOfSizeT e.1).getD z := by
  intro l
  induction l with
  | nil => intro d z; simp
  | cons e l ih =>
      intro d z
      obtain ⟨hded, hz⟩ := ih ((d.dedicate e.1).getD d) (intOfSizeT e.1)
      rw [List.foldl_cons, protectDraft]
      refine ⟨?_, ?_⟩
      · rw [hded]
        obtain ⟨dedicated, precomp, planes⟩ := d
        cases planes with
        | nil => simp [Draft.dedicate]
        | cons plane planes => simp [Draft.dedicate, Draft.dedicatedIndices]
      · rw [hz, List.getLast?_cons]
        cases l.getLast? with
        | none => rfl
        | some last => rfl

theorem sorted_filter (layers : LayerMap F) (p : Nat × DrmHwcLayer F → Bool) :
    (layers.entries.filter p).Pairwise fun a b => a.1 < b.1 :=
  layers.sorted.filter p

theorem inOrder_protectedStage (hkeys : ∀ e ∈ layers.entries, e.1 < 2 ^ 31)
    (h : InOrder layers.entries d) :
    InOrder (protectedStage layers d).1.entries (protectedStage layers d).2 := by
  rw [protectedStage]
  generalize hl : layers.entries.filter (·.2.protectedUsage) = l
  have hsub : l ⊆ layers.entries := by
    rw [← hl]
    exact List.filter_subset_self _
  have hsorted : l.Pairwise fun a b => a.1 < b.1 := by
    rw [← hl]
    exact sorted_filter layers _
  obtain ⟨hded, hz⟩ := foldl_protectDraft_spec l d (-1)
  generalize l.foldl protectDraft (d, -1) = s at hded hz
  obtain ⟨d', z⟩ := s
  have hpairs : d'.dedicatedIndices.Pairwise (· < ·) :=
    h.append (hsorted.sublist (List.take_sublist _ _))
      (List.Subset.trans (List.take_subset _ _) hsub) hded
  refine ⟨by rw [belowStage_dedicated]; exact hpairs, ?_⟩
  rw [belowStage_dedicated]
  intro i hi a ha
  cases hlast : l.getLast? with
  | none =>
      -- nothing is protected, so nothing has changed
      have hnil := List.getLast?_eq_none_iff.mp hlast
      rw [hnil] at hded hz
      simp only [List.take_nil, List.map_nil, List.append_nil] at hded
      have hz' : z = -1 := hz
      rw [hz', belowStage, if_pos rfl] at ha
      have hi' : i ∈ d.dedicatedIndices := by
        rw [← hded]
        exact hi
      exact h.below i hi' a (List.mem_filter.mp ha).1
  | some last =>
      have hmem : last ∈ l := List.mem_of_getLast? hlast
      have hz' : z = intOfSizeT last.1 := by
        rw [hlast] at hz
        exact hz
      rw [hz'] at ha
      obtain ⟨habove, ha'⟩ := belowStage_left (hkeys last (hsub hmem)) d' _ a ha
      have hi' : i ∈ d.dedicatedIndices ++ (l.take d.planes.length).map (·.1) := by
        rw [← hded]
        exact hi
      cases List.mem_append.mp hi' with
      | inl hold => exact h.below i hold a (List.mem_filter.mp ha').1
      | inr hnew =>
          obtain ⟨e, he, hei⟩ := List.mem_map.mp hnew
          have hle : e.1 ≤ last.1 := by
            have hl' := (List.dropLast_append_getLast? last hlast).symm
            have he' := List.mem_of_mem_take he
            rw [hl'] at he' hsorted
            cases List.mem_append.mp he' with
            | inl hin =>
                have := (List.pairwise_append.mp hsorted).2.2 e hin last
                  (List.mem_singleton_self last)
                omega
            | inr heq => rw [List.mem_singleton.mp heq]
          omega

theorem inOrder_precompStage (h : InOrder layers.entries d) :
    InOrder (precompStage layers d).1.entries (precompStage layers d).2 := by
  rw [precompStage]
  split
  · exact h
  · exact h.of_dedicated (foldl_precompose_dedicated _ d) (List.filter_subset_self _)

theorem sorted_greedyStage (h : InOrder layers.entries d) :
    (greedyStage layers d).2.dedicatedIndices.Pairwise (· < ·) := by
  obtain ⟨taken, hl, _, hded, _⟩ := dedicateAll_spec layers.entries d
  have hsorted : (dedicateAll layers.entries d).2.dedicatedIndices.Pairwise (· < ·) := by
    refine h.append ?_ ?_ hded
    · have hpairs := layers.sorted
      rw [hl] at hpairs
      exact (List.pairwise_append.mp hpairs).1
    · intro e he
      rw [hl]
      exact List.mem_append_left _ he
  rw [greedyStage]
  split
  · exact hsorted
  · show (List.foldl precomposeDraft _ _).dedicatedIndices.Pairwise _
    rw [foldl_precompose_dedicated]
    exact hsorted

/-! ## The whole plan -/

variable [Sub F] [Div F] [IntCast F] [LT F] [DecidableLT F]

theorem startDraft_dedicated (layerCount : Nat) (planes : List DrmPlane) :
    (startDraft layerCount planes).dedicatedIndices = [] := by
  have hindices := startDraft_indices layerCount planes
  rw [Draft.indices, List.append_eq_nil_iff] at hindices
  exact hindices.1

/-- With at most one primary plane the dedicated planes of a plan carry their layers from
the bottom to the top. -/
theorem finalDraft_dedicated_sorted {layers : LayerMap F} {useSquashFb : Bool}
    {usable : List DrmPlane} (hkeys : ∀ e ∈ layers.entries, e.1 < 2 ^ 31)
    (hone : usable.countP (·.isPrimary) ≤ 1) :
    (finalDraft layers useSquashFb usable).dedicatedIndices.Pairwise (· < ·) := by
  rw [finalDraft]
  generalize hstart : startDraft layers.entries.length (reserveSquash useSquashFb usable).2 = d
  have hplanes : d.allPlanes.countP (·.isPrimary) ≤ 1 := by
    rw [← hstart, (startDraft_allPlanes _ _).countP_eq]
    refine Nat.le_trans (List.Sublist.countP_le ?_) hone
    rw [reserveSquash]
    split
    · exact List.dropLast_sublist usable
    · exact List.Sublist.refl usable
  have hlimits := stageSpec_limitsStage layers d
  have hnone : (limitsStage layers d).2.dedicatedIndices = [] := by
    rw [limitsStage, foldl_limitDraft_dedicated, ← hstart]
    exact startDraft_dedicated _ _
  have hprimary : (limitsStage layers d).2.planes.countP (·.isPrimary) ≤ 1 := by
    refine Nat.le_trans ?_ hplanes
    rw [← hlimits.planes.countP_eq, Draft.allPlanes, List.countP_append]
    exact Nat.le_add_left _ _
  have hkeys₁ : ∀ e ∈ (limitsStage layers d).1.entries, e.1 < 2 ^ 31 :=
    fun e he => hkeys e (hlimits.remaining he)
  have hkeys₂ : ∀ e ∈ (rotatedStage (limitsStage layers d).1 (limitsStage layers d).2).1.entries,
      e.1 < 2 ^ 31 := fun e he => hkeys₁ e ((stageSpec_rotatedStage _ _).remaining he)
  exact sorted_greedyStage (inOrder_precompStage
    (inOrder_protectedStage hkeys₂ (inOrder_rotatedStage hkeys₁ hnone hprimary)))

end DragonDevice.Hwc
