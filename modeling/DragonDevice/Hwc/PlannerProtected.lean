/-
  Hwc/PlannerProtected.lean --- protected layers and the GL precomposition.

  Only `PlanStageProtectedRotated` can put a protected layer into the
  precomposition: its second loop takes every layer at or below the last rotated
  one it placed, protected layers without a transform included.  All other stages
  only precompose unprotected layers.
-/
import DragonDevice.Hwc.PlannerPlacement
import Mathlib.Data.List.Nodup

set_option autoImplicit false

namespace DragonDevice.Hwc

open DragonDevice.Lib

variable {F : Type}

/-! ## The precomposition under the operations -/

variable {d d' : Draft} {l : List (Nat × DrmHwcLayer F)}

theorem dedicate_precomp {i : Nat} (h : d.dedicate i = some d') : d'.precomp = d.precomp := by
  rw [Draft.dedicate] at h
  split at h
  · cases h
  · cases h
    rfl

theorem dedicateFirst_precomp {i : Nat} (h : d.dedicateFirst i = some d') :
    d'.precomp = d.precomp := by
  rw [Draft.dedicateFirst] at h
  split at h
  · cases h
  · cases h
    rfl

/-- Precomposing a layer adds at most that layer. -/
theorem mem_precompIndices_precompose {i j : Nat} (h : j ∈ (d.precompose i).precompIndices) :
    j ∈ d.precompIndices ∨ j = i := by
  rw [Draft.precompose] at h
  split at h
  · rename_i plane indices hp
    have hmem : j ∈ indices ++ [i] := h
    rw [Draft.precompIndices, hp]
    cases List.mem_append.mp hmem with
    | inl hin => exact Or.inl hin
    | inr heq => exact Or.inr (List.mem_singleton.mp heq)
  · split at h
    · have hmem : j ∈ [i] := h
      exact Or.inr (List.mem_singleton.mp hmem)
    · exact Or.inl h

/-- Where there is room, it adds the layer. -/
theorem self_mem_precompose {i : Nat} (h : d.Room 1) : i ∈ (d.precompose i).precompIndices := by
  rw [Draft.precompose]
  split
  · exact List.mem_append_right _ (List.mem_singleton_self i)
  · rename_i hnone
    split
    · exact List.mem_singleton_self i
    · rename_i hlast
      cases h with
      | inl hsome =>
          rw [hnone] at hsome
          cases hsome
      | inr hlen =>
          rw [List.getLast?_eq_none_iff.mp hlast] at hlen
          exact absurd hlen (Nat.not_succ_le_zero 0)

theorem mem_precompIndices_foldl :
    ∀ (l : List (Nat × DrmHwcLayer F)) (d : Draft) {j : Nat},
      j ∈ (l.foldl precomposeDraft d).precompIndices →
      j ∈ d.precompIndices ∨ j ∈ l.map (·.1) := by
  intro l
  induction l with
  | nil => intro d j h; exact Or.inl h
  | cons e l ih =>
      intro d j h
      cases ih (d.precompose e.1) h with
      | inr hl => exact Or.inr (List.mem_cons_of_mem _ hl)
      | inl hd =>
          cases mem_precompIndices_precompose hd with
          | inl hin => exact Or.inl hin
          | inr heq => exact Or.inr (List.mem_cons.mpr (Or.inl heq))

theorem subset_foldl_precompose :
    ∀ (l : List (Nat × DrmHwcLayer F)) (d : Draft), d.Room l.length →
      l.map (·.1) ⊆ (l.foldl precomposeDraft d).precompIndices := by
  intro l
  induction l with
  | nil => intro d _ j h; cases h
  | cons e l ih =>
      intro d hroom j hj
      have htakes := takes_precompose e d
      cases List.mem_cons.mp hj with
      | inl heq =>
          rw [heq]
          exact (takesAll_precompose l (d.precompose e.1)).precomp
            (self_mem_precompose (hroom.mono (Nat.succ_le_succ (Nat.zero_le _))))
      | inr hmem => exact ih (d.precompose e.1) (htakes.room _ hroom) hmem

/-! ## What is left for the rotated layers -/

theorem foldl_limitDraft_planes :
    ∀ (l : List (Nat × DrmHwcLayer F)) (d : Draft), (l.foldl limitDraft d).planes =
      if d.precomp.isNone && l.any (fun e => !e.2.protectedUsage) then d.planes.dropLast
      else d.planes := by
  intro l
  induction l with
  | nil => intro d; simp
  | cons e l ih =>
      intro d
      cases hprot : e.2.protectedUsage with
      | true =>
          have hlimit : limitDraft d e = d := by
            rw [limitDraft, hprot]
            rfl
          rw [List.foldl_cons, hlimit, ih, List.any_cons, hprot, Bool.not_true, Bool.false_or]
      | false =>
          obtain ⟨dedicated, precomp, planes⟩ := d
          have hlimit : limitDraft ⟨dedicated, precomp, planes⟩ e =
              Draft.precompose ⟨dedicated, precomp, planes⟩ e.1 := by
            rw [limitDraft, hprot]
            rfl
          rw [List.foldl_cons, hlimit, ih, List.any_cons, hprot, Bool.not_false, Bool.true_or,
            Bool.and_true]
          cases precomp with
          | some p => rfl
          | none =>
              cases hlast : planes.getLast? with
              | none =>
                  have hsame : Draft.precompose ⟨dedicated, none, planes⟩ e.1 =
                      ⟨dedicated, none, planes⟩ := by
                    simp only [Draft.precompose, hlast]
                  have hnil : planes = [] := List.getLast?_eq_none_iff.mp hlast
                  rw [hsame, hnil]
                  simp only [List.dropLast_nil, ite_self]
              | some plane =>
                  have hnew : Draft.precompose ⟨dedicated, none, planes⟩ e.1 =
                      ⟨dedicated, some (plane, [e.1]), planes.dropLast⟩ := by
                    simp only [Draft.precompose, hlast]
                  rw [hnew]
                  rfl

/-- The first loop places rotated layers while there are primary planes. -/
theorem foldl_rotateDraft_zorder :
    ∀ (l : List (Nat × DrmHwcLayer F)) (d : Draft) (z : Int),
      (l.foldl rotateDraft (d, z)).2 =
        ((l.take (d.planes.countP (·.isPrimary))).getLast?.map
          fun e => intOfSizeT e.1).getD z := by
  intro l
  induction l with
  | nil => intro d z; simp
  | cons e l ih =>
      intro d z
      rw [List.foldl_cons, rotateDraft]
      cases htake : takePrimary d.planes with
      | none =>
          have hnone : d.dedicateFirst e.1 = none := by rw [Draft.dedicateFirst, htake]
          rw [hnone]
          dsimp only
          rw [ih, countP_of_takePrimary_none htake, List.take_zero, List.take_zero]
      | some p =>
          obtain ⟨plane, rest⟩ := p
          have hsome : d.dedicateFirst e.1 =
              some { d with dedicated := (plane, e.1) :: d.dedicated, planes := rest } := by
            rw [Draft.dedicateFirst, htake]
          rw [hsome]
          dsimp only
          rw [ih, countP_of_takePrimary htake, List.take_succ_cons, List.getLast?_cons]
          cases (l.take (rest.countP (·.isPrimary))).getLast? with
          | none => rfl
          | some last => rfl

section Planner

variable [Sub F] [Div F] [IntCast F] [LT F] [DecidableLT F]

/-- The planes that are left for the rotated layers: without the squash plane, and
without the precomp plane where one has been reserved before. -/
def rotatedPool (layers : LayerMap F) (useSquashFb : Bool) (usable : List DrmPlane) :
    List DrmPlane :=
  let planes := (reserveSquash useSquashFb usable).2
  if planes.length < layers.entries.length ∨
      layers.entries.any (fun e => unsupported e && !e.2.protectedUsage) then planes.dropLast
  else planes

/-- The last protected and rotated layer that gets a primary plane. -/
def lastRotated (layers : LayerMap F) (useSquashFb : Bool) (usable : List DrmPlane) :
    Option (Nat × DrmHwcLayer F) :=
  ((layers.entries.filter fun e => !unsupported e && protectedRotated e).take
    ((rotatedPool layers useSquashFb usable).countP (·.isPrimary))).getLast?

/-- A protected layer without a transform, that the hardware supports, lies at or below
the last rotated layer that is placed, as the planner compares them. -/
def ProtectedBelowRotated (layers : LayerMap F) (useSquashFb : Bool)
    (usable : List DrmPlane) : Prop :=
  ∃ r, lastRotated layers useSquashFb usable = some r ∧ intOfSizeT r.1 ≠ -1 ∧
    ∃ e ∈ layers.entries, unsupported e = false ∧ e.2.protectedUsage = true ∧
      e.2.transform = 0#32 ∧ e.1 ≤ sizeTOfInt (intOfSizeT r.1)

theorem limitsStage_planes (layers : LayerMap F) (useSquashFb : Bool) (usable : List DrmPlane) :
    (limitsStage layers (startDraft layers.entries.length
      (reserveSquash useSquashFb usable).2)).2.planes = rotatedPool layers useSquashFb usable := by
  have hany : (layers.entries.filter unsupported).any (fun e => !e.2.protectedUsage) =
      layers.entries.any (fun e => unsupported e && !e.2.protectedUsage) := List.any_filter
  rw [limitsStage, foldl_limitDraft_planes, hany, rotatedPool]
  generalize (reserveSquash useSquashFb usable).2 = planes
  by_cases hlt : planes.length < layers.entries.length
  · cases hlast : planes.getLast? with
    | none =>
        have hstart : startDraft layers.entries.length planes = ⟨[], none, planes⟩ := by
          simp only [startDraft, hlast, ite_self]
        have hnil : planes = [] := List.getLast?_eq_none_iff.mp hlast
        rw [hstart, hnil]
        simp only [List.dropLast_nil, ite_self]
    | some plane =>
        have hstart : startDraft layers.entries.length planes =
            ⟨[], some (plane, []), planes.dropLast⟩ := by
          simp only [startDraft, hlast, if_pos hlt]
        rw [hstart, if_pos (Or.inl hlt)]
        rfl
  · have hstart : startDraft layers.entries.length planes = ⟨[], none, planes⟩ := by
      rw [startDraft, if_neg hlt]
    rw [hstart]
    cases hany' : layers.entries.any fun e => unsupported e && !e.2.protectedUsage with
    | true =>
        rw [if_pos (Or.inr rfl)]
        rfl
    | false =>
        have hno : ¬ (planes.length < layers.entries.length ∨ false = true) := by
          simpa using hlt
        rw [if_neg hno]
        rfl

/-- `protected_zorder` after the first loop of `PlanStageProtectedRotated`. -/
theorem rotated_zorder (layers : LayerMap F) (useSquashFb : Bool) (usable : List DrmPlane)
    {d : Draft} (hd : d.planes = rotatedPool layers useSquashFb usable) :
    (((layers.filter fun e => !unsupported e).entries.filter protectedRotated).foldl
      rotateDraft (d, -1)).2 =
      ((lastRotated layers useSquashFb usable).map fun e => intOfSizeT e.1).getD (-1) := by
  have hfilter : (layers.filter fun e => !unsupported e).entries.filter protectedRotated =
      layers.entries.filter fun e => !unsupported e && protectedRotated e := by
    rw [OrderedMap.filter_entries, List.filter_filter]
    congr 1
    funext e
    exact Bool.and_comm _ _
  rw [hfilter, foldl_rotateDraft_zorder, hd, lastRotated]

end Planner

/-! ## Clean stages -/

/-- No layer of the precomposition is a protected one of the frame. -/
def Clean (frame : LayerMap F) (d : Draft) : Prop :=
  ∀ e ∈ frame.entries, e.1 ∈ d.precompIndices → e.2.protectedUsage = false

theorem eq_of_mem_of_key_eq {frame : LayerMap F} {e e' : Nat × DrmHwcLayer F}
    (he : e ∈ frame.entries) (he' : e' ∈ frame.entries) (hkey : e.1 = e'.1) : e = e' :=
  List.inj_on_of_nodup_map (keys_nodup frame) he he' hkey

/-- Precomposing unprotected layers of the frame keeps it clean. -/
theorem Clean.foldl_precompose {frame : LayerMap F} {d : Draft} (h : Clean frame d)
    {l : List (Nat × DrmHwcLayer F)} (hl : l ⊆ frame.entries)
    (hplain : ∀ e ∈ l, e.2.protectedUsage = false) :
    Clean frame (l.foldl precomposeDraft d) := by
  intro e he hmem
  cases mem_precompIndices_foldl l d hmem with
  | inl hd => exact h e he hd
  | inr hin =>
      obtain ⟨e', he', hkey⟩ := List.mem_map.mp hin
      have heq := eq_of_mem_of_key_eq (hl he') he hkey
      rw [← heq]
      exact hplain e' he'

theorem Clean.of_precomp {frame : LayerMap F} (h : Clean frame d) (hp : d'.precomp = d.precomp) :
    Clean frame d' := by
  intro e he hmem
  refine h e he ?_
  rw [Draft.precompIndices, ← hp]
  exact hmem

theorem clean_belowStage {frame layers : LayerMap F} {s : Draft × Int} (h : Clean frame s.1)
    (hl : layers.entries ⊆ frame.entries)
    (hplain : ∀ e ∈ layers.entries, below s.2 e = true → s.2 ≠ -1 → e.2.protectedUsage = false) :
    Clean frame (belowStage s layers).2 := by
  rw [belowStage]
  split
  · exact h
  · rename_i hz
    refine h.foldl_precompose (fun e he => hl (List.mem_filter.mp he).1) ?_
    intro e he
    obtain ⟨hmem, hbelow⟩ := List.mem_filter.mp he
    exact hplain e hmem hbelow hz

theorem foldl_rotateDraft_precomp :
    ∀ (l : List (Nat × DrmHwcLayer F)) (s : Draft × Int),
      (l.foldl rotateDraft s).1.precomp = s.1.precomp := by
  intro l
  induction l with
  | nil => intro s; rfl
  | cons e l ih =>
      intro s
      rw [List.foldl_cons, ih, rotateDraft]
      cases hded : s.1.dedicateFirst e.1 with
      | none => rfl
      | some d => exact dedicateFirst_precomp hded

theorem foldl_protectDraft_precomp :
    ∀ (l : List (Nat × DrmHwcLayer F)) (s : Draft × Int),
      (l.foldl protectDraft s).1.precomp = s.1.precomp := by
  intro l
  induction l with
  | nil => intro s; rfl
  | cons e l ih =>
      intro s
      rw [List.foldl_cons, ih, protectDraft]
      cases hded : s.1.dedicate e.1 with
      | none => rfl
      | some d => exact dedicate_precomp hded

/-- No protected layer is left in the map after `PlanStageProtected`. -/
theorem protectedStage_entries (layers : LayerMap F) (d : Draft) :
    ∀ e ∈ (protectedStage layers d).1.entries, e.2.protectedUsage = false := by
  intro e he
  have hfirst : ∀ e ∈ (layers.filter fun e => !e.2.protectedUsage).entries,
      e.2.protectedUsage = false := by
    intro e he
    simpa using (List.mem_filter.mp he).2
  exact hfirst e ((stageSpec_belowStage _ _ _).remaining he)

theorem clean_protectedStage {frame layers : LayerMap F} (h : Clean frame d)
    (hl : layers.entries ⊆ frame.entries) : Clean frame (protectedStage layers d).2 := by
  refine clean_belowStage (h.of_precomp (foldl_protectDraft_precomp _ _)) ?_ ?_
  · intro e he
    exact hl (List.mem_filter.mp he).1
  · intro e he _ _
    simpa using (List.mem_filter.mp he).2

theorem clean_precompStage {frame layers : LayerMap F} (h : Clean frame d)
    (hl : layers.entries ⊆ frame.entries)
    (hplain : ∀ e ∈ layers.entries, e.2.protectedUsage = false) :
    Clean frame (precompStage layers d).2 := by
  rw [precompStage]
  split
  · exact h
  · refine h.foldl_precompose (fun e he => hl (List.mem_filter.mp he).1) ?_
    intro e he
    exact hplain e (List.mem_filter.mp he).1

theorem clean_greedyStage {frame layers : LayerMap F} (h : Clean frame d)
    (hl : layers.entries ⊆ frame.entries)
    (hplain : ∀ e ∈ layers.entries, e.2.protectedUsage = false) :
    Clean frame (greedyStage layers d).2 := by
  have hfirst : Clean frame (dedicateAll layers.entries d).2 :=
    h.of_precomp (dedicateAll_precomp layers.entries d)
  have hsub := (dedicateAll_suffix layers.entries d).subset
  rw [greedyStage]
  split
  · exact hfirst
  · exact hfirst.foldl_precompose (List.Subset.trans hsub hl) fun e he => hplain e (hsub he)

/-- The stages that all platforms share neither clean nor dirty the precomposition. -/
theorem clean_planRest_iff {frame layers : LayerMap F} (hl : layers.entries ⊆ frame.entries) :
    Clean frame (planRest layers d).2 ↔ Clean frame d := by
  refine ⟨fun h e he hmem => h e he ((stageSpec_planRest layers d).precomp hmem), fun h => ?_⟩
  have hsub := (stageSpec_protectedStage layers d).remaining
  have hsub' := (stageSpec_precompStage (protectedStage layers d).1
    (protectedStage layers d).2).remaining
  have hplain := protectedStage_entries layers d
  refine clean_greedyStage (clean_precompStage (clean_protectedStage h hl)
    (List.Subset.trans hsub hl) hplain) (List.Subset.trans hsub' (List.Subset.trans hsub hl)) ?_
  intro e he
  exact hplain e (hsub' he)

/-- The rotated stage keeps a clean precomposition clean exactly when it takes no
protected layer with it. -/
theorem clean_rotatedStage_iff {frame layers : LayerMap F} {z : Int} (h : Clean frame d)
    (hl : layers.entries ⊆ frame.entries)
    (hz : ((layers.entries.filter protectedRotated).foldl rotateDraft (d, -1)).2 = z)
    (hroom : z ≠ -1 → d.Room layers.entries.length) :
    Clean frame (rotatedStage layers d).2 ↔
      ¬ (z ≠ -1 ∧ ∃ e ∈ layers.entries, protectedRotated e = false ∧
        e.2.protectedUsage = true ∧ below z e = true) := by
  have hloop := stageSpec_rotateLoop layers d
  have hprecomp := foldl_rotateDraft_precomp (layers.entries.filter protectedRotated) (d, -1)
  rw [rotatedStage]
  generalize (layers.entries.filter protectedRotated).foldl rotateDraft (d, -1) = s
    at hz hloop hprecomp ⊢
  subst hz
  refine ⟨fun hclean hbad => ?_, fun hgood => ?_⟩
  · obtain ⟨hne, e, he, hrot, hprot, hbelow⟩ := hbad
    have hkept : e ∈ (layers.filter fun e => !protectedRotated e).entries :=
      List.mem_filter.mpr ⟨he, by rw [hrot]; rfl⟩
    have hroom' : s.1.Room ((layers.filter fun e => !protectedRotated e).entries.filter
        (below s.2)).length :=
      (hloop.room (hroom hne)).mono (List.length_filter_le _ _)
    rw [belowStage, if_neg hne] at hclean
    have hmem := subset_foldl_precompose _ s.1 hroom'
      (List.mem_map.mpr ⟨e, List.mem_filter.mpr ⟨hkept, hbelow⟩, rfl⟩)
    rw [hclean e (hl he) hmem] at hprot
    cases hprot
  · refine clean_belowStage (h.of_precomp hprecomp) ?_ ?_
    · intro e he
      exact hl (List.mem_filter.mp he).1
    · intro e he hbelow hne
      obtain ⟨hmem, hrot⟩ := List.mem_filter.mp he
      cases hprot : e.2.protectedUsage with
      | false => rfl
      | true => exact absurd ⟨hne, e, hmem, by simpa using hrot, hprot, hbelow⟩ hgood

/-! ## The whole planner -/

section Planner

variable [Sub F] [Div F] [IntCast F] [LT F] [DecidableLT F]

theorem startDraft_precompIndices (layerCount : Nat) (planes : List DrmPlane) :
    (startDraft layerCount planes).precompIndices = [] :=
  (List.append_eq_nil_iff.mp (startDraft_indices layerCount planes)).2

omit [Sub F] [Div F] [IntCast F] [LT F] [DecidableLT F] in
theorem foldl_limitDraft_eq (l : List (Nat × DrmHwcLayer F)) (d : Draft) :
    l.foldl limitDraft d = (l.filter fun e => !e.2.protectedUsage).foldl precomposeDraft d := by
  rw [eq_comm, List.foldl_filter]
  congr 1
  funext d e
  rw [limitDraft]
  cases e.2.protectedUsage with
  | true => rfl
  | false => rfl

theorem clean_limitsStage {frame : LayerMap F} (h : Clean frame d) :
    Clean frame (limitsStage frame d).2 := by
  rw [limitsStage]
  dsimp only
  rw [foldl_limitDraft_eq]
  refine h.foldl_precompose ?_ ?_
  · intro e he
    exact (List.mem_filter.mp (List.mem_filter.mp he).1).1
  · intro e he
    simpa using (List.mem_filter.mp he).2

theorem clean_planDraft_iff (frame : LayerMap F) (d : Draft) :
    Clean frame (planDraft frame d).2 ↔
      Clean frame (rotatedStage (limitsStage frame d).1 (limitsStage frame d).2).2 := by
  have hlimits := stageSpec_limitsStage frame d
  have hrotated := stageSpec_rotatedStage (limitsStage frame d).1 (limitsStage frame d).2
  exact clean_planRest_iff (List.Subset.trans hrotated.remaining hlimits.remaining)

theorem clean_finalDraft_iff (frame : LayerMap F) (useSquashFb : Bool)
    (usable : List DrmPlane) :
    Clean frame (finalDraft frame useSquashFb usable) ↔
      ¬ ProtectedBelowRotated frame useSquashFb usable := by
  have hstart : Clean frame (startDraft frame.entries.length
      (reserveSquash useSquashFb usable).2) := by
    intro e _ hmem
    rw [startDraft_precompIndices] at hmem
    cases hmem
  have hlimits := stageSpec_limitsStage frame (startDraft frame.entries.length
    (reserveSquash useSquashFb usable).2)
  have hz := rotated_zorder frame useSquashFb usable (limitsStage_planes frame useSquashFb usable)
  -- a rotated layer is only placed where a plane is left, and then there is room
  have hroom : ((lastRotated frame useSquashFb usable).map fun e => intOfSizeT e.1).getD (-1) ≠ -1 →
      (reserveSquash useSquashFb usable).2 ≠ [] := by
    intro hne hnil
    refine hne ?_
    have hpool : rotatedPool frame useSquashFb usable = [] := by
      rw [rotatedPool, hnil]
      simp only [List.dropLast_nil, ite_self]
    rw [lastRotated, hpool]
    simp
  have hrotated := clean_rotatedStage_iff (clean_limitsStage hstart) hlimits.remaining hz
    (fun hne => hlimits.room (startDraft_room (Or.inl (hroom hne))))
  refine (clean_planDraft_iff frame _).trans (hrotated.trans (not_congr ⟨?_, ?_⟩))
  · intro hbad
    obtain ⟨hne, e, he, hrot, hprot, hbelow⟩ := hbad
    cases hlast : lastRotated frame useSquashFb usable with
    | none =>
        rw [hlast] at hne
        exact absurd rfl hne
    | some r =>
        rw [hlast] at hne hbelow
        obtain ⟨hmem, hsup⟩ := List.mem_filter.mp he
        refine ⟨r, hlast, hne, e, hmem, by simpa using hsup, hprot, ?_,
          of_decide_eq_true hbelow⟩
        rw [protectedRotated, hprot, Bool.true_and] at hrot
        simpa using hrot
  · intro hbad
    obtain ⟨r, hlast, hne, e, he, hsup, hprot, htransform, hbelow⟩ := hbad
    rw [hlast]
    refine ⟨hne, e, List.mem_filter.mpr ⟨he, by rw [hsup]; rfl⟩, ?_, hprot,
      decide_eq_true hbelow⟩
    rw [protectedRotated, htransform]
    simp

/-- No protected layer is a source of a precomp plane. -/
def KeepsProtectedOut (frame : LayerMap F) (composition : List DrmCompositionPlane) : Prop :=
  ∀ p ∈ composition, p.type = .precomp → ∀ e ∈ frame.entries, e.1 ∈ p.sourceLayers →
    e.2.protectedUsage = false

/-- The planner keeps protected layers out of the precomposition exactly when none of
them lies below a rotated one that it places. -/
theorem provisionPlanes_keepsProtectedOut_iff (frame : LayerMap F) (useSquashFb : Bool)
    (crtc : DrmCrtc) (primaryPlanes overlayPlanes : List DrmPlane) :
    KeepsProtectedOut frame
        (provisionPlanes nvStages frame useSquashFb crtc primaryPlanes overlayPlanes).2 ↔
      ¬ ProtectedBelowRotated frame useSquashFb
        (getUsablePlanes crtc primaryPlanes overlayPlanes) := by
  rw [provisionPlanes_eq]
  generalize getUsablePlanes crtc primaryPlanes overlayPlanes = usable
  by_cases husable : usable = []
  · rw [if_pos husable]
    refine ⟨fun _ hbad => ?_, fun _ p hp => nomatch hp⟩
    obtain ⟨r, hlast, _⟩ := hbad
    have hpool : rotatedPool frame useSquashFb usable = [] := by
      rw [rotatedPool, husable, reserveSquash]
      cases useSquashFb with
      | true => simp
      | false => simp
    rw [lastRotated, hpool] at hlast
    cases hlast
  · rw [if_neg husable, ← clean_finalDraft_iff]
    refine ⟨fun h e he hmem => ?_, fun h p hp htype e he hmem => ?_⟩
    · cases hprecomp : (finalDraft frame useSquashFb usable).precomp with
      | none =>
          rw [Draft.precompIndices, hprecomp] at hmem
          cases hmem
      | some p =>
          rw [Draft.precompIndices, hprecomp] at hmem
          refine h (precompPlane crtc p) (List.mem_append_left _ ?_) rfl e he hmem
          rw [Draft.composition, hprecomp]
          exact List.mem_append_right _ (List.mem_singleton_self _)
    · refine h e he ?_
      cases List.mem_append.mp hp with
      | inr hsquash =>
          obtain ⟨plane, _, heq⟩ := List.mem_map.mp hsquash
          rw [← heq] at htype
          cases htype
      | inl hdraft =>
          cases List.mem_append.mp hdraft with
          | inl hded =>
              obtain ⟨q, _, heq⟩ := List.mem_map.mp hded
              rw [← heq] at htype
              cases htype
          | inr hpre =>
              obtain ⟨q, hq, heq⟩ := List.mem_map.mp hpre
              rw [Draft.precompIndices, Option.mem_toList.mp hq]
              rw [← heq] at hmem
              exact hmem

end Planner

/-- A protected layer below a protected one that is rotated. -/
def protectedPair : LayerMap Rat :=
  ⟨[(0, plainLayer grallocUsageProtected 0#32), (1, plainLayer grallocUsageProtected kRotate90)],
    by simp⟩

def overlayPlane : DrmPlane := ⟨31, .overlay, 1#32⟩

/-- With a plane for each of the two, the lower one is precomposed. -/
theorem provisionPlanes_precomposes_protected :
    ¬ KeepsProtectedOut protectedPair
      (provisionPlanes nvStages protectedPair false smallCrtc [primaryPlane] [overlayPlane]).2 := by
  intro h
  have hplan : (provisionPlanes nvStages protectedPair false smallCrtc [primaryPlane]
      [overlayPlane]).2 = [⟨.layer, primaryPlane, some smallCrtc, [1]⟩,
        ⟨.precomp, overlayPlane, some smallCrtc, [0]⟩] := by decide +kernel
  rw [hplan] at h
  have hplain := h ⟨.precomp, overlayPlane, some smallCrtc, [0]⟩ (by simp) rfl
    (0, plainLayer grallocUsageProtected 0#32) (by simp [protectedPair]) (by simp)
  exact absurd hplain (by decide)

end DragonDevice.Hwc
