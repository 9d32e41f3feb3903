/-
  Hwc/PlanStages.lean --- the plan stages as operations on drafts.

  Each stage of the planner keeps the form of a draft, so the stages can be read as
  functions on drafts, and the whole planner computes `planDraft`.  Every stage
  meets `StageSpec`; with room at the start no layer is left over at the end.
-/
import DragonDevice.Hwc.PlanDraft

set_option autoImplicit false

namespace DragonDevice.Hwc

open DragonDevice.Lib

variable {F : Type}

/-! ## Stages on drafts -/

/-- A layer that fails the checks of `PlanStageNvLimits`. -/
def unsupported [Sub F] [Div F] [IntCast F] [LT F] [DecidableLT F]
    (e : Nat × DrmHwcLayer F) : Bool := !checkLayer e.1 e.2

/-- A layer for `PlanStageProtectedRotated`. -/
def protectedRotated (e : Nat × DrmHwcLayer F) : Bool :=
  e.2.protectedUsage && e.2.transform != 0#32

def limitDraft (d : Draft) (e : Nat × DrmHwcLayer F) : Draft :=
  if e.2.protectedUsage then d else d.precompose e.1

def precomposeDraft (d : Draft) (e : Nat × DrmHwcLayer F) : Draft := d.precompose e.1

def rotateDraft (s : Draft × Int) (e : Nat × DrmHwcLayer F) : Draft × Int :=
  match s.1.dedicateFirst e.1 with
  | some d => (d, intOfSizeT e.1)
  | none => s

def protectDraft (s : Draft × Int) (e : Nat × DrmHwcLayer F) : Draft × Int :=
  ((s.1.dedicate e.1).getD s.1, intOfSizeT e.1)

/-- The layers at or below the protected one. -/
def below (protectedZorder : Int) (e : Nat × DrmHwcLayer F) : Bool :=
  decide (e.1 ≤ sizeTOfInt protectedZorder)

def belowStage (s : Draft × Int) (layers : LayerMap F) : LayerMap F × Draft :=
  if s.2 = -1 then (layers, s.1)
  else (layers.filter fun e => !below s.2 e,
    (layers.entries.filter (below s.2)).foldl precomposeDraft s.1)

def limitsStage [Sub F] [Div F] [IntCast F] [LT F] [DecidableLT F] (layers : LayerMap F)
    (d : Draft) : LayerMap F × Draft :=
  (layers.filter fun e => !unsupported e, (layers.entries.filter unsupported).foldl limitDraft d)

def rotatedStage (layers : LayerMap F) (d : Draft) : LayerMap F × Draft :=
  belowStage ((layers.entries.filter protectedRotated).foldl rotateDraft (d, -1))
    (layers.filter fun e => !protectedRotated e)

def protectedStage (layers : LayerMap F) (d : Draft) : LayerMap F × Draft :=
  belowStage ((layers.entries.filter (·.2.protectedUsage)).foldl protectDraft (d, -1))
    (layers.filter fun e => !e.2.protectedUsage)

def precompStage (layers : LayerMap F) (d : Draft) : LayerMap F × Draft :=
  match d.precompIndices.min? with
  | none => (layers, d)
  | some z => (layers.filter fun e => !!decide (e.1 < z),
      (layers.entries.filter fun e => !decide (e.1 < z)).foldl precomposeDraft d)

def dedicateAll : List (Nat × DrmHwcLayer F) → Draft → List (Nat × DrmHwcLayer F) × Draft
  | [], d => ([], d)
  | e :: rest, d =>
      match d.dedicate e.1 with
      | none => (e :: rest, d)
      | some d => dedicateAll rest d

theorem dedicateAll_suffix :
    ∀ (l : List (Nat × DrmHwcLayer F)) (d : Draft), (dedicateAll l d).1 <:+ l := by
  intro l
  induction l with
  | nil => intro d; exact List.suffix_refl []
  | cons e rest ih =>
      intro d
      rw [dedicateAll]
      split
      · exact List.suffix_refl _
      · exact (ih _).trans (List.suffix_cons e rest)

/-- The precomposition is not touched. -/
theorem dedicateAll_precomp :
    ∀ (l : List (Nat × DrmHwcLayer F)) (d : Draft),
      (dedicateAll l d).2.precomp = d.precomp := by
  intro l
  induction l with
  | nil => intro d; rfl
  | cons e rest ih =>
      intro d
      rw [dedicateAll]
      cases hded : d.dedicate e.1 with
      | none => rfl
      | some d' =>
          have hsame : d'.precomp = d.precomp := by
            rw [Draft.dedicate] at hded
            split at hded
            · cases hded
            · cases hded
              rfl
          exact (ih d').trans hsame

def greedyStage (layers : LayerMap F) (d : Draft) : LayerMap F × Draft :=
  match d.precomp with
  | none => (⟨(dedicateAll layers.entries d).1,
      layers.sorted.sublist (dedicateAll_suffix _ _).sublist⟩, (dedicateAll layers.entries d).2)
  | some _ => (.empty,
      (dedicateAll layers.entries d).1.foldl precomposeDraft (dedicateAll layers.entries d).2)

/-- The stages that all platforms share. -/
def planRest (layers : LayerMap F) (d : Draft) : LayerMap F × Draft :=
  let (layers, d) := protectedStage layers d
  let (layers, d) := precompStage layers d
  greedyStage layers d

/-- All stages. -/
def planDraft [Sub F] [Div F] [IntCast F] [LT F] [DecidableLT F] (layers : LayerMap F)
    (d : Draft) : LayerMap F × Draft :=
  let (layers, d) := limitsStage layers d
  let (layers, d) := rotatedStage layers d
  planRest layers d

/-! ## The code's stages are these -/

section Refinement

/-- The state of the first loops: the draft and `protected_zorder`. -/
def provisionAt (crtc : DrmCrtc) (s : Draft × Int) : Provision × Int := (s.1.provision crtc, s.2)

variable (crtc : DrmCrtc) (layers : LayerMap F) (d : Draft)

theorem foldl_precompose_provision (l : List (Nat × DrmHwcLayer F)) :
    l.foldl (fun s e => precompose crtc s e.1) (d.provision crtc) =
      (l.foldl precomposeDraft d).provision crtc :=
  List.foldl_hom (Draft.provision crtc) fun d e => precompose_provision crtc d e.1

theorem planStageNvLimits_provision [Sub F] [Div F] [IntCast F] [LT F] [DecidableLT F] :
    planStageNvLimits crtc layers (d.provision crtc) =
      (0, (limitsStage layers d).1, (limitsStage layers d).2.provision crtc) := by
  have hfold : (layers.entries.filter unsupported).foldl
      (fun s e => if e.2.protectedUsage then s else precompose crtc s e.1) (d.provision crtc) =
      ((layers.entries.filter unsupported).foldl limitDraft d).provision crtc := by
    refine List.foldl_hom (Draft.provision crtc) ?_
    intro d e
    rw [limitDraft]
    split
    · rfl
    · exact precompose_provision crtc d e.1
  rw [planStageNvLimits, OrderedMap.eraseLoop_eq]
  exact congrArg (fun s => ((0 : Int), _, s)) hfold

/-- The second loop of the protected stages, from the state its first loop leaves. -/
theorem precomposeBelow_provision (z : Int) :
    (if z = -1 then ((0 : Int), layers, d.provision crtc)
      else
        let (layers, s) := precomposeBelow crtc z layers (d.provision crtc)
        (0, layers, s)) =
      (0, (belowStage (d, z) layers).1, (belowStage (d, z) layers).2.provision crtc) := by
  rw [belowStage]
  split
  · rfl
  · rw [precomposeBelow, OrderedMap.eraseLoop_eq]
    exact congrArg (fun s => ((0 : Int), _, s)) (foldl_precompose_provision crtc d _)

theorem planStageProtectedRotated_provision :
    planStageProtectedRotated crtc layers (d.provision crtc) =
      (0, (rotatedStage layers d).1, (rotatedStage layers d).2.provision crtc) := by
  have hfold : (layers.entries.filter protectedRotated).foldl
      (fun s e => placeRotated crtc s e.1) (provisionAt crtc (d, -1)) =
      provisionAt crtc ((layers.entries.filter protectedRotated).foldl rotateDraft (d, -1)) := by
    refine List.foldl_hom (provisionAt crtc) ?_
    intro s e
    rw [provisionAt, placeRotated_provision, rotateDraft]
    cases s.1.dedicateFirst e.1 with
    | none => rfl
    | some d => rfl
  rw [planStageProtectedRotated, OrderedMap.eraseLoop_eq]
  exact (congrArg (fun s : Provision × Int =>
    if s.2 = -1 then ((0 : Int), layers.filter fun e => !protectedRotated e, s.1)
    else
      let (layers, s) := precomposeBelow crtc s.2 (layers.filter fun e => !protectedRotated e) s.1
      (0, layers, s)) hfold).trans (precomposeBelow_provision crtc _ _ _)

theorem planStageProtected_provision :
    planStageProtected crtc layers (d.provision crtc) =
      (0, (protectedStage layers d).1, (protectedStage layers d).2.provision crtc) := by
  have hfold : (layers.entries.filter (·.2.protectedUsage)).foldl
      (fun s e => placeProtected crtc s e.1) (provisionAt crtc (d, -1)) =
      provisionAt crtc
        ((layers.entries.filter (·.2.protectedUsage)).foldl protectDraft (d, -1)) := by
    refine List.foldl_hom (provisionAt crtc) ?_
    intro s e
    rw [provisionAt, placeProtected, protectDraft, emplace_provision]
    cases s.1.dedicate e.1 with
    | none => rfl
    | some d => rfl
  rw [planStageProtected, OrderedMap.eraseLoop_eq]
  exact (congrArg (fun s : Provision × Int =>
    if s.2 = -1 then ((0 : Int), layers.filter fun e => !e.2.protectedUsage, s.1)
    else
      let (layers, s) := precomposeBelow crtc s.2 (layers.filter fun e => !e.2.protectedUsage) s.1
      (0, layers, s)) hfold).trans (precomposeBelow_provision crtc _ _ _)

theorem foldl_pushPrecomp_provision :
    ∀ (l : List (Nat × DrmHwcLayer F)) (d : Draft), d.precomp.isSome = true →
      l.foldl (fun s e => { s with composition := pushPrecomp e.1 s.composition })
        (d.provision crtc) = (l.foldl precomposeDraft d).provision crtc := by
  intro l
  induction l with
  | nil => intro d _; rfl
  | cons e l ih =>
      intro d h
      rw [List.foldl_cons, List.foldl_cons, pushPrecomp_provision crtc h]
      exact ih _ (isSome_precompose h)

theorem planStagePrecomp_provision :
    planStagePrecomp crtc layers (d.provision crtc) =
      (0, (precompStage layers d).1, (precompStage layers d).2.provision crtc) := by
  have hprecomp : getPrecomp (d.provision crtc).composition =
      d.precomp.map (precompPlane crtc) := getPrecomp_composition crtc d
  rw [planStagePrecomp, hprecomp, precompStage]
  cases hp : d.precomp with
  | none => simp only [Option.map_none, Draft.precompIndices, hp, Option.getD_none, List.min?_nil]
  | some p =>
      simp only [Option.map_some, Draft.precompIndices, hp, Option.getD_some, precompPlane]
      cases p.2.min? with
      | none => rfl
      | some z =>
          dsimp only
          rw [OrderedMap.eraseLoop_eq]
          exact congrArg (fun s => ((0 : Int), _, s))
            (foldl_pushPrecomp_provision crtc _ d (by rw [hp]; rfl))

theorem emplaceAll_provision :
    ∀ (l : List (Nat × DrmHwcLayer F)) (d : Draft), emplaceAll crtc l (d.provision crtc) =
      ((dedicateAll l d).1, (dedicateAll l d).2.provision crtc) := by
  intro l
  induction l with
  | nil => intro d; rfl
  | cons e rest ih =>
      intro d
      rw [emplaceAll, dedicateAll, emplace_provision]
      cases d.dedicate e.1 with
      | none => rfl
      | some d' => exact ih d'

theorem planStageGreedy_provision :
    planStageGreedy crtc layers (d.provision crtc) =
      (0, (greedyStage layers d).1, (greedyStage layers d).2.provision crtc) := by
  have hall := emplaceAll_provision crtc layers.entries d
  have hprecomp : getPrecomp (emplaceAll crtc layers.entries (d.provision crtc)).2.composition =
      d.precomp.map (precompPlane crtc) := by
    rw [hall, ← dedicateAll_precomp layers.entries d]
    exact getPrecomp_composition crtc _
  rw [planStageGreedy, hprecomp, greedyStage]
  cases hp : d.precomp with
  | none => simp only [hall, Option.map_none]
  | some p =>
      have hsome : (dedicateAll layers.entries d).2.precomp.isSome = true := by
        rw [dedicateAll_precomp, hp]
        rfl
      have hempty : ∀ m : LayerMap F, (m.filter fun _ => !true) = .empty := by
        intro m
        simp [OrderedMap.filter, OrderedMap.empty]
      simp only [Option.map_some, OrderedMap.eraseLoop_eq, hall, hempty, List.filter_true,
        foldl_pushPrecomp_provision crtc _ _ hsome]

/-- The whole planner, from any draft. -/
theorem runStages_nvStages [Sub F] [Div F] [IntCast F] [LT F] [DecidableLT F] :
    runStages crtc nvStages layers (d.provision crtc) =
      (0, (planDraft layers d).1, (planDraft layers d).2.provision crtc) := by
  simp only [nvStages, runStages, planStageNvLimits_provision,
    planStageProtectedRotated_provision, planStageProtected_provision,
    planStagePrecomp_provision, planStageGreedy_provision, planDraft, planRest]

end Refinement

/-! ## Nothing is lost or used twice -/

variable {layers : LayerMap F} {d d' : Draft}

theorem takesAll_precompose (l : List (Nat × DrmHwcLayer F)) (d : Draft) :
    TakesAll l d (l.foldl precomposeDraft d) :=
  takesAll_foldl l d fun e _ d => takes_precompose e d

theorem stageSpec_belowStage (z : Int) (layers : LayerMap F) (d : Draft) :
    StageSpec layers d (belowStage (d, z) layers).1 (belowStage (d, z) layers).2 := by
  rw [belowStage]
  split
  · exact StageSpec.refl layers d
  · exact stageSpec_of_filter (below z) (takesAll_precompose _ d)

theorem stageSpec_limitsStage [Sub F] [Div F] [IntCast F] [LT F] [DecidableLT F]
    (layers : LayerMap F) (d : Draft) :
    StageSpec layers d (limitsStage layers d).1 (limitsStage layers d).2 := by
  refine stageSpec_of_filter unsupported (takesAll_foldl _ d fun e _ d => ?_)
  rw [limitDraft]
  split
  · rename_i hprot
    exact takes_of_protected e d hprot
  · exact takes_precompose e d

/-- The drafts of the first loops, without `protected_zorder`. -/
theorem foldl_fst {body : Draft × Int → Nat × DrmHwcLayer F → Draft × Int}
    {draftBody : Draft → Nat × DrmHwcLayer F → Draft}
    (h : ∀ s e, draftBody s.1 e = (body s e).1) (l : List (Nat × DrmHwcLayer F))
    (s : Draft × Int) : (l.foldl body s).1 = l.foldl draftBody s.1 :=
  (List.foldl_hom Prod.fst h).symm

/-- The first loop of `PlanStageProtectedRotated`. -/
theorem takesAll_rotateDraft (l : List (Nat × DrmHwcLayer F))
    (hprot : ∀ e ∈ l, e.2.protectedUsage = true) (d : Draft) (z : Int) :
    TakesAll l d (l.foldl rotateDraft (d, z)).1 := by
  have hfst := @foldl_fst F rotateDraft (fun d e => (d.dedicateFirst e.1).getD d)
    (fun s e => by rw [rotateDraft]; cases s.1.dedicateFirst e.1 <;> rfl) l (d, z)
  rw [hfst]
  refine takesAll_foldl l d fun e he d => ?_
  cases hded : d.dedicateFirst e.1 with
  | none => exact takes_of_protected e d (hprot e he)
  | some d' => exact takes_dedicateFirst hded

/-- The first loop of `PlanStageProtected`. -/
theorem takesAll_protectDraft (l : List (Nat × DrmHwcLayer F))
    (hprot : ∀ e ∈ l, e.2.protectedUsage = true) (d : Draft) (z : Int) :
    TakesAll l d (l.foldl protectDraft (d, z)).1 := by
  have hfst := @foldl_fst F protectDraft (fun d e => (d.dedicate e.1).getD d)
    (fun s e => rfl) l (d, z)
  rw [hfst]
  refine takesAll_foldl l d fun e he d => ?_
  cases hded : d.dedicate e.1 with
  | none => exact takes_of_protected e d (hprot e he)
  | some d' => exact takes_dedicate hded

theorem stageSpec_rotateLoop (layers : LayerMap F) (d : Draft) :
    StageSpec layers d (layers.filter fun e => !protectedRotated e)
      ((layers.entries.filter protectedRotated).foldl rotateDraft (d, -1)).1 := by
  have hprot : ∀ e ∈ layers.entries.filter protectedRotated, e.2.protectedUsage = true := by
    intro e he
    have hsel := (List.mem_filter.mp he).2
    rw [protectedRotated, Bool.and_eq_true] at hsel
    exact hsel.1
  exact stageSpec_of_filter protectedRotated (takesAll_rotateDraft _ hprot d (-1))

theorem stageSpec_rotatedStage (layers : LayerMap F) (d : Draft) :
    StageSpec layers d (rotatedStage layers d).1 (rotatedStage layers d).2 :=
  (stageSpec_rotateLoop layers d).trans (stageSpec_belowStage _ _ _)

theorem stageSpec_protectedStage (layers : LayerMap F) (d : Draft) :
    StageSpec layers d (protectedStage layers d).1 (protectedStage layers d).2 := by
  have hprot : ∀ e ∈ layers.entries.filter (·.2.protectedUsage),
      e.2.protectedUsage = true := fun e he => (List.mem_filter.mp he).2
  exact (stageSpec_of_filter (·.2.protectedUsage) (takesAll_protectDraft _ hprot d (-1))).trans
    (stageSpec_belowStage _ _ _)

theorem stageSpec_precompStage (layers : LayerMap F) (d : Draft) :
    StageSpec layers d (precompStage layers d).1 (precompStage layers d).2 := by
  rw [precompStage]
  split
  · exact StageSpec.refl layers d
  · exact stageSpec_of_filter _ (takesAll_precompose _ d)

/-- What the first loop of `PlanStageGreedy` takes, and why it stops. -/
theorem dedicateAll_spec :
    ∀ (l : List (Nat × DrmHwcLayer F)) (d : Draft), ∃ taken,
      l = taken ++ (dedicateAll l d).1 ∧ TakesAll taken d (dedicateAll l d).2 ∧
      (dedicateAll l d).2.dedicatedIndices = d.dedicatedIndices ++ taken.map (·.1) ∧
      ((dedicateAll l d).1 = [] ∨ (dedicateAll l d).2.planes = []) := by
  intro l
  induction l with
  | nil => intro d; exact ⟨[], rfl, TakesAll.nil d, (List.append_nil _).symm, Or.inl rfl⟩
  | cons e rest ih =>
      intro d
      rw [dedicateAll]
      cases hded : d.dedicate e.1 with
      | none =>
          refine ⟨[], rfl, TakesAll.nil d, (List.append_nil _).symm, Or.inr ?_⟩
          rw [Draft.dedicate] at hded
          split at hded
          · assumption
          · cases hded
      | some d' =>
          obtain ⟨taken, hl, htakes, hindices, hend⟩ := ih d'
          have hfirst : d'.dedicatedIndices = d.dedicatedIndices ++ [e.1] := by
            rw [Draft.dedicate] at hded
            split at hded
            · cases hded
            · cases hded
              simp [Draft.dedicatedIndices]
          refine ⟨e :: taken, ?_, TakesAll.cons (takes_dedicate hded) htakes, ?_, hend⟩
          · dsimp only
            rw [List.cons_append, ← hl]
          · dsimp only
            rw [hindices, hfirst, List.append_assoc]
            rfl

theorem stageSpec_greedyStage (layers : LayerMap F) (d : Draft) :
    StageSpec layers d (greedyStage layers d).1 (greedyStage layers d).2 := by
  obtain ⟨taken, hl, htakes, _, _⟩ := dedicateAll_spec layers.entries d
  have hfirst : StageSpec layers d
      ⟨(dedicateAll layers.entries d).1,
        layers.sorted.sublist (dedicateAll_suffix _ _).sublist⟩
      (dedicateAll layers.entries d).2 :=
    stageSpec_of_perm (by rw [← hl]) htakes
  rw [greedyStage]
  split
  · exact hfirst
  · have hperm : ((dedicateAll layers.entries d).1 ++
        (OrderedMap.empty : LayerMap F).entries).Perm (dedicateAll layers.entries d).1 := by
      rw [OrderedMap.empty, List.append_nil]
    exact hfirst.trans (stageSpec_of_perm hperm (takesAll_precompose _ _))

theorem stageSpec_planRest (layers : LayerMap F) (d : Draft) :
    StageSpec layers d (planRest layers d).1 (planRest layers d).2 :=
  ((stageSpec_protectedStage layers d).trans (stageSpec_precompStage _ _)).trans
    (stageSpec_greedyStage _ _)

theorem stageSpec_planDraft [Sub F] [Div F] [IntCast F] [LT F] [DecidableLT F]
    (layers : LayerMap F) (d : Draft) :
    StageSpec layers d (planDraft layers d).1 (planDraft layers d).2 :=
  ((stageSpec_limitsStage layers d).trans (stageSpec_rotatedStage _ _)).trans
    (stageSpec_planRest _ _)

/-- With room no layer is left over. -/
theorem greedyStage_empties (h : d.Room layers.entries.length) :
    (greedyStage layers d).1.entries = [] := by
  obtain ⟨taken, hl, htakes, _, hend⟩ := dedicateAll_spec layers.entries d
  have hroom : (dedicateAll layers.entries d).2.Room (dedicateAll layers.entries d).1.length := by
    refine htakes.room _ ?_
    rw [Nat.add_comm, ← List.length_append, ← hl]
    exact h
  rw [greedyStage]
  split
  · rename_i hnone
    cases hend with
    | inl hnil => exact hnil
    | inr hplanes =>
        cases hroom with
        | inl hsome =>
            rw [dedicateAll_precomp, hnone] at hsome
            cases hsome
        | inr hlen =>
            rw [hplanes] at hlen
            exact List.length_eq_zero_iff.mp (Nat.le_zero.mp hlen)
  · rfl

end DragonDevice.Hwc
