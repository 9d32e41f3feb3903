/-
  Hwc/Composition.lean --- `drmcomposition.cpp`, and the displays of
  `drmresources.cpp`.

  One composition covers all displays.  They take their planes from one pool: the
  plans one after the other, and at the end the planes nobody uses are disabled.
-/
import DragonDevice.Hwc.DisplayComposition

set_option autoImplicit false

namespace DragonDevice.Hwc

variable {F : Type}

/-! ## Displays -/

/-- `DrmConnector`, as far as the numbering of the displays needs it. -/
structure DrmConnector where
  id : Nat
  internal : Bool
  external : Bool
  display : Int
  deriving DecidableEq, Repr

/-- "First look for primary amongst internal connectors": the numbered connectors, and
whether one of them is the primary display. -/
def numberDisplays : List DrmConnector → Bool → Int → List DrmConnector × Bool
  | [], foundPrimary, _ => ([], foundPrimary)
  | conn :: rest, foundPrimary, displayNum =>
      if conn.internal && !foundPrimary then
        let (rest, foundPrimary) := numberDisplays rest true displayNum
        ({ conn with display := 0 } :: rest, foundPrimary)
      else
        let (rest, foundPrimary) := numberDisplays rest foundPrimary (displayNum + 1)
        ({ conn with display := displayNum } :: rest, foundPrimary)

/-- "Then look for primary amongst external connectors". -/
def findExternal : List DrmConnector → Bool → List DrmConnector
  | [], _ => []
  | conn :: rest, foundPrimary =>
      if conn.external && !foundPrimary then { conn with display := 0 } :: findExternal rest true
      else conn :: findExternal rest foundPrimary

/-- The numbering of the displays in `DrmResources::Init`. -/
def setDisplays (connectors : List DrmConnector) : List DrmConnector :=
  let (connectors, foundPrimary) := numberDisplays connectors false 1
  findExternal connectors foundPrimary

theorem numberDisplays_found :
    ∀ (connectors : List DrmConnector) (n : Int), (numberDisplays connectors true n).2 = true := by
  intro connectors
  induction connectors with
  | nil => intro n; rfl
  | cons conn rest ih =>
      intro n
      unfold numberDisplays
      rw [Bool.not_true, Bool.and_false, if_neg Bool.false_ne_true]
      exact ih (n + 1)

/-- The numbers count up from `n`; only the primary display has the number 0. -/
theorem numberDisplays_spec :
    ∀ (connectors : List DrmConnector) (found : Bool) (n : Int), 1 ≤ n →
      ((numberDisplays connectors found n).1.map (·.display)).Nodup ∧
      (∀ conn ∈ (numberDisplays connectors found n).1,
        n ≤ conn.display ∨ conn.display = 0 ∧ found = false) ∧
      ((numberDisplays connectors found n).2 = false →
        ∀ conn ∈ (numberDisplays connectors found n).1, n ≤ conn.display) := by
  intro connectors
  induction connectors with
  | nil => intro found n _; simp [numberDisplays]
  | cons conn rest ih =>
      intro found n hn
      unfold numberDisplays
      by_cases hfirst : (conn.internal && !found) = true
      · rw [if_pos hfirst]
        have hfound : found = false := by
          cases found with
          | false => rfl
          | true => simp at hfirst
        obtain ⟨hnodup, hrange, hlast⟩ := ih true n hn
        have hge : ∀ c ∈ (numberDisplays rest true n).1, n ≤ c.display := by
          intro c hc
          cases hrange c hc with
          | inl h => exact h
          | inr h => cases h.2
        refine ⟨?_, ?_, ?_⟩
        · refine List.nodup_cons.mpr ⟨fun hmem => ?_, hnodup⟩
          obtain ⟨c, hc, hzero⟩ := List.mem_map.mp hmem
          have hpos := hge c hc
          simp only at hzero
          omega
        · intro c hc
          cases List.mem_cons.mp hc with
          | inl heq => rw [heq]; exact Or.inr ⟨rfl, hfound⟩
          | inr hin => exact Or.inl (hge c hin)
        · intro hnot
          -- the primary display has been found, and stays found
          have htrue : (numberDisplays rest true n).2 = true := numberDisplays_found rest n
          exact absurd (htrue.symm.trans hnot) (by decide)
      · rw [if_neg hfirst]
        obtain ⟨hnodup, hrange, hlast⟩ := ih found (n + 1) (by omega)
        refine ⟨?_, ?_, ?_⟩
        · refine List.nodup_cons.mpr ⟨fun hmem => ?_, hnodup⟩
          obtain ⟨c, hc, hn'⟩ := List.mem_map.mp hmem
          cases hrange c hc with
          | inl h => simp only at hn'; omega
          | inr h => simp only at hn'; omega
        · intro c hc
          cases List.mem_cons.mp hc with
          | inl heq => rw [heq]; exact Or.inl (Int.le_refl n)
          | inr hin =>
              cases hrange c hin with
              | inl h => exact Or.inl (by omega)
              | inr h => exact Or.inr h
        · intro hnot c hc
          cases List.mem_cons.mp hc with
          | inl heq => rw [heq]
          | inr hin =>
              have := hlast hnot c hin
              omega

theorem findExternal_found : ∀ connectors : List DrmConnector,
    findExternal connectors true = connectors := by
  intro connectors
  induction connectors with
  | nil => rfl
  | cons conn rest ih =>
      unfold findExternal
      rw [Bool.not_true, Bool.and_false, if_neg Bool.false_ne_true, ih]

/-- The primary display takes the number 0 that nobody has. -/
theorem findExternal_nodup : ∀ (connectors : List DrmConnector),
    (connectors.map (·.display)).Nodup → (∀ conn ∈ connectors, 1 ≤ conn.display) →
    ((findExternal connectors false).map (·.display)).Nodup ∧
      ∀ conn ∈ findExternal connectors false,
        conn.display = 0 ∨ ∃ conn' ∈ connectors, conn'.display = conn.display := by
  intro connectors
  induction connectors with
  | nil => intro _ _; simp [findExternal]
  | cons conn rest ih =>
      intro hnodup hpos
      obtain ⟨hnew, hrest⟩ := List.nodup_cons.mp hnodup
      have hpos' : ∀ c ∈ rest, 1 ≤ c.display := fun c hc => hpos c (List.mem_cons_of_mem conn hc)
      unfold findExternal
      by_cases hext : (conn.external && !false) = true
      · rw [if_pos hext, findExternal_found]
        refine ⟨List.nodup_cons.mpr ⟨fun hmem => ?_, hrest⟩, fun c hc => ?_⟩
        · obtain ⟨c, hc, hzero⟩ := List.mem_map.mp hmem
          have := hpos' c hc
          simp only at hzero
          omega
        · cases List.mem_cons.mp hc with
          | inl heq => rw [heq]; exact Or.inl rfl
          | inr hin => exact Or.inr ⟨c, List.mem_cons_of_mem conn hin, rfl⟩
      · rw [if_neg hext]
        obtain ⟨hnodup', hfrom⟩ := ih hrest hpos'
        have hconn := hpos conn List.mem_cons_self
        refine ⟨List.nodup_cons.mpr ⟨fun hmem => ?_, hnodup'⟩, fun c hc => ?_⟩
        · obtain ⟨c, hc, hsame⟩ := List.mem_map.mp hmem
          simp only at hsame
          cases hfrom c hc with
          | inl hzero => omega
          | inr hin =>
              obtain ⟨c', hc', heq⟩ := hin
              exact hnew (List.mem_map.mpr ⟨c', hc', by rw [heq, hsame]⟩)
        · cases List.mem_cons.mp hc with
          | inl heq => rw [heq]; exact Or.inr ⟨conn, List.mem_cons_self, rfl⟩
          | inr hin =>
              cases hfrom c hin with
              | inl hzero => exact Or.inl hzero
              | inr h =>
                  obtain ⟨c', hc', heq⟩ := h
                  exact Or.inr ⟨c', List.mem_cons_of_mem conn hc', heq⟩

/-- Every display has a number of its own. -/
theorem setDisplays_nodup (connectors : List DrmConnector) :
    ((setDisplays connectors).map (·.display)).Nodup := by
  obtain ⟨hnodup, _, hpos⟩ := numberDisplays_spec connectors false 1 (Int.le_refl 1)
  unfold setDisplays
  cases hfound : (numberDisplays connectors false 1).2 with
  | true =>
      simp only [hfound, findExternal_found]
      exact hnodup
  | false =>
      simp only [hfound]
      exact (findExternal_nodup _ hnodup (hpos hfound)).1

/-- `DrmResources`: its planes, its crtcs with the display each is bound to, and its
connectors. -/
structure DrmResources where
  planes : List DrmPlane
  crtcs : List (DrmCrtc × Int)
  connectors : List DrmConnector
  /-- the kernel's objects have ids of their own -/
  planes_nodup : planes.Nodup
  /-- the displays are those of `setDisplays` -/
  displays_nodup : (connectors.map (·.display)).Nodup

namespace DrmResources

/-- What `DrmResources::Init` makes of the kernel's objects. -/
def init (planes : List DrmPlane) (planes_nodup : planes.Nodup) (crtcs : List (DrmCrtc × Int))
    (connectors : List DrmConnector) : DrmResources :=
  ⟨planes, crtcs, setDisplays connectors, planes_nodup, setDisplays_nodup connectors⟩

def displays (drm : DrmResources) : List Int := drm.connectors.map (·.display)

/-- `GetCrtcForDisplay`. -/
def getCrtcForDisplay (drm : DrmResources) (display : Int) : Option DrmCrtc :=
  (drm.crtcs.find? fun crtc => crtc.2 == display).map (·.1)

/-- `GetConnectorForDisplay`. -/
def getConnectorForDisplay (drm : DrmResources) (display : Int) : Option DrmConnector :=
  drm.connectors.find? fun conn => conn.display == display

end DrmResources

/-! ## Planners -/

/-- The platforms with a planner of their own. -/
inductive Platform where
  | nvidia | drmGeneric
  deriving DecidableEq, Repr

/-- `Planner::CreateInstance`. -/
def Platform.createInstance [Sub F] [Div F] [IntCast F] [LT F] [DecidableLT F] :
    Platform → List (PlanStage F)
  | .nvidia => nvStages
  | .drmGeneric => [planStageGreedy]

/-! ## Compositions -/

def einval : Int := 22

/-- `DrmComposition`: the planes that are left, and the compositions of the displays. -/
structure DrmComposition (F : Type) where
  pool : PlanePool
  compositionMap : Int → Option (DrmDisplayComposition F)

namespace DrmDisplayComposition

/-- `validate_composition_type`. -/
def validateCompositionType (comp : DrmDisplayComposition F) (des : DrmCompositionType) : Bool :=
  comp.type == .empty || comp.type == des

/-- `DrmDisplayComposition::Init` of a new composition. -/
def init (crtc : Option DrmCrtc) : DrmDisplayComposition F :=
  ⟨.empty, crtc, [], false, [], [], []⟩

/-- `DrmDisplayComposition::SetLayers`. -/
def setLayers (comp : DrmDisplayComposition F) (layers : List (DrmHwcLayer F))
    (geometryChanged : Bool) : Int × DrmDisplayComposition F :=
  if comp.validateCompositionType .frame then
    (0, { comp with type := .frame, geometryChanged, layers := comp.layers ++ layers })
  else (-einval, comp)

/-- `SetDpmsMode` and `SetDisplayMode`, as far as they concern planes. -/
def setType (comp : DrmDisplayComposition F) (des : DrmCompositionType) :
    Int × DrmDisplayComposition F :=
  if comp.validateCompositionType des then (0, { comp with type := des }) else (-einval, comp)

end DrmDisplayComposition

namespace DrmComposition

/-- The constructor of `DrmComposition`. -/
def create (drm : DrmResources) (useOverlayPlanes : Bool) : DrmComposition F where
  pool :=
    { primaryPlanes := drm.planes.filter fun plane => plane.type == .primary
      overlayPlanes := drm.planes.filter fun plane => useOverlayPlanes && plane.type == .overlay }
  compositionMap := fun _ => none

/-- `composition_map_[display] = comp`. -/
def set (c : DrmComposition F) (display : Int) (comp : DrmDisplayComposition F) :
    DrmComposition F :=
  { c with compositionMap := fun d => if d = display then some comp else c.compositionMap d }

/-- `DrmComposition::Init`. -/
def init (drm : DrmResources) (c : DrmComposition F) : DrmComposition F :=
  drm.displays.foldl (fun c display => c.set display (.init (drm.getCrtcForDisplay display))) c

/-- A method of the composition of a display, which is a null pointer where there is
none. -/
def onDisplay (c : DrmComposition F) (display : Int)
    (f : DrmDisplayComposition F → Int × DrmDisplayComposition F) :
    Option (Int × DrmComposition F) := do
  let comp ← c.compositionMap display
  let (ret, comp) := f comp
  some (ret, c.set display comp)

/-- `DrmCompositionDisplayLayersMap`. -/
structure DisplayLayers (F : Type) where
  display : Int
  geometryChanged : Bool
  layers : List (DrmHwcLayer F)

/-- `DrmComposition::SetLayers`; displays without a connector are skipped. -/
def setLayers (drm : DrmResources) :
    List (DisplayLayers F) → DrmComposition F → Option (Int × DrmComposition F)
  | [], c => some (0, c)
  | map :: maps, c =>
      match drm.getConnectorForDisplay map.display with
      | none => setLayers drm maps c
      | some _ => do
          let (ret, c) ← c.onDisplay map.display (·.setLayers map.layers map.geometryChanged)
          if ret ≠ 0 then some (ret, c) else setLayers drm maps c

/-- The calls that fill a composition. -/
inductive Request (F : Type) where
  | setLayers (maps : List (DisplayLayers F))
  | setDpmsMode (display : Int)
  | setDisplayMode (display : Int)

/-- `SetLayers`, `SetDpmsMode` or `SetDisplayMode`. -/
def request (drm : DrmResources) (c : DrmComposition F) :
    Request F → Option (Int × DrmComposition F)
  | .setLayers maps => setLayers drm maps c
  | .setDpmsMode display => c.onDisplay display (·.setType .dpms)
  | .setDisplayMode display => c.onDisplay display (·.setType .modeset)

/-- A new composition after some calls, whatever they returned. -/
def prepare (drm : DrmResources) (useOverlayPlanes : Bool) (requests : List (Request F)) :
    Option (DrmComposition F) :=
  requests.foldlM (fun c r => (c.request drm r).map (·.2)) ((create drm useOverlayPlanes).init drm)

/-- The squash states of the display compositors. -/
abbrev SquashStates : Type := Int → Option SquashState

/-- The loop of `DrmComposition::Plan`.  `fences` are the results of
`CreateAndAssignReleaseFences`. -/
def planDisplays (stages : List (PlanStage F)) (fences : Int → Int) :
    List Int → DrmComposition F → SquashStates → Option (Int × DrmComposition F × SquashStates)
  | [], c, squash => some (0, c, squash)
  | display :: rest, c, squash => do
      let comp ← c.compositionMap display
      let (ret, comp, state, pool) ← comp.plan stages (squash display) c.pool (fences display)
      let c := { c.set display comp with pool }
      let squash := fun d => if d = display then state else squash d
      if ret ≠ 0 then some (ret, c, squash) else planDisplays stages fences rest c squash

/-- `DrmComposition::Plan`. -/
def plan (drm : DrmResources) (stages : List (PlanStage F)) (fences : Int → Int)
    (c : DrmComposition F) (squash : SquashStates) :
    Option (Int × DrmComposition F × SquashStates) :=
  planDisplays stages fences drm.displays c squash

/-- The planes `DisableUnusedPlanes` takes for a crtc: one primary plane, and all
overlay planes. -/
def unusedPlanes (crtc : DrmCrtc) (pool : PlanePool) : List DrmPlane :=
  (pool.primaryPlanes.find? (·.getCrtcSupported crtc)).toList ++
    pool.overlayPlanes.filter (·.getCrtcSupported crtc)

/-- The body of the loop of `DisableUnusedPlanes`. -/
def disableUnused (drm : DrmResources) (c : DrmComposition F) (display : Int) :
    Option (DrmComposition F) := do
  let comp ← c.compositionMap display
  if comp.type = .empty ∨ comp.type = .modeset then some c
  else
    match drm.getCrtcForDisplay display with
    | none => some c
    | some crtc =>
        some
          { c.set display ((unusedPlanes crtc c.pool).foldl .addPlaneDisable comp) with
            pool :=
              { primaryPlanes := c.pool.primaryPlanes.eraseP (·.getCrtcSupported crtc)
                overlayPlanes := c.pool.overlayPlanes.filter
                  fun plane => !plane.getCrtcSupported crtc } }

/-- `DrmComposition::DisableUnusedPlanes`. -/
def disableUnusedPlanes (drm : DrmResources) (c : DrmComposition F) :
    Option (DrmComposition F) :=
  drm.displays.foldlM (disableUnused drm) c

end DrmComposition

end DragonDevice.Hwc
