/-
  Hwc/CommitHonest.lean --- when `CommitFrame` reports what it did.

  Two slips make it report a success that was none.  The loop over the planes gives up
  on a plane it cannot show without an error code, so that the rest of the set is
  committed; and with a pending mode the error code of the loop is overwritten by that
  of the modeset.  What the loop does is decided by the input: `FailsAt` says at which
  plane it stops with an error, `StopsQuietly` at which without one.
-/
import DragonDevice.Hwc.CommitFrame

set_option autoImplicit false

namespace DragonDevice.Hwc

open DragonDevice.Lib

variable {F M : Type}

/-! ## Adding properties -/

section Add

variable {add : PlaneProperty → Int} {plane : DrmPlane}

/-- The entries for a list of properties. -/
def planeEntries (plane : DrmPlane) (l : List (PlaneProperty × Int)) : List Property :=
  l.map fun e => .plane plane e.1 e.2

theorem addProperties_spec :
    ∀ (l : List (PlaneProperty × Int)) (pset : List Property),
      ((addProperties add plane l pset).1 = true ↔ ∃ e ∈ l, add e.1 < 0) ∧
      ((addProperties add plane l pset).1 = false →
        (addProperties add plane l pset).2 = pset ++ planeEntries plane l) := by
  intro l
  induction l with
  | nil => intro pset; simp [addProperties, planeEntries]
  | cons e l ih =>
      intro pset
      obtain ⟨property, value⟩ := e
      unfold addProperties
      by_cases hneg : add property < 0
      · simp [hneg]
      · obtain ⟨hfailed, hset⟩ := ih (pset ++ [.plane plane property value])
        refine ⟨?_, fun h => ?_⟩
        · simp only [hneg, decide_false, Bool.false_eq_true, if_false, Bool.false_or, hfailed,
            List.mem_cons, exists_eq_or_imp, false_or]
        · simp only [hneg, decide_false, Bool.false_eq_true, if_false, Bool.false_or] at h ⊢
          rw [hset h, List.append_assoc]
          rfl

theorem addEach_spec :
    ∀ (l : List (PlaneProperty × Int)) (pset : List Property),
      ((addEach add plane l pset).1 = true ↔ ∃ e ∈ l, add e.1 < 0) ∧
      ((addEach add plane l pset).1 = false →
        (addEach add plane l pset).2 = pset ++ planeEntries plane l) := by
  intro l
  induction l with
  | nil => intro pset; simp [addEach, planeEntries]
  | cons e l ih =>
      intro pset
      obtain ⟨property, value⟩ := e
      unfold addEach
      by_cases hneg : add property < 0
      · simp [hneg]
      · obtain ⟨hfailed, hset⟩ := ih (pset ++ [.plane plane property value])
        rw [if_neg hneg]
        refine ⟨?_, fun h => ?_⟩
        · simp only [hfailed, List.mem_cons, exists_eq_or_imp, hneg, false_or]
        · rw [hset h, List.append_assoc]
          rfl

end Add

/-- The wait fails when every try does. -/
theorem waitAcquire_ne_zero_iff {syncWait : Nat → Int} :
    ∀ (tries i : Nat) (ret : Int), waitAcquire syncWait (tries + 1) i ret ≠ 0 ↔
      ∀ t, i ≤ t → t < i + (tries + 1) → syncWait t ≠ 0 := by
  intro tries
  induction tries with
  | zero =>
      intro i ret
      unfold waitAcquire
      by_cases hi : syncWait i ≠ 0
      · rw [if_pos hi]
        refine ⟨fun _ t hle hlt => ?_, fun _ => hi⟩
        have ht : t = i := by omega
        rw [ht]
        exact hi
      · rw [if_neg hi]
        refine ⟨fun h => absurd rfl h, fun h => absurd (h i (Nat.le_refl i) (by omega)) hi⟩
  | succ tries ih =>
      intro i ret
      unfold waitAcquire
      by_cases hi : syncWait i ≠ 0
      · rw [if_pos hi, ih]
        refine ⟨fun h t hle hlt => ?_, fun h t hle hlt => h t (by omega) (by omega)⟩
        by_cases ht : t = i
        · rw [ht]
          exact hi
        · exact h t (by omega) (by omega)
      · rw [if_neg hi]
        refine ⟨fun h => absurd rfl h, fun h => absurd (h i (Nat.le_refl i) (by omega)) hi⟩

/-! ## What decides about a plane -/

/-- The properties of every plane with a framebuffer. -/
def geometryNames : List PlaneProperty :=
  [.crtcId, .fbId, .crtcX, .crtcY, .crtcW, .crtcH, .srcX, .srcY, .srcW, .srcH]

/-- All properties of a plane that shows a layer. -/
def shownNames (props : PlaneProperties) (plane : DrmPlane) : List PlaneProperty :=
  geometryNames ++
    ((if props.rotationProperty plane ≠ 0 then [PlaneProperty.rotation] else []) ++
      (if props.alphaProperty plane ≠ 0 then [PlaneProperty.alpha] else []))

section Input

variable (input : CommitInput F)

/-- A plane that can be shown: one source layer, with a framebuffer. -/
def Presentable (p : DrmCompositionPlane) : Prop :=
  ∃ (i : Nat) (layer : FrameLayer F) (fbId : BitVec 32), p.sourceLayers = [i] ∧
    input.layers[i]? = some layer ∧ layer.buffer = some fbId ∧ 0 ≤ fbId.toInt

/-- The acquire fence of the layer is still open at this plane, and never fires. -/
def FenceFails (k i : Nat) (layer : FrameLayer F) : Prop :=
  0 ≤ layer.acquireFence ∧
    (∀ j q, j < k → input.compPlanes[j]? = some q →
      ¬ (q.type ≠ .disable ∧ q.sourceLayers = [i])) ∧
    ∀ t, t < kAcquireWaitTries → input.outcomes.syncWait k t ≠ 0

def DisableFails (k : Nat) : Prop :=
  input.outcomes.addPlane k .crtcId < 0 ∨ input.outcomes.addPlane k .fbId < 0

/-- The plane cannot rotate or blend as the layer needs it, or a property cannot be
added. -/
def ShowFails (k : Nat) (plane : DrmPlane) (layer : FrameLayer F) : Prop :=
  (rotationOf layer.transform ≠ drmModeRotate0 ∧ input.props.rotationProperty plane = 0) ∨
  (planeAlpha layer ≠ 0xFF#64 ∧ input.props.alphaProperty plane = 0) ∨
  ∃ property ∈ shownNames input.props plane, input.outcomes.addPlane k property < 0

def BufferFails (k : Nat) (plane : DrmPlane) (layer : FrameLayer F) : Prop :=
  ∃ fbId, layer.buffer = some fbId ∧
    (fbId.toInt < 0 ∧ DisableFails input k ∨ 0 ≤ fbId.toInt ∧ ShowFails input k plane layer)

/-- The loop stops at this plane with an error. -/
def FailsAt (k : Nat) (p : DrmCompositionPlane) : Prop :=
  (p.type = .disable ∧ DisableFails input k) ∨
  (p.type ≠ .disable ∧ ∃ i layer, p.sourceLayers = [i] ∧ input.layers[i]? = some layer ∧
    (FenceFails input k i layer ∨ BufferFails input k p.plane layer))

/-- The loop stops at this plane without an error: there is no such layer, or it has no
buffer. -/
def StopsQuietly (k : Nat) (p : DrmCompositionPlane) : Prop :=
  ¬ FailsAt input k p ∧ p.type ≠ .disable ∧ ∃ i, p.sourceLayers = [i] ∧
    ∀ layer, input.layers[i]? = some layer → layer.buffer = none

/-- The loop passes a plane. -/
def Passes (k : Nat) (p : DrmCompositionPlane) : Prop :=
  ¬ FailsAt input k p ∧ ¬ StopsQuietly input k p

/-- The loop ends with an error. -/
def LoopFails : Prop :=
  ∃ k p, input.compPlanes[k]? = some p ∧ FailsAt input k p ∧
    ∀ j q, j < k → input.compPlanes[j]? = some q → Passes input j q

/-- The layer needs a rotation or an alpha that the plane does not have. -/
def Unsupported (plane : DrmPlane) (layer : FrameLayer F) : Prop :=
  (rotationOf layer.transform ≠ drmModeRotate0 ∧ input.props.rotationProperty plane = 0) ∨
  (planeAlpha layer ≠ 0xFF#64 ∧ input.props.alphaProperty plane = 0)

/-- The code reads what is not there: the first of no source layers, or the crtc of a plane
without one, when it comes to the properties. -/
def FaultsAt (k : Nat) (p : DrmCompositionPlane) : Prop :=
  p.type ≠ .disable ∧ (p.sourceLayers = [] ∨
    p.crtc = none ∧ ∃ i layer fbId, p.sourceLayers = [i] ∧ input.layers[i]? = some layer ∧
      layer.buffer = some fbId ∧ 0 ≤ fbId.toInt ∧ ¬ FenceFails input k i layer ∧
      ¬ Unsupported input p.plane layer)

/-- The loop comes to a plane at which the code reads what is not there. -/
def LoopFaults : Prop :=
  ∃ k p, input.compPlanes[k]? = some p ∧ FaultsAt input k p ∧
    ∀ j q, j < k → input.compPlanes[j]? = some q → Passes input j q

/-- The property set shows the layer of a plane. -/
def Shows [Sub F] (pset : List Property) (p : DrmCompositionPlane) : Prop :=
  ∃ (i : Nat) (layer : FrameLayer F) (fbId : BitVec 32) (crtc : DrmCrtc),
    p.sourceLayers = [i] ∧ input.layers[i]? = some layer ∧ layer.buffer = some fbId ∧
    p.crtc = some crtc ∧
    planeEntries p.plane (geometryProperties input.truncate crtc fbId layer ++
      optionalProperties input.props p.plane layer) ⊆ pset

end Input

section Decided

variable {input : CommitInput F} {k : Nat} {p : DrmCompositionPlane}

/-- A plane of which the fence does not fail is decided by its only layer. -/
theorem failsAt_iff_bufferFails {i : Nat} {layer : FrameLayer F} (htype : p.type ≠ .disable)
    (hi : p.sourceLayers = [i]) (hlayer : input.layers[i]? = some layer)
    (hfence : ¬ FenceFails input k i layer) :
    FailsAt input k p ↔ BufferFails input k p.plane layer := by
  refine ⟨fun hf => ?_, fun hf => Or.inr ⟨htype, i, layer, hi, hlayer, Or.inr hf⟩⟩
  cases hf with
  | inl hdis => exact absurd hdis.1 htype
  | inr hshow =>
      obtain ⟨_, i', layer', hi', hlayer', hcase⟩ := hshow
      rw [hi] at hi'
      cases hi'
      rw [hlayer] at hlayer'
      cases hlayer'
      cases hcase with
      | inl hf => exact absurd hf hfence
      | inr hb => exact hb

theorem stopsQuietly_iff_no_buffer {i : Nat} {layer : FrameLayer F} (htype : p.type ≠ .disable)
    (hi : p.sourceLayers = [i]) (hlayer : input.layers[i]? = some layer)
    (hfence : ¬ FenceFails input k i layer) :
    StopsQuietly input k p ↔ layer.buffer = none := by
  refine ⟨fun hq => ?_, fun hnone => ⟨fun hf => ?_, htype, i, hi, fun layer' hlayer' => ?_⟩⟩
  · obtain ⟨_, _, i', hi', hnone⟩ := hq
    rw [hi] at hi'
    cases hi'
    exact hnone layer hlayer
  · obtain ⟨fbId, hfb, _⟩ := (failsAt_iff_bufferFails htype hi hlayer hfence).mp hf
    rw [hnone] at hfb
    cases hfb
  · rw [hlayer] at hlayer'
    cases hlayer'
    exact hnone

/-- The plane is disabled for a negative framebuffer id. -/
theorem bufferFails_iff_disableFails {plane : DrmPlane} {layer : FrameLayer F} {fbId : BitVec 32}
    (hbuffer : layer.buffer = some fbId) (hneg : fbId.toInt < 0) :
    BufferFails input k plane layer ↔ DisableFails input k := by
  refine ⟨fun hb => ?_, fun hd => ⟨fbId, hbuffer, Or.inl ⟨hneg, hd⟩⟩⟩
  obtain ⟨fbId', hfb, hcase⟩ := hb
  rw [hbuffer] at hfb
  cases hfb
  cases hcase with
  | inl hd => exact hd.2
  | inr hs => exact absurd hs.1 (by omega)

theorem bufferFails_iff_showFails {plane : DrmPlane} {layer : FrameLayer F} {fbId : BitVec 32}
    (hbuffer : layer.buffer = some fbId) (hpos : 0 ≤ fbId.toInt) :
    BufferFails input k plane layer ↔ ShowFails input k plane layer := by
  refine ⟨fun hb => ?_, fun hs => ⟨fbId, hbuffer, Or.inr ⟨hpos, hs⟩⟩⟩
  obtain ⟨fbId', hfb, hcase⟩ := hb
  rw [hbuffer] at hfb
  cases hfb
  cases hcase with
  | inl hd => exact absurd hd.1 (by omega)
  | inr hs => exact hs.2

end Decided

/-! ## One turn -/

section Turn

theorem einval_ne : -einval ≠ 0 := by decide

theorem disableTurn_spec (input : CommitInput F) (k : Nat) (plane : DrmPlane) (st : CommitState) :
    (DisableFails input k ∧ (disableTurn input k plane st).1 = .stop ∧
      (disableTurn input k plane st).2.ret ≠ 0) ∨
    (¬ DisableFails input k ∧ disableTurn input k plane st = (.next, { st with
      ret := 0
      pset := st.pset ++ planeEntries plane [(.crtcId, 0), (.fbId, 0)] })) := by
  obtain ⟨hfailed, hset⟩ := @addEach_spec (input.outcomes.addPlane k) plane
    [(.crtcId, 0), (.fbId, 0)] st.pset
  have hiff : (∃ e ∈ [(PlaneProperty.crtcId, (0 : Int)), (.fbId, 0)],
      input.outcomes.addPlane k e.1 < 0) ↔ DisableFails input k := by
    simp [DisableFails]
  rw [hiff] at hfailed
  unfold disableTurn
  generalize addEach (input.outcomes.addPlane k) plane [(.crtcId, 0), (.fbId, 0)] st.pset = r
    at hfailed hset
  obtain ⟨failed, pset⟩ := r
  cases failed with
  | true => exact Or.inl ⟨hfailed.mp rfl, rfl, by simp [intOfBool]⟩
  | false =>
      refine Or.inr ⟨fun h => absurd (hfailed.mpr h) Bool.false_ne_true, ?_⟩
      have hset' : pset = _ := hset rfl
      rw [hset']
      rfl

variable [Sub F] {input : CommitInput F} {k : Nat} {p : DrmCompositionPlane} {st : CommitState}

theorem map_fst_geometryProperties (truncate : F → Int) (crtc : DrmCrtc) (fbId : BitVec 32)
    (layer : FrameLayer F) :
    (geometryProperties truncate crtc fbId layer).map (·.1) = geometryNames := rfl

theorem map_fst_properties (input : CommitInput F) (crtc : DrmCrtc) (fbId : BitVec 32)
    (plane : DrmPlane) (layer : FrameLayer F) :
    (geometryProperties input.truncate crtc fbId layer ++
      optionalProperties input.props plane layer).map (·.1) = shownNames input.props plane := by
  rw [List.map_append, map_fst_geometryProperties]
  unfold optionalProperties shownNames
  congr 1
  rw [List.map_append]
  congr 1
  · split
    · rfl
    · rfl
  · split
    · rfl
    · rfl

/-- Where the plane rotates and blends as the layer needs it, which property fails is a
question about names alone. -/
theorem showFails_iff {crtc : DrmCrtc} {fbId : BitVec 32} {layer : FrameLayer F}
    (hrot : ¬ (rotationOf layer.transform ≠ drmModeRotate0 ∧
      input.props.rotationProperty p.plane = 0))
    (halpha : ¬ (planeAlpha layer ≠ 0xFF#64 ∧ input.props.alphaProperty p.plane = 0)) :
    ShowFails input k p.plane layer ↔
      (∃ e ∈ geometryProperties input.truncate crtc fbId layer,
        input.outcomes.addPlane k e.1 < 0) ∨
      ∃ e ∈ optionalProperties input.props p.plane layer,
        input.outcomes.addPlane k e.1 < 0 := by
  have hnames := map_fst_properties input crtc fbId p.plane layer
  unfold ShowFails
  rw [← hnames]
  simp only [hrot, halpha, false_or, List.mem_map, List.mem_append]
  refine ⟨fun h => ?_, fun h => ?_⟩
  · obtain ⟨property, ⟨e, he, heq⟩, hneg⟩ := h
    rw [← heq] at hneg
    cases he with
    | inl hgeo => exact Or.inl ⟨e, hgeo, hneg⟩
    | inr hopt => exact Or.inr ⟨e, hopt, hneg⟩
  · cases h with
    | inl hgeo =>
        obtain ⟨e, he, hneg⟩ := hgeo
        exact ⟨e.1, ⟨e, Or.inl he, rfl⟩, hneg⟩
    | inr hopt =>
        obtain ⟨e, he, hneg⟩ := hopt
        exact ⟨e.1, ⟨e, Or.inr he, rfl⟩, hneg⟩

/-- A plane with a framebuffer fails, or all its properties are in the set. -/
theorem showTurn_spec {fbId : BitVec 32} {layer : FrameLayer F} {flow : Flow} {st' : CommitState}
    (h : showTurn input k p fbId layer st = some (flow, st')) :
    (ShowFails input k p.plane layer ∧ flow = .stop ∧ st'.ret ≠ 0) ∨
    (¬ ShowFails input k p.plane layer ∧ flow = .next ∧ ∃ crtc, p.crtc = some crtc ∧
      st' = { st with
        ret := 0
        pset := st.pset ++ planeEntries p.plane
          (geometryProperties input.truncate crtc fbId layer ++
            optionalProperties input.props p.plane layer) }) := by
  unfold showTurn at h
  by_cases hrot : rotationOf layer.transform ≠ drmModeRotate0 ∧
      input.props.rotationProperty p.plane = 0
  · rw [if_pos hrot] at h
    cases h
    exact Or.inl ⟨Or.inl hrot, rfl, einval_ne⟩
  rw [if_neg hrot] at h
  by_cases halpha : planeAlpha layer ≠ 0xFF#64 ∧ input.props.alphaProperty p.plane = 0
  · rw [if_pos halpha] at h
    cases h
    exact Or.inl ⟨Or.inr (Or.inl halpha), rfl, einval_ne⟩
  rw [if_neg halpha] at h
  cases hcrtc : p.crtc with
  | none =>
      rw [hcrtc] at h
      cases h
  | some crtc =>
      rw [hcrtc] at h
      dsimp only at h
      have hfails : ShowFails input k p.plane layer ↔
          (∃ e ∈ geometryProperties input.truncate crtc fbId layer,
            input.outcomes.addPlane k e.1 < 0) ∨
          ∃ e ∈ optionalProperties input.props p.plane layer,
            input.outcomes.addPlane k e.1 < 0 :=
        showFails_iff hrot halpha
      obtain ⟨hgeo, hgeoSet⟩ := @addProperties_spec (input.outcomes.addPlane k) p.plane
        (geometryProperties input.truncate crtc fbId layer) st.pset
      generalize addProperties (input.outcomes.addPlane k) p.plane
        (geometryProperties input.truncate crtc fbId layer) st.pset = r at h hgeo hgeoSet
      obtain ⟨failed, pset⟩ := r
      cases failed with
      | true =>
          cases h
          exact Or.inl ⟨hfails.mpr (Or.inl (hgeo.mp rfl)), rfl, Int.one_ne_zero⟩
      | false =>
          have hpset : pset = _ := hgeoSet rfl
          dsimp only at h
          rw [if_neg Bool.false_ne_true, hpset] at h
          obtain ⟨hopt, hoptSet⟩ := @addEach_spec (input.outcomes.addPlane k) p.plane
            (optionalProperties input.props p.plane layer)
            (st.pset ++ planeEntries p.plane (geometryProperties input.truncate crtc fbId layer))
          generalize addEach (input.outcomes.addPlane k) p.plane
            (optionalProperties input.props p.plane layer) _ = r' at h hopt hoptSet
          obtain ⟨failed', pset'⟩ := r'
          cases failed' with
          | true =>
              cases h
              exact Or.inl ⟨hfails.mpr (Or.inr (hopt.mp rfl)), rfl, Int.one_ne_zero⟩
          | false =>
              cases h
              refine Or.inr ⟨fun hf => ?_, rfl, crtc, rfl, ?_⟩
              · cases hfails.mp hf with
                | inl h => exact absurd (hgeo.mpr h) Bool.false_ne_true
                | inr h => exact absurd (hopt.mpr h) Bool.false_ne_true
              · have hpset' : pset' = _ := hoptSet rfl
                rw [hpset', planeEntries, planeEntries, planeEntries, List.map_append,
                  List.append_assoc]
                rfl

/-! ## The loop -/

/-- Before the plane at position `k`: no error yet, the fences of the planes before are
closed, and these planes are in the set where they can be shown. -/
structure LoopInv (input : CommitInput F) (k : Nat) (st : CommitState) : Prop where
  ret : st.ret = 0
  closed : ∀ i, i ∈ st.closedFences ↔ ∃ j q layer, j < k ∧ input.compPlanes[j]? = some q ∧
    q.type ≠ .disable ∧ q.sourceLayers = [i] ∧ input.layers[i]? = some layer ∧
    0 ≤ layer.acquireFence
  fbId : ∀ plane value, Property.plane plane .fbId value ∈ st.pset → 0 ≤ value
  shown : ∀ j q, j < k → input.compPlanes[j]? = some q → q.type ≠ .disable →
    Presentable input q → Shows input st.pset q

theorem Shows.mono {pset pset' : List Property} (h : Shows input pset p) (hsub : pset ⊆ pset') :
    Shows input pset' p := by
  obtain ⟨i, layer, fbId, crtc, hi, hlayer, hbuffer, hcrtc, hin⟩ := h
  exact ⟨i, layer, fbId, crtc, hi, hlayer, hbuffer, hcrtc, List.Subset.trans hin hsub⟩

/-- A plane that is in a set is one that can be shown: a negative id never gets there. -/
theorem LoopInv.presentable (h : LoopInv input k st) (hshows : Shows input st.pset p) :
    Presentable input p := by
  obtain ⟨i, layer, fbId, crtc, hi, hlayer, hbuffer, hcrtc, hin⟩ := hshows
  refine ⟨i, layer, fbId, hi, hlayer, hbuffer, h.fbId p.plane fbId.toInt (hin ?_)⟩
  simp [planeEntries, geometryProperties]

/-- The loop passes a plane. -/
theorem LoopInv.next (h : LoopInv input k st) (hp : input.compPlanes[k]? = some p)
    {st' : CommitState} {new : List Property} (hret : st'.ret = 0)
    (hclosed : ∀ i, i ∈ st'.closedFences ↔ i ∈ st.closedFences ∨ p.type ≠ .disable ∧
      p.sourceLayers = [i] ∧ ∃ layer, input.layers[i]? = some layer ∧ 0 ≤ layer.acquireFence)
    (hset : st'.pset = st.pset ++ new)
    (hfbId : ∀ plane value, Property.plane plane .fbId value ∈ new → 0 ≤ value)
    (hshow : p.type ≠ .disable → Presentable input p → Shows input new p) :
    LoopInv input (k + 1) st' := by
  refine ⟨hret, fun i => ?_, fun plane value hin => ?_, fun j q hj hq htype hpres => ?_⟩
  · rw [hclosed, h.closed]
    refine ⟨fun hc => ?_, fun hc => ?_⟩
    · cases hc with
      | inl hold =>
          obtain ⟨j, q, layer, hj, hrest⟩ := hold
          exact ⟨j, q, layer, by omega, hrest⟩
      | inr hnew =>
          obtain ⟨htype, hi, layer, hlayer, hfence⟩ := hnew
          exact ⟨k, p, layer, by omega, hp, htype, hi, hlayer, hfence⟩
    · obtain ⟨j, q, layer, hj, hq, htype, hi, hlayer, hfence⟩ := hc
      by_cases hjk : j = k
      · rw [hjk, hp] at hq
        cases hq
        exact Or.inr ⟨htype, hi, layer, hlayer, hfence⟩
      · exact Or.inl ⟨j, q, layer, by omega, hq, htype, hi, hlayer, hfence⟩
  · rw [hset] at hin
    cases List.mem_append.mp hin with
    | inl hold => exact h.fbId plane value hold
    | inr hnew => exact hfbId plane value hnew
  · rw [hset]
    by_cases hjk : j = k
    · rw [hjk, hp] at hq
      cases hq
      exact (hshow htype hpres).mono (List.subset_append_right _ _)
    · exact (h.shown j q (by omega) hq htype hpres).mono (List.subset_append_left _ _)

/-- How a turn can end. -/
def TurnEnds (input : CommitInput F) (k : Nat) (p : DrmCompositionPlane) (flow : Flow)
    (st' : CommitState) : Prop :=
  (flow = .next ∧ (¬ FailsAt input k p ∧ ¬ StopsQuietly input k p) ∧ LoopInv input (k + 1) st') ∨
  (flow = .stop ∧ ¬ (¬ FailsAt input k p ∧ ¬ StopsQuietly input k p) ∧
    (FailsAt input k p ∧ st'.ret ≠ 0 ∨ StopsQuietly input k p ∧ st'.ret = 0))

theorem TurnEnds.fails {flow : Flow} {st' : CommitState} (hfails : FailsAt input k p)
    (hflow : flow = .stop) (hret : st'.ret ≠ 0) : TurnEnds input k p flow st' :=
  Or.inr ⟨hflow, fun h => h.1 hfails, Or.inl ⟨hfails, hret⟩⟩

/-- The entries of a disabled plane. -/
theorem fbId_disable {plane plane' : DrmPlane} {value : Int}
    (h : Property.plane plane' .fbId value ∈ planeEntries plane [(.crtcId, 0), (.fbId, 0)]) :
    0 ≤ value := by
  simp [planeEntries] at h
  omega

theorem fbId_shown {plane plane' : DrmPlane} {crtc : DrmCrtc} {fbId : BitVec 32}
    {layer : FrameLayer F} {value : Int} (hpos : 0 ≤ fbId.toInt)
    (h : Property.plane plane' .fbId value ∈ planeEntries plane
      (geometryProperties input.truncate crtc fbId layer ++
        optionalProperties input.props plane layer)) : 0 ≤ value := by
  obtain ⟨⟨property, value'⟩, he, heq⟩ := List.mem_map.mp h
  cases heq
  cases List.mem_append.mp he with
  | inl hgeo =>
      simp [geometryProperties] at hgeo
      omega
  | inr hopt =>
      unfold optionalProperties at hopt
      cases List.mem_append.mp hopt with
      | inl hrot => split at hrot <;> simp at hrot
      | inr halpha => split at halpha <;> simp at halpha

/-- From the buffer on. -/
theorem bufferTurn_spec {i : Nat} {layer : FrameLayer F} {flow : Flow} {st₀ st' : CommitState}
    (hinv : LoopInv input k st₀) (hp : input.compPlanes[k]? = some p)
    (htype : p.type ≠ .disable) (hi : p.sourceLayers = [i]) (hlayer : input.layers[i]? = some layer)
    (hfence : ¬ FenceFails input k i layer) (hret : st.ret = 0) (hpset : st.pset = st₀.pset)
    (hclosed : ∀ i, i ∈ st.closedFences ↔ i ∈ st₀.closedFences ∨ p.type ≠ .disable ∧
      p.sourceLayers = [i] ∧ ∃ layer, input.layers[i]? = some layer ∧ 0 ≤ layer.acquireFence)
    (h : bufferTurn input k p layer st = some (flow, st')) : TurnEnds input k p flow st' := by
  have hfails := failsAt_iff_bufferFails htype hi hlayer hfence
  have hquiet := stopsQuietly_iff_no_buffer htype hi hlayer hfence
  unfold bufferTurn at h
  cases hbuffer : layer.buffer with
  | none =>
      rw [hbuffer] at h
      cases h
      have hq := hquiet.mpr hbuffer
      exact Or.inr ⟨rfl, fun hno => hno.2 hq, Or.inr ⟨hq, hret⟩⟩
  | some fbId =>
      rw [hbuffer] at h
      dsimp only at h
      have hnotQuiet : ¬ StopsQuietly input k p := by
        rw [hquiet, hbuffer]
        exact fun hnone => nomatch hnone
      by_cases hneg : fbId.toInt < 0
      · rw [if_pos hneg] at h
        have hiff : BufferFails input k p.plane layer ↔ DisableFails input k :=
          bufferFails_iff_disableFails hbuffer hneg
        have heq := Option.some.inj h
        cases disableTurn_spec input k p.plane st with
        | inl hstop =>
            rw [heq] at hstop
            exact TurnEnds.fails (hfails.mpr (hiff.mpr hstop.1)) hstop.2.1 hstop.2.2
        | inr hnext =>
            rw [heq] at hnext
            obtain ⟨hok, heq'⟩ := hnext
            cases heq'
            refine Or.inl ⟨rfl, ⟨fun hf => hok (hiff.mp (hfails.mp hf)), hnotQuiet⟩, ?_⟩
            refine hinv.next hp rfl hclosed (by rw [← hpset]) (fun _ _ => fbId_disable) ?_
            intro _ hpres
            obtain ⟨i', layer', fbId', hi', hlayer', hfb, hpos⟩ := hpres
            rw [hi] at hi'
            cases hi'
            rw [hlayer] at hlayer'
            cases hlayer'
            rw [hbuffer] at hfb
            cases hfb
            omega
      · rw [if_neg hneg] at h
        have hpos : 0 ≤ fbId.toInt := by omega
        have hiff : BufferFails input k p.plane layer ↔ ShowFails input k p.plane layer :=
          bufferFails_iff_showFails hbuffer hpos
        cases showTurn_spec h with
        | inl hstop => exact TurnEnds.fails (hfails.mpr (hiff.mpr hstop.1)) hstop.2.1 hstop.2.2
        | inr hnext =>
            obtain ⟨hok, hflow, crtc, hcrtc, hst⟩ := hnext
            refine Or.inl ⟨hflow, ⟨fun hf => hok (hiff.mp (hfails.mp hf)), hnotQuiet⟩, ?_⟩
            rw [hst]
            refine hinv.next hp rfl hclosed (by rw [← hpset])
              (fun _ _ => fbId_shown hpos) fun _ _ => ?_
            exact ⟨i, layer, fbId, crtc, hi, hlayer, hbuffer, hcrtc, List.Subset.refl _⟩

/-- A fence is closed when a plane before has waited for it. -/
theorem LoopInv.closed_iff (h : LoopInv input k st) {i : Nat} {layer : FrameLayer F}
    (hlayer : input.layers[i]? = some layer) :
    i ∈ st.closedFences ↔ 0 ≤ layer.acquireFence ∧
      ¬ ∀ j q, j < k → input.compPlanes[j]? = some q →
        ¬ (q.type ≠ .disable ∧ q.sourceLayers = [i]) := by
  rw [h.closed]
  refine ⟨fun hc => ?_, fun hc => ?_⟩
  · obtain ⟨j, q, layer', hj, hq, htype, hi, hlayer', hfence⟩ := hc
    rw [hlayer] at hlayer'
    cases hlayer'
    exact ⟨hfence, fun hall => hall j q hj hq ⟨htype, hi⟩⟩
  · obtain ⟨hfence, hsome⟩ := hc
    by_contra hnone
    exact hsome fun j q hj hq hcase =>
      hnone ⟨j, q, layer, hj, hq, hcase.1, hcase.2, hlayer, hfence⟩

/-- The fence fails when it is still open and the code waits for it in vain. -/
theorem LoopInv.fenceFails_iff (h : LoopInv input k st) {i : Nat} {layer : FrameLayer F}
    (hlayer : input.layers[i]? = some layer) :
    FenceFails input k i layer ↔ (0 ≤ layer.acquireFence ∧ i ∉ st.closedFences) ∧
      waitAcquire (input.outcomes.syncWait k) kAcquireWaitTries 0 st.ret ≠ 0 := by
  have hopen := h.closed_iff hlayer
  have hiff := @waitAcquire_ne_zero_iff (input.outcomes.syncWait k) 4 0 st.ret
  rw [Nat.zero_add] at hiff
  unfold FenceFails
  rw [show kAcquireWaitTries = 4 + 1 from rfl, hiff]
  constructor
  · rintro ⟨hfence, hbefore, htries⟩
    exact ⟨⟨hfence, fun hin => (hopen.mp hin).2 hbefore⟩, fun t _ ht => htries t ht⟩
  · rintro ⟨⟨hfence, hnot⟩, htries⟩
    refine ⟨hfence, ?_, fun t ht => htries t (Nat.zero_le t) ht⟩
    by_contra hsome
    exact hnot (hopen.mpr ⟨hfence, hsome⟩)

/-- From the acquire fence on. -/
theorem layerTurn_spec {i : Nat} {layer : FrameLayer F} {flow : Flow} {st' : CommitState}
    (hinv : LoopInv input k st) (hp : input.compPlanes[k]? = some p)
    (htype : p.type ≠ .disable) (hi : p.sourceLayers = [i]) (hlayer : input.layers[i]? = some layer)
    (h : layerTurn input false k p i layer st = some (flow, st')) :
    TurnEnds input k p flow st' := by
  -- whether the code waits or not, exactly the fence of this layer may be closed now
  have hclosed : ∀ fences : List Nat,
      (∀ j, j ∈ fences ↔ j ∈ st.closedFences ∨ j = i ∧ 0 ≤ layer.acquireFence) →
      ∀ j, j ∈ fences ↔ j ∈ st.closedFences ∨ p.type ≠ .disable ∧ p.sourceLayers = [j] ∧
        ∃ layer, input.layers[j]? = some layer ∧ 0 ≤ layer.acquireFence := by
    intro fences hfences j
    rw [hfences j, hi]
    refine or_congr_right ⟨fun hj => ?_, fun hj => ?_⟩
    · rw [hj.1]
      exact ⟨htype, rfl, layer, hlayer, hj.2⟩
    · obtain ⟨_, heq, layer', hl, hfence⟩ := hj
      cases heq
      rw [hlayer] at hl
      cases hl
      exact ⟨rfl, hfence⟩
  have hfails := hinv.fenceFails_iff hlayer
  unfold layerTurn at h
  by_cases hwait : false = false ∧ 0 ≤ layer.acquireFence ∧ i ∉ st.closedFences
  · rw [if_pos hwait] at h
    dsimp only at h
    by_cases hret : waitAcquire (input.outcomes.syncWait k) kAcquireWaitTries 0 st.ret ≠ 0
    · rw [if_pos hret] at h
      cases h
      exact TurnEnds.fails (Or.inr ⟨htype, i, layer, hi, hlayer,
        Or.inl (hfails.mpr ⟨hwait.2, hret⟩)⟩) rfl hret
    · rw [if_neg hret] at h
      refine @bufferTurn_spec F _ input k p ⟨_, st.closedFences ++ [i], st.pset⟩ i layer flow st
        st' hinv hp htype hi hlayer (fun hf => hret (hfails.mp hf).2) (not_not.mp hret) rfl
        (hclosed _ fun j => ?_) h
      rw [List.mem_append, List.mem_singleton]
      exact or_congr_right ⟨fun hj => ⟨hj, hwait.2.1⟩, fun hj => hj.1⟩
  · rw [if_neg hwait] at h
    refine bufferTurn_spec hinv hp htype hi hlayer
      (fun hf => hwait ⟨rfl, (hfails.mp hf).1⟩) hinv.ret rfl (hclosed _ fun j => ?_) h
    refine ⟨fun hj => Or.inl hj, fun hj => hj.elim id fun hnew => ?_⟩
    rw [hnew.1]
    by_contra hin
    exact hwait ⟨rfl, hnew.2, hin⟩

omit [Sub F] in
/-- A plane that is not disabled and has no layer to be decided by. -/
theorem not_failsAt (htype : p.type ≠ .disable)
    (h : ∀ i, p.sourceLayers = [i] → input.layers[i]? = none) : ¬ FailsAt input k p := by
  intro hf
  cases hf with
  | inl hdis => exact htype hdis.1
  | inr hshow =>
      obtain ⟨_, i, layer, hi, hlayer, _⟩ := hshow
      rw [h i hi] at hlayer
      cases hlayer

theorem disabledTurn_ends (hinv : LoopInv input k st) (hp : input.compPlanes[k]? = some p)
    (htype : p.type = .disable) {flow : Flow} {st' : CommitState}
    (h : disableTurn input k p.plane st = (flow, st')) : TurnEnds input k p flow st' := by
  cases disableTurn_spec input k p.plane st with
  | inl hstop =>
      rw [h] at hstop
      exact TurnEnds.fails (Or.inl ⟨htype, hstop.1⟩) hstop.2.1 hstop.2.2
  | inr hnext =>
      rw [h] at hnext
      obtain ⟨hok, heq⟩ := hnext
      cases heq
      refine Or.inl ⟨rfl, ⟨fun hf => ?_, fun hq => hq.2.1 htype⟩, ?_⟩
      · cases hf with
        | inl hdis => exact hok hdis.2
        | inr hshow => exact hshow.1 htype
      · refine hinv.next hp rfl (fun i => ?_) rfl (fun _ _ => fbId_disable)
          fun hne => absurd htype hne
        exact ⟨fun hi => Or.inl hi, fun hi => hi.resolve_right fun hnew => hnew.1 htype⟩

/-- A plane with more than one source layer is passed over. -/
theorem severalTurn_ends (hinv : LoopInv input k st) (hp : input.compPlanes[k]? = some p)
    (htype : p.type ≠ .disable) (hnot : ∀ i, p.sourceLayers ≠ [i]) :
    TurnEnds input k p .next st := by
  refine Or.inl ⟨rfl, ⟨not_failsAt htype fun i hi => absurd hi (hnot i), fun hq => ?_⟩, ?_⟩
  · obtain ⟨_, _, i, hi, _⟩ := hq
    exact hnot i hi
  · refine hinv.next hp hinv.ret (fun i => ?_) (List.append_nil _).symm
      (fun _ _ hin => nomatch hin) fun _ hpres => ?_
    · exact ⟨fun hi => Or.inl hi, fun hi => hi.resolve_right fun hnew => hnot i hnew.2.1⟩
    · obtain ⟨i, _, _, hi, _⟩ := hpres
      exact absurd hi (hnot i)

theorem showTurn_eq_none_iff {fbId : BitVec 32} {layer : FrameLayer F} :
    showTurn input k p fbId layer st = none ↔
      ¬ Unsupported input p.plane layer ∧ p.crtc = none := by
  unfold showTurn Unsupported
  rw [not_or]
  split
  · rename_i hrot
    exact ⟨fun h => (nomatch h), fun h => absurd hrot h.1.1⟩
  · rename_i hrot
    split
    · rename_i halpha
      exact ⟨fun h => (nomatch h), fun h => absurd halpha h.1.2⟩
    · rename_i halpha
      cases p.crtc with
      | none => exact ⟨fun _ => ⟨⟨hrot, halpha⟩, rfl⟩, fun _ => rfl⟩
      | some crtc =>
          refine ⟨fun h => ?_, fun h => nomatch h.2⟩
          dsimp only at h
          split at h
          · cases h
          · cases h

theorem bufferTurn_eq_none_iff {layer : FrameLayer F} :
    bufferTurn input k p layer st = none ↔ ∃ fbId, layer.buffer = some fbId ∧
      0 ≤ fbId.toInt ∧ ¬ Unsupported input p.plane layer ∧ p.crtc = none := by
  unfold bufferTurn
  cases layer.buffer with
  | none => simp
  | some fbId =>
      dsimp only
      split
      · rename_i hneg
        simp [hneg]
      · rename_i hpos
        rw [showTurn_eq_none_iff]
        simp [Int.not_lt.mp hpos]

theorem layerTurn_eq_none_iff (hinv : LoopInv input k st) {i : Nat} {layer : FrameLayer F}
    (hlayer : input.layers[i]? = some layer) :
    layerTurn input false k p i layer st = none ↔ ¬ FenceFails input k i layer ∧
      ∃ fbId, layer.buffer = some fbId ∧ 0 ≤ fbId.toInt ∧
        ¬ Unsupported input p.plane layer ∧ p.crtc = none := by
  have hfails := hinv.fenceFails_iff hlayer
  unfold layerTurn
  split
  · rename_i hwait
    dsimp only
    split
    · rename_i hret
      exact ⟨fun h => (nomatch h), fun h => absurd (hfails.mpr ⟨hwait.2, hret⟩) h.1⟩
    · rename_i hret
      rw [bufferTurn_eq_none_iff]
      exact ⟨fun h => ⟨fun hf => hret (hfails.mp hf).2, h⟩, fun h => h.2⟩
  · rename_i hwait
    rw [bufferTurn_eq_none_iff]
    exact ⟨fun h => ⟨fun hf => hwait ⟨rfl, (hfails.mp hf).1⟩, h⟩, fun h => h.2⟩

/-- A turn has no result exactly at a plane where the code reads what is not there. -/
theorem commitTurn_eq_none_iff (hinv : LoopInv input k st) :
    commitTurn input false k p st = none ↔ FaultsAt input k p := by
  unfold commitTurn FaultsAt
  by_cases htype : p.type = .disable
  · rw [if_pos htype]
    exact ⟨fun h => (nomatch h), fun h => absurd htype h.1⟩
  rw [if_neg htype]
  split
  · rename_i hsource
    exact ⟨fun _ => ⟨htype, Or.inl hsource⟩, fun _ => rfl⟩
  · rename_i hsource
    simp [hsource]
  · rename_i i hsource
    cases hlayer : input.layers[i]? with
    | none => simp [hsource, hlayer]
    | some layer =>
        dsimp only
        rw [layerTurn_eq_none_iff hinv hlayer]
        constructor
        · rintro ⟨hfence, fbId, hbuffer, hpos, hsupported, hcrtc⟩
          exact ⟨htype, Or.inr ⟨hcrtc, i, layer, fbId, hsource, hlayer, hbuffer, hpos, hfence,
            hsupported⟩⟩
        · rintro ⟨-, hempty | ⟨hcrtc, i', layer', fbId, hi, hl, hbuffer, hpos, hfence, hsupported⟩⟩
          · rw [hsource] at hempty
            cases hempty
          · rw [hsource] at hi
            cases hi
            rw [hlayer] at hl
            cases hl
            exact ⟨hfence, fbId, hbuffer, hpos, hsupported, hcrtc⟩

/-- How a turn in a commit that is no test ends. -/
theorem commitTurn_ends (hinv : LoopInv input k st) (hp : input.compPlanes[k]? = some p)
    {flow : Flow} {st' : CommitState} (h : commitTurn input false k p st = some (flow, st')) :
    TurnEnds input k p flow st' := by
  unfold commitTurn at h
  by_cases htype : p.type = .disable
  · rw [if_pos htype] at h
    exact disabledTurn_ends hinv hp htype (Option.some.inj h)
  rw [if_neg htype] at h
  cases hsource : p.sourceLayers with
  | nil =>
      rw [hsource] at h
      cases h
  | cons i rest =>
      cases rest with
      | cons i' rest =>
          rw [hsource] at h
          cases h
          refine severalTurn_ends hinv hp htype fun j hj => ?_
          rw [hsource] at hj
          cases hj
      | nil =>
          rw [hsource] at h
          dsimp only at h
          cases hlayer : input.layers[i]? with
          | none =>
              rw [hlayer] at h
              cases h
              have hnone : ∀ j, p.sourceLayers = [j] → input.layers[j]? = none := by
                intro j hj
                rw [hsource] at hj
                cases hj
                exact hlayer
              have hq : StopsQuietly input k p := by
                refine ⟨not_failsAt htype hnone, htype, i, hsource, fun layer hl => ?_⟩
                rw [hlayer] at hl
                cases hl
              exact Or.inr ⟨rfl, fun hno => hno.2 hq, Or.inr ⟨hq, hinv.ret⟩⟩
          | some layer =>
              rw [hlayer] at h
              exact layerTurn_spec hinv hp htype hsource hlayer h

/-- One turn of the loop, in a commit that is no test. -/
theorem commitTurn_spec (input : CommitInput F) :
    TurnSpec (commitTurn input false) input.compPlanes (LoopInv input)
      (fun k p => Passes input k p ∧ ¬ FaultsAt input k p)
      (fun k p st => ¬ FaultsAt input k p ∧
        (FailsAt input k p ∧ st.ret ≠ 0 ∨ StopsQuietly input k p ∧ st.ret = 0)) := by
  intro k p st flow st' hp hinv h
  have hsafe : ¬ FaultsAt input k p := by
    rw [← commitTurn_eq_none_iff hinv, h]
    exact Option.some_ne_none _
  rcases commitTurn_ends hinv hp h with ⟨hflow, hpasses, hinv'⟩ | ⟨hflow, hpasses, hends⟩
  · exact Or.inl ⟨hflow, ⟨hpasses, hsafe⟩, hinv'⟩
  · exact Or.inr ⟨hflow, fun h => hpasses h.1, hsafe, hends⟩

theorem loopInv_start (input : CommitInput F) {pset : List Property}
    (hpset : ∀ plane value, Property.plane plane .fbId value ∉ pset) :
    LoopInv input 0 ⟨0, [], pset⟩ := by
  refine ⟨rfl, fun i => ⟨fun hi => absurd hi List.not_mem_nil, fun hi => ?_⟩,
    fun plane value hin => absurd hin (hpset plane value),
    fun j q hj => absurd hj (Nat.not_lt_zero j)⟩
  obtain ⟨j, _, _, hj, _⟩ := hi
  exact absurd hj (Nat.not_lt_zero j)

/-- The loop has no result exactly when it comes to a plane where the code reads what is not
there. -/
theorem commitPlanes_eq_none_iff {pset : List Property}
    (hpset : ∀ plane value, Property.plane plane .fbId value ∉ pset) :
    commitPlanes input false ⟨0, [], pset⟩ = none ↔ LoopFaults input := by
  have hinit := loopInv_start input hpset
  constructor
  · intro hrun
    obtain ⟨k, p, st, hp, hinv, hbody, hbefore⟩ :=
      breakLoop_eq_none (commitTurn_spec input) hinit hrun
    exact ⟨k, p, hp, (commitTurn_eq_none_iff hinv).mp hbody,
      fun j q hj hq => (hbefore j q hj hq).1⟩
  · rintro ⟨k, p, hp, hfaults, hbefore⟩
    cases hrun : commitPlanes input false ⟨0, [], pset⟩ with
    | none => rfl
    | some r =>
        rcases breakLoop_spec (commitTurn_spec input) hinit hrun with
          ⟨-, hgoes, -⟩ | ⟨-, k', p', hp', hstops, ⟨hsafe, -⟩, hbefore'⟩
        · exact absurd hfaults (hgoes k p hp).2
        · rcases Nat.lt_trichotomy k k' with hlt | rfl | hgt
          · exact absurd hfaults (hbefore' k p hlt hp).2
          · rw [hp] at hp'
            cases hp'
            exact absurd hfaults hsafe
          · exact absurd ⟨hbefore k' p' hgt hp', hsafe⟩ hstops

/-- The whole loop: an error exactly when a plane fails, and without one the set shows
every plane exactly when all of them can be shown. -/
theorem commitPlanes_spec {pset : List Property} {flow : Flow} {st' : CommitState}
    (hpset : ∀ plane value, Property.plane plane .fbId value ∉ pset)
    (h : commitPlanes input false ⟨0, [], pset⟩ = some (flow, st')) :
    (LoopFails input ∧ st'.ret ≠ 0) ∨
    (¬ LoopFails input ∧ st'.ret = 0 ∧
      ((∀ p ∈ input.compPlanes, p.type ≠ .disable → Shows input st'.pset p) ↔
        ∀ p ∈ input.compPlanes, p.type ≠ .disable → Presentable input p)) := by
  cases breakLoop_spec (commitTurn_spec input) (loopInv_start input hpset) h with
  | inl hall =>
      obtain ⟨_, hgoes, hinv⟩ := hall
      refine Or.inr ⟨fun hfails => ?_, hinv.ret, fun hshows p hp htype => ?_,
        fun hpres p hp htype => ?_⟩
      · obtain ⟨k, p, hp, hf, _⟩ := hfails
        exact (hgoes k p hp).1.1 hf
      · exact hinv.presentable (hshows p hp htype)
      · obtain ⟨j, hj⟩ := List.mem_iff_getElem?.mp hp
        exact hinv.shown j p (List.getElem?_eq_some_iff.mp hj).1 hj htype (hpres p hp htype)
  | inr hstop =>
      obtain ⟨_, k, p, hp, _, ⟨_, hends⟩, hbefore⟩ := hstop
      have hbefore : ∀ j q, j < k → input.compPlanes[j]? = some q → Passes input j q :=
        fun j q hj hq => (hbefore j q hj hq).1
      cases hends with
      | inl hfails => exact Or.inl ⟨⟨k, p, hp, hfails.1, hbefore⟩, hfails.2⟩
      | inr hquiet =>
          obtain ⟨hq, hret⟩ := hquiet
          obtain ⟨hnot, htype, i, hi, hnone⟩ := hq
          have hmem : p ∈ input.compPlanes := List.mem_of_getElem? hp
          refine Or.inr ⟨fun hfails => ?_, hret, fun hshows => ?_, fun hpres => ?_⟩
          · obtain ⟨k', p', hp', hf', hbefore'⟩ := hfails
            -- the loop stops at one place only
            by_cases hlt : k' < k
            · exact (hbefore k' p' hlt hp').1 hf'
            · by_cases hgt : k < k'
              · exact (hbefore' k p hgt hp).2 ⟨hnot, htype, i, hi, hnone⟩
              · have heq : k' = k := by omega
                rw [heq, hp] at hp'
                cases hp'
                rw [heq] at hf'
                exact hnot hf'
          · obtain ⟨i', layer, fbId, _, hi', hlayer, hbuffer, _⟩ := hshows p hmem htype
            rw [hi] at hi'
            cases hi'
            rw [hnone layer hlayer] at hbuffer
            cases hbuffer
          · obtain ⟨i', layer, fbId, hi', hlayer, hbuffer, _⟩ := hpres p hmem htype
            rw [hi] at hi'
            cases hi'
            rw [hnone layer hlayer] at hbuffer
            cases hbuffer

end Turn

/-! ## The commit -/

section Commit

variable [Sub F]

/-- A successful commit shows every plane that is not disabled. -/
def CommitsAll (input : CommitInput F) (result : CommitResult M) : Prop :=
  ∃ pset, result.committed = some pset ∧
    ∀ p ∈ input.compPlanes, p.type ≠ .disable → Shows input pset p

/-- Where there is no such commit, an error is returned and the modes stay. -/
def Honest (input : CommitInput F) (mode : ModeState M) (activeMode : M)
    (result : CommitResult M) : Prop :=
  ¬ CommitsAll input result →
    result.ret ≠ 0 ∧ result.mode = mode ∧ result.activeMode = activeMode

/-- The commit gets as far as the loop over the planes. -/
def ReachesPlanes (input : CommitInput F) (mode : ModeState M) : Prop :=
  (input.drm.getConnectorForDisplay input.display).isSome = true ∧
  (input.drm.getCrtcForDisplay input.display).isSome = true ∧
  input.outcomes.alloc = true ∧
  (mode.needsModeset = true → 0 ≤ input.outcomes.addActive ∧ 0 ≤ input.outcomes.addMode ∧
    0 ≤ input.outcomes.addConnectorCrtc)

/-- The old blob can be destroyed and the DPMS property be set. -/
def ModesetCompletes (outcomes : CommitOutcomes) (mode : ModeState M) : Prop :=
  (mode.oldBlobId = 0#32 ∨ outcomes.destroyBlob = 0) ∧ outcomes.setDpms = 0

/-- The end of `CommitFrame` overwrites `ret` when a mode is pending. -/
theorem finishModeset_spec (outcomes : CommitOutcomes) (mode : ModeState M) (activeMode : M)
    (ret : Int) (committed : Option (List Property)) :
    (finishModeset outcomes false mode activeMode ret committed).committed = committed ∧
    ((mode.needsModeset = true ∧ ¬ ModesetCompletes outcomes mode ∧
        (finishModeset outcomes false mode activeMode ret committed).ret ≠ 0 ∧
        (finishModeset outcomes false mode activeMode ret committed).mode = mode ∧
        (finishModeset outcomes false mode activeMode ret committed).activeMode = activeMode) ∨
      (mode.needsModeset = true ∧ ModesetCompletes outcomes mode ∧
        (finishModeset outcomes false mode activeMode ret committed).ret = 0) ∨
      (mode.needsModeset = false ∧
        finishModeset outcomes false mode activeMode ret committed =
          ⟨ret, mode, activeMode, committed, []⟩)) := by
  unfold finishModeset
  cases hneeds : mode.needsModeset with
  | false => simp
  | true =>
      simp only [Bool.not_false, and_self, if_true]
      unfold destroyPropertyBlob ModesetCompletes
      by_cases hzero : mode.oldBlobId = 0#32
      · simp only [hzero, if_true]
        by_cases hdpms : outcomes.setDpms = 0
        · simp [hdpms]
        · simp [hdpms]
      · simp only [hzero, if_false]
        by_cases hdestroy : outcomes.destroyBlob = 0
        · by_cases hdpms : outcomes.setDpms = 0
          · simp [hdestroy, hdpms]
          · simp [hdestroy, hdpms]
        · simp [hdestroy]

theorem not_commitsAll_of_none {input : CommitInput F} {result : CommitResult M}
    (h : result.committed = none) : ¬ CommitsAll input result := by
  intro hall
  obtain ⟨pset, hsome, _⟩ := hall
  rw [h] at hsome
  cases hsome

theorem modesetProperties_spec (outcomes : CommitOutcomes) (mode : ModeState M) (crtc : DrmCrtc)
    (connector : DrmConnector) :
    ((modesetProperties outcomes mode crtc connector).1 = 0 ↔
      (mode.needsModeset = true → 0 ≤ outcomes.addActive ∧ 0 ≤ outcomes.addMode ∧
        0 ≤ outcomes.addConnectorCrtc)) ∧
    ∀ plane value, Property.plane plane .fbId value ∉
      (modesetProperties outcomes mode crtc connector).2 := by
  unfold modesetProperties
  cases hneeds : mode.needsModeset with
  | false => simp
  | true =>
      simp only [if_true, true_implies]
      by_cases hactive : outcomes.addActive < 0
      · rw [if_pos hactive]
        refine ⟨⟨fun h => ?_, fun h => ?_⟩, by simp⟩
        · simp only at h; omega
        · omega
      · rw [if_neg hactive]
        by_cases hother : outcomes.addMode < 0 ∨ outcomes.addConnectorCrtc < 0
        · rw [if_pos hother]
          refine ⟨⟨fun h => absurd h Int.one_ne_zero, fun h => ?_⟩, by simp⟩
          omega
        · rw [if_neg hother]
          refine ⟨⟨fun _ => ?_, fun _ => rfl⟩, by simp⟩
          omega

/-- The condition of the main theorem: an error of the loop is not overwritten by a modeset
that completes, and a set that lacks a plane is not committed and reported. -/
def NoSlip (input : CommitInput F) (mode : ModeState M) : Prop :=
  (LoopFails input → ¬ (mode.needsModeset = true ∧ ModesetCompletes input.outcomes mode)) ∧
  (¬ LoopFails input →
    (∀ p ∈ input.compPlanes, p.type ≠ .disable → Presentable input p) ∨
    input.outcomes.atomicCommit ≠ 0 ∨
    (mode.needsModeset = true ∧ ¬ ModesetCompletes input.outcomes mode))

/-- After a loop that failed nothing is committed. -/
theorem honest_of_loopFails {input : CommitInput F} {mode : ModeState M} {activeMode : M}
    (hfails : LoopFails input) {ret : Int} (hret : ret ≠ 0) :
    Honest input mode activeMode (finishModeset input.outcomes false mode activeMode ret none) ↔
      NoSlip input mode := by
  obtain ⟨hcommitted, hcases⟩ := finishModeset_spec input.outcomes mode activeMode ret none
  generalize finishModeset input.outcomes false mode activeMode ret none = result
    at hcommitted hcases
  have hnone : ¬ CommitsAll input result := not_commitsAll_of_none hcommitted
  unfold NoSlip Honest
  rcases hcases with hstuck | hdone | hplain
  · obtain ⟨_, hnot, hret', hmode, hactive⟩ := hstuck
    exact ⟨fun _ => ⟨fun _ h => hnot h.2, fun h => absurd hfails h⟩,
      fun _ _ => ⟨hret', hmode, hactive⟩⟩
  · obtain ⟨hneeds, hcompletes, hzero⟩ := hdone
    exact ⟨fun h => absurd hzero (h hnone).1,
      fun h => absurd ⟨hneeds, hcompletes⟩ (h.1 hfails)⟩
  · obtain ⟨hneeds, heq⟩ := hplain
    rw [heq]
    refine ⟨fun _ => ⟨fun _ h => ?_, fun h => absurd hfails h⟩, fun _ _ => ⟨hret, rfl, rfl⟩⟩
    rw [hneeds] at h
    exact absurd h.1 Bool.false_ne_true

/-- After a loop without an error, and a successful commit of its set. -/
theorem honest_of_committed {input : CommitInput F} {mode : ModeState M} {activeMode : M}
    (hfails : ¬ LoopFails input) (hcommit : input.outcomes.atomicCommit = 0)
    {pset : List Property}
    (hshows : (∀ p ∈ input.compPlanes, p.type ≠ .disable → Shows input pset p) ↔
      ∀ p ∈ input.compPlanes, p.type ≠ .disable → Presentable input p) :
    Honest input mode activeMode
        (finishModeset input.outcomes false mode activeMode 0 (some pset)) ↔
      NoSlip input mode := by
  obtain ⟨hcommitted, hcases⟩ := finishModeset_spec input.outcomes mode activeMode 0 (some pset)
  generalize finishModeset input.outcomes false mode activeMode 0 (some pset) = result
    at hcommitted hcases
  have hall : CommitsAll input result ↔
      ∀ p ∈ input.compPlanes, p.type ≠ .disable → Presentable input p := by
    unfold CommitsAll
    rw [← hshows, hcommitted]
    refine ⟨fun h => ?_, fun h => ⟨pset, rfl, h⟩⟩
    obtain ⟨pset', hsome, hin⟩ := h
    cases hsome
    exact hin
  unfold NoSlip Honest
  rw [hall]
  rcases hcases with hstuck | hdone | hplain
  · obtain ⟨hneeds, hnot, hret', hmode, hactive⟩ := hstuck
    exact ⟨fun _ => ⟨fun h => absurd h hfails, fun _ => Or.inr (Or.inr ⟨hneeds, hnot⟩)⟩,
      fun _ _ => ⟨hret', hmode, hactive⟩⟩
  · obtain ⟨_, hcompletes, hzero⟩ := hdone
    refine ⟨fun h => ⟨fun h => absurd h hfails, fun _ => Or.inl ?_⟩, fun h hnot => ?_⟩
    · by_contra hnot
      exact (h hnot).1 hzero
    · rcases h.2 hfails with hpres | hne | hmodeset
      · exact absurd hpres hnot
      · exact absurd hcommit hne
      · exact absurd hcompletes hmodeset.2
  · obtain ⟨hneeds, heq⟩ := hplain
    rw [heq]
    refine ⟨fun h => ⟨fun h => absurd h hfails, fun _ => Or.inl ?_⟩, fun h hnot => ?_⟩
    · by_contra hnot
      exact (h hnot).1 rfl
    · rcases h.2 hfails with hpres | hne | hmodeset
      · exact absurd hpres hnot
      · exact absurd hcommit hne
      · rw [hneeds] at hmodeset
        exact absurd hmodeset.1 Bool.false_ne_true

/-- All that the part up to the commit can do. -/
inductive SetCases (input : CommitInput F) (mode : ModeState M) : SetCommit → Prop where
  /-- it returns before the loop over the planes -/
  | early (ret : Int) (hret : ret ≠ 0) (hearly : ¬ ReachesPlanes input mode) :
      SetCases input mode (.returned ret)
  /-- the loop fails, and nothing is committed -/
  | failed (ret : Int) (hret : ret ≠ 0) (hreach : ReachesPlanes input mode)
      (hfails : LoopFails input) : SetCases input mode (.goesOn ret none)
  /-- the kernel rejects the set -/
  | rejected (hreach : ReachesPlanes input mode) (hpasses : ¬ LoopFails input)
      (hcommit : input.outcomes.atomicCommit ≠ 0) :
      SetCases input mode (.returned input.outcomes.atomicCommit)
  /-- the kernel takes the set -/
  | committed (pset : List Property) (hreach : ReachesPlanes input mode)
      (hpasses : ¬ LoopFails input) (hcommit : input.outcomes.atomicCommit = 0)
      (hshows : (∀ p ∈ input.compPlanes, p.type ≠ .disable → Shows input pset p) ↔
        ∀ p ∈ input.compPlanes, p.type ≠ .disable → Presentable input p) :
      SetCases input mode (.goesOn 0 (some pset))

/-- There is no result exactly when the loop over the planes reads what is not there. -/
theorem commitSet_cases (input : CommitInput F) (mode : ModeState M) :
    (commitSet input false mode = none ∧ ReachesPlanes input mode ∧ LoopFaults input) ∨
      ∃ c, commitSet input false mode = some c ∧ SetCases input mode c ∧
        (ReachesPlanes input mode → ¬ LoopFaults input) := by
  unfold commitSet
  cases hconn : input.drm.getConnectorForDisplay input.display with
  | none =>
      have hearly : ¬ ReachesPlanes input mode := fun hreach => by
        rw [ReachesPlanes, hconn] at hreach
        exact absurd hreach.1 Bool.false_ne_true
      exact Or.inr ⟨_, rfl, .early _ (by decide) hearly, fun hreach => absurd hreach hearly⟩
  | some connector =>
      cases hcrtc : input.drm.getCrtcForDisplay input.display with
      | none =>
          have hearly : ¬ ReachesPlanes input mode := fun hreach => by
            rw [ReachesPlanes, hcrtc] at hreach
            exact absurd hreach.2.1 Bool.false_ne_true
          exact Or.inr ⟨_, rfl, .early _ (by decide) hearly, fun hreach => absurd hreach hearly⟩
      | some crtc =>
          dsimp only
          by_cases halloc : input.outcomes.alloc = false
          · have hearly : ¬ ReachesPlanes input mode := fun hreach => by
              rw [hreach.2.2.1] at halloc
              cases halloc
            rw [if_pos halloc]
            exact Or.inr ⟨_, rfl, .early _ (by decide) hearly, fun hreach => absurd hreach hearly⟩
          rw [if_neg halloc]
          obtain ⟨hmodeset, hpset⟩ := modesetProperties_spec input.outcomes mode crtc connector
          generalize modesetProperties input.outcomes mode crtc connector = r at hmodeset hpset
          obtain ⟨ret, pset⟩ := r
          dsimp only at hmodeset hpset ⊢
          by_cases hret : ret ≠ 0
          · have hearly : ¬ ReachesPlanes input mode := fun hreach =>
              hret (hmodeset.mpr hreach.2.2.2)
            rw [if_pos hret]
            exact Or.inr ⟨_, rfl, .early _ hret hearly, fun hreach => absurd hreach hearly⟩
          rw [if_neg hret]
          have hreach : ReachesPlanes input mode :=
            ⟨by rw [hconn]; rfl, by rw [hcrtc]; rfl, Bool.eq_true_of_not_eq_false halloc,
              hmodeset.mp (not_not.mp hret)⟩
          have hnone := @commitPlanes_eq_none_iff _ _ input _ hpset
          cases hplanes : commitPlanes input false ⟨0, [], pset⟩ with
          | none => exact Or.inl ⟨rfl, hreach, hnone.mp hplanes⟩
          | some r =>
              obtain ⟨flow, st⟩ := r
              have hsafe : ReachesPlanes input mode → ¬ LoopFaults input := fun _ hfaults => by
                rw [hnone.mpr hfaults] at hplanes
                cases hplanes
              dsimp only
              rcases commitPlanes_spec hpset hplanes with ⟨hfails, hne⟩ | ⟨hpasses, hzero, hshows⟩
              · rw [if_pos hne]
                exact Or.inr ⟨_, rfl, .failed _ hne hreach hfails, hsafe⟩
              · rw [if_neg (not_not_intro hzero)]
                by_cases hcommit : input.outcomes.atomicCommit ≠ 0
                · rw [if_pos hcommit]
                  exact Or.inr ⟨_, rfl, .rejected hreach hpasses hcommit, hsafe⟩
                · rw [if_neg hcommit]
                  exact Or.inr ⟨_, rfl, .committed _ hreach hpasses (not_not.mp hcommit) hshows,
                    hsafe⟩

/-- Where there is a result, that is honest exactly when neither slip happens. -/
theorem SetCases.honest_iff {input : CommitInput F} {mode : ModeState M} {activeMode : M}
    {c : SetCommit} (h : SetCases input mode c) :
    Honest input mode activeMode (c.result input.outcomes false mode activeMode) ↔
      (ReachesPlanes input mode → NoSlip input mode) := by
  have hdrop : ReachesPlanes input mode →
      ((ReachesPlanes input mode → NoSlip input mode) ↔ NoSlip input mode) :=
    fun hreach => ⟨fun hno => hno hreach, fun hno _ => hno⟩
  cases h with
  | early ret hret hearly =>
      exact ⟨fun _ hreach => absurd hreach hearly, fun _ _ => ⟨hret, rfl, rfl⟩⟩
  | failed ret hret hreach hfails =>
      rw [hdrop hreach]
      exact honest_of_loopFails hfails hret
  | rejected hreach hpasses hcommit =>
      rw [hdrop hreach]
      exact ⟨fun _ => ⟨fun hf => absurd hf hpasses, fun _ => Or.inr (Or.inl hcommit)⟩,
        fun _ _ => ⟨hcommit, rfl, rfl⟩⟩
  | committed pset hreach hpasses hcommit hshows =>
      rw [hdrop hreach]
      exact honest_of_committed hpasses hcommit hshows

/-- `CommitFrame` has a result and is honest exactly when the loop over the planes, if it comes
to it, reads nothing that is not there and neither slip happens. -/
theorem commitFrame_honest_iff (input : CommitInput F) (mode : ModeState M) (activeMode : M) :
    (∃ result, commitFrame input false mode activeMode = some result ∧
        Honest input mode activeMode result) ↔
      (ReachesPlanes input mode → ¬ LoopFaults input ∧ NoSlip input mode) := by
  unfold commitFrame
  rcases commitSet_cases input mode with ⟨hnone, hreach, hfaults⟩ | ⟨c, hset, hcases, hsafe⟩
  · rw [hnone]
    refine ⟨fun ⟨result, hrun, _⟩ => ?_, fun hcond => absurd hfaults (hcond hreach).1⟩
    cases hrun
  · rw [hset, Option.map_some]
    constructor
    · rintro ⟨result, hrun, hhonest⟩ hreach
      cases hrun
      exact ⟨hsafe hreach, hcases.honest_iff.mp hhonest hreach⟩
    · intro hcond
      exact ⟨_, rfl, hcases.honest_iff.mpr fun hreach => (hcond hreach).2⟩

end Commit

/-! ## A fence that never fires -/

/-- One layer on the primary plane of a panel, where only the fences may fail. -/
def panelCommit (syncWait : Nat → Nat → Int) : CommitInput Int where
  drm := .init [⟨30, .primary, 1#32⟩] (by decide) [(⟨1, 0⟩, 0)] [⟨1, true, false, -1⟩]
  display := 0
  props := ⟨fun _ => 0, fun _ => 0⟩
  truncate := id
  layers := [{
    sfHandle := 1, grallocBufferUsage := 0#32, format := .nv12, transform := 0#32
    blending := .none, sourceCrop := ⟨0, 0, 100, 100⟩, displayFrame := ⟨0, 0, 100, 100⟩
    alpha := 0xFF#8, acquireFence := 7, buffer := some 40#32 }]
  compPlanes := [⟨.layer, ⟨30, .primary, 1#32⟩, some ⟨1, 0⟩, [0]⟩]
  outcomes := ⟨true, 1, 2, 3, fun _ _ => 1, syncWait, 0, 0, 0⟩

/-- The first mode is pending. -/
def firstModeset : ModeState Nat := ⟨true, 1, 5#32, 0#32⟩

/-- The wait for the fence fails, nothing is committed, and yet the mode is taken as set. -/
theorem commitFrame_hides_failed_fence :
    ∃ result, commitFrame (panelCommit fun _ _ => -1) false firstModeset 0 = some result ∧
      ¬ Honest (panelCommit fun _ _ => -1) firstModeset 0 result := by
  have hrun : commitFrame (panelCommit fun _ _ => -1) false firstModeset 0 =
      some ⟨0, ⟨false, 1, 0#32, 5#32⟩, 1, none, []⟩ := by decide
  refine ⟨_, hrun, fun hhonest => ?_⟩
  exact (hhonest (not_commitsAll_of_none rfl)).1 rfl

/-- When the fence fires, the frame and the mode are committed. -/
theorem commitFrame_honest_panel :
    ∃ result, commitFrame (panelCommit fun _ _ => 0) false firstModeset 0 = some result ∧
      Honest (panelCommit fun _ _ => 0) firstModeset 0 result := by
  have hpresentable : ∀ p ∈ (panelCommit fun _ _ => 0).compPlanes, p.type ≠ .disable →
      Presentable (panelCommit fun _ _ => 0) p := by
    intro p hp _
    rw [List.mem_singleton.mp hp]
    exact ⟨0, _, 40#32, rfl, rfl, rfl, by decide⟩
  have hpasses : ¬ LoopFails (panelCommit fun _ _ => 0) := by
    intro hfails
    obtain ⟨k, p, hp, hf, _⟩ := hfails
    cases hf with
    | inl hdisable => exact absurd hdisable.2 (by simp [DisableFails, panelCommit])
    | inr hshow =>
        obtain ⟨_, i, layer, _, hlayer, hcase⟩ := hshow
        have hlayer' := List.mem_singleton.mp (List.mem_of_getElem? hlayer)
        cases hcase with
        | inl hfence => exact hfence.2.2 0 (by decide) rfl
        | inr hbuffer =>
            obtain ⟨fbId, _, hcase⟩ := hbuffer
            cases hcase with
            | inl hneg => exact absurd hneg.2 (by simp [DisableFails, panelCommit])
            | inr hshows =>
                rcases hshows.2 with hrot | halpha | hadd
                · rw [hlayer'] at hrot
                  exact hrot.1 (by decide)
                · rw [hlayer'] at halpha
                  exact halpha.1 (by decide)
                · obtain ⟨property, _, hneg⟩ := hadd
                  exact absurd hneg (by simp [panelCommit])
  have hsafe : ¬ LoopFaults (panelCommit fun _ _ => 0) := by
    rintro ⟨k, p, hp, ⟨-, hempty | hcrtc⟩, -⟩
    · rw [List.mem_singleton.mp (List.mem_of_getElem? hp)] at hempty
      cases hempty
    · rw [List.mem_singleton.mp (List.mem_of_getElem? hp)] at hcrtc
      cases hcrtc.1
  exact (commitFrame_honest_iff (panelCommit fun _ _ => 0) firstModeset 0).mpr fun _ =>
    ⟨hsafe, fun hf => absurd hf hpasses, fun _ => Or.inl hpresentable⟩

end DragonDevice.Hwc
