/-
  Hwc/FenceOrder.lean --- what each stage of a composition signals.

  The points of the release fences are in the order of the stages: whatever is still
  needed after squashing has a point beyond that of squashing, and what is scanned out
  has one beyond that of pre-compositing.  A layer can be assigned a fence twice; it
  keeps the later one.
-/
import DragonDevice.Hwc.ReleaseFences

set_option autoImplicit false

namespace DragonDevice.Hwc

open DragonDevice.Lib

/-! ## The groups of layers -/

theorem foldl_emplaceSquash (l : List Nat) (groups : LayerGroups) :
    (l.foldl LayerGroups.emplaceSquash groups).preComp = groups.preComp ∧
    (l.foldl LayerGroups.emplaceSquash groups).comp = groups.comp := by
  induction l generalizing groups with
  | nil => exact ⟨rfl, rfl⟩
  | cons i l ih => exact ih (groups.emplaceSquash i)

theorem foldl_emplacePreComp (l : List Nat) (groups : LayerGroups) :
    (∀ j, j ∈ (l.foldl LayerGroups.emplacePreComp groups).preComp ↔
      j ∈ groups.preComp ∨ j ∈ l) ∧
    (l.foldl LayerGroups.emplacePreComp groups).comp = groups.comp := by
  induction l generalizing groups with
  | nil => simp
  | cons i l ih =>
      obtain ⟨hpre, hcomp⟩ := ih (groups.emplacePreComp i)
      refine ⟨fun j => (hpre j).trans ?_, hcomp⟩
      simp only [LayerGroups.emplacePreComp, List.mem_insert_iff, List.mem_cons]
      exact or_assoc.trans or_left_comm

theorem foldl_emplaceComp (l : List Nat) (groups : LayerGroups) :
    (∀ j, j ∈ (l.foldl LayerGroups.emplaceComp groups).comp ↔ j ∈ groups.comp ∨ j ∈ l) ∧
    ∀ j, j ∈ (l.foldl LayerGroups.emplaceComp groups).preComp ↔
      j ∈ groups.preComp ∧ j ∉ l := by
  induction l generalizing groups with
  | nil => simp
  | cons i l ih =>
      obtain ⟨hcomp, hpre⟩ := ih (groups.emplaceComp i)
      refine ⟨fun j => (hcomp j).trans ?_, fun j => (hpre j).trans ?_⟩
      · simp only [LayerGroups.emplaceComp, List.mem_insert_iff, List.mem_cons]
        exact or_assoc.trans or_left_comm
      · simp only [LayerGroups.emplaceComp, List.mem_filter, List.mem_cons, not_or,
          decide_eq_true_eq, ne_eq, and_assoc]

/-- A layer on a plane is one of the last group. -/
theorem FenceUsers.mem_comp {users : FenceUsers} {i : Nat} :
    i ∈ users.groups.comp ↔ i ∈ users.compSources := by
  rw [FenceUsers.groups, (foldl_emplaceComp _ _).1, (foldl_emplacePreComp _ _).2,
    (foldl_emplaceSquash _ _).2]
  simp

/-- A layer of a precomp region is one of the second group, unless it is on a plane. -/
theorem FenceUsers.mem_preComp {users : FenceUsers} {i : Nat} :
    i ∈ users.groups.preComp ↔ i ∈ users.preCompSources ∧ i ∉ users.compSources := by
  rw [FenceUsers.groups, (foldl_emplaceComp _ _).2, (foldl_emplacePreComp _ _).1,
    (foldl_emplaceSquash _ _).1]
  simp

theorem IterationOrder.mem (o : IterationOrder) {l : List Nat} {i : Nat} :
    i ∈ o.order l ↔ i ∈ l :=
  (o.perm l).mem_iff

/-! ## One group -/

/-- What the loop over a group does: it only raises the timeline and sets fences of its layers,
and a layer of it with a place for a fence has one of the points that were added. -/
structure AssignedFrom (hasReleaseFence : Nat → Bool) (l : List Nat) (s s' : FenceTimeline)
    (ret : Int) : Prop where
  le : s.timeline ≤ s'.timeline
  rest : s' = { s with timeline := s'.timeline, releaseFence := s'.releaseFence }
  kept : ∀ i, i ∉ l ∨ hasReleaseFence i = false → s'.releaseFence i = s.releaseFence i
  assigned : 0 ≤ ret → ∀ i ∈ l, hasReleaseFence i = true →
    ∃ p, s'.releaseFence i = some p ∧ s.timeline < p ∧ p ≤ s'.timeline

theorem assignFences_spec (create : Int → Int) {hasReleaseFence : Nat → Bool} (l : List Nat)
    (s : FenceTimeline) :
    AssignedFrom hasReleaseFence l s (assignFences create hasReleaseFence l s).2
      (assignFences create hasReleaseFence l s).1 := by
  induction l generalizing s with
  | nil => exact ⟨le_refl _, rfl, fun _ _ => rfl, fun _ i hi => absurd hi List.not_mem_nil⟩
  | cons i l ih =>
      unfold assignFences
      cases hhas : hasReleaseFence i with
      | false =>
          rw [if_pos rfl]
          obtain ⟨hle, hrest, hkept, hassigned⟩ := ih s
          refine ⟨hle, hrest, fun j hj => hkept j (hj.imp_left ?_), fun hret j hj hjhas => ?_⟩
          · exact fun hj hmem => hj (List.mem_cons_of_mem i hmem)
          · refine hassigned hret j ((List.mem_cons.mp hj).resolve_left fun heq => ?_) hjhas
            rw [heq, hhas] at hjhas
            cases hjhas
      | true =>
          rw [if_neg (by simp)]
          by_cases hfd : create (createNextTimelineFence s).timeline < 0
          · simp only [if_pos hfd]
            refine ⟨?_, rfl, fun j hj => ?_, fun hret => absurd hret (by omega)⟩
            · simp only [createNextTimelineFence]
              omega
            · refine Function.update_of_ne ?_ _ _
              rintro rfl
              obtain hj | hj := hj
              · exact hj List.mem_cons_self
              · rw [hhas] at hj
                cases hj
          · simp only [if_neg hfd]
            obtain ⟨hle, hrest, hkept, hassigned⟩ := ih
              { createNextTimelineFence s with
                releaseFence := Function.update (createNextTimelineFence s).releaseFence i
                  (some (createNextTimelineFence s).timeline) }
            simp only [createNextTimelineFence] at hle hkept hassigned ⊢
            refine ⟨by omega, hrest, fun j hj => ?_, fun hret j hj hjhas => ?_⟩
            · have hne : j ≠ i := by
                rintro rfl
                obtain hj | hj := hj
                · exact hj List.mem_cons_self
                · rw [hhas] at hj
                  cases hj
              rw [hkept j (hj.imp_left fun hj hmem => hj (List.mem_cons_of_mem i hmem)),
                Function.update_of_ne hne]
            · by_cases hmem : j ∈ l
              · obtain ⟨p, hp, hlt, hple⟩ := hassigned hret j hmem hjhas
                exact ⟨p, hp, by omega, hple⟩
              · have heq : j = i := (List.mem_cons.mp hj).resolve_right hmem
                refine ⟨s.timeline + 1, ?_, by omega, hle⟩
                rw [hkept j (Or.inl hmem), heq, Function.update_self]

/-! ## The three groups -/

/-- What the timeline keeps in every run: its own count is that of the kernel, and no stage ends
beyond the last fence. -/
structure TimelineKept (s : FenceTimeline) : Prop where
  current : s.timelineCurrent = s.kernel
  current_le : s.timelineCurrent ≤ s.timeline
  squash_le : s.timelineSquashDone ≤ s.timeline
  preComp_le : s.timelinePreCompDone ≤ s.timeline

/-- What the fences of the layers keep in the runs in which they could be assigned. -/
structure FencesOrdered (users : FenceUsers) (s : FenceTimeline) : Prop where
  done_le : s.timelineSquashDone ≤ s.timelinePreCompDone
  has : ∀ i, users.hasReleaseFence i = false → s.releaseFence i = none
  squash_lt : ∀ i p, s.releaseFence i = some p →
    i ∈ users.preCompSources ∨ i ∈ users.compSources → s.timelineSquashDone < p
  preComp_lt : ∀ i p, s.releaseFence i = some p →
    i ∈ users.compSources → s.timelinePreCompDone < p
  framebuffer_lt : ∀ p ∈ s.framebufferFences, s.timelinePreCompDone < p

section Assign

variable {create : Int → Int} {users : FenceUsers} {squash preComp comp : IterationOrder}
  {s : FenceTimeline}

/-- A loop over a group keeps what the timeline keeps. -/
theorem AssignedFrom.timelineKept {hasReleaseFence : Nat → Bool} {l : List Nat}
    {s s' : FenceTimeline} {ret : Int} (h : AssignedFrom hasReleaseFence l s s' ret)
    (hs : TimelineKept s) : TimelineKept s' := by
  have hle := h.le
  rw [h.rest]
  exact ⟨hs.current, by have := hs.current_le; simp only; omega,
    by have := hs.squash_le; simp only; omega, by have := hs.preComp_le; simp only; omega⟩

/-- How assigning the fences goes: the loop over a group that fails is the last one. -/
theorem createAndAssignReleaseFences_cases :
    let result := createAndAssignReleaseFences create users squash preComp comp s
    ∃ ret₁ s₁, AssignedFrom users.hasReleaseFence (squash.order users.groups.squash) s s₁ ret₁ ∧
      (ret₁ < 0 ∧ result = (ret₁, s₁) ∨ 0 ≤ ret₁ ∧
        ∃ ret₂ s₂, AssignedFrom users.hasReleaseFence (preComp.order users.groups.preComp)
            { s₁ with timelineSquashDone := s₁.timeline } s₂ ret₂ ∧
          (ret₂ < 0 ∧ result = (ret₂, s₂) ∨ 0 ≤ ret₂ ∧
            ∃ ret₃ s₃, AssignedFrom users.hasReleaseFence (comp.order users.groups.comp)
                { s₂ with timelinePreCompDone := s₂.timeline } s₃ ret₃ ∧
              result = (ret₃, s₃))) := by
  intro result
  refine ⟨_, _, assignFences_spec create _ s, ?_⟩
  by_cases h₁ : (assignFences create users.hasReleaseFence
      (squash.order users.groups.squash) s).1 < 0
  · exact Or.inl ⟨h₁, if_pos h₁⟩
  · refine Or.inr ⟨not_lt.mp h₁, _, _, assignFences_spec create _ _, ?_⟩
    have hresult : result = _ := if_neg h₁
    rw [hresult]
    split
    · rename_i h₂
      exact Or.inl ⟨h₂, rfl⟩
    · rename_i h₂
      exact Or.inr ⟨not_lt.mp h₂, _, _, assignFences_spec create _ _, rfl⟩

/-- Assigning the fences keeps the timeline, whether it succeeds or not. -/
theorem createAndAssignReleaseFences_kept (hs : TimelineKept s) :
    TimelineKept (createAndAssignReleaseFences create users squash preComp comp s).2 ∧
    (createAndAssignReleaseFences create users squash preComp comp s).2.timelineCurrent =
      s.timelineCurrent := by
  obtain ⟨ret₁, s₁, hspec₁, ⟨_, h⟩ | ⟨_, ret₂, s₂, hspec₂, ⟨_, h⟩ | ⟨_, ret₃, s₃, hspec₃, h⟩⟩⟩ :=
    @createAndAssignReleaseFences_cases create users squash preComp comp s
  · rw [h]
    refine ⟨hspec₁.timelineKept hs, ?_⟩
    rw [hspec₁.rest]
  · have hs₁ := hspec₁.timelineKept hs
    rw [h]
    refine ⟨hspec₂.timelineKept ⟨hs₁.current, hs₁.current_le, le_refl _, hs₁.preComp_le⟩, ?_⟩
    rw [hspec₂.rest, hspec₁.rest]
  · have hs₁ := hspec₁.timelineKept hs
    have hs₂ := hspec₂.timelineKept ⟨hs₁.current, hs₁.current_le, le_refl _, hs₁.preComp_le⟩
    rw [h]
    refine ⟨hspec₃.timelineKept ⟨hs₂.current, hs₂.current_le, hs₂.squash_le, le_refl _⟩, ?_⟩
    rw [hspec₃.rest, hspec₂.rest, hspec₁.rest]

/-- When all three loops succeed, a layer has the fence of the last group that it is in. -/
theorem createAndAssignReleaseFences_ordered (hordered : FencesOrdered users s)
    (hret : (createAndAssignReleaseFences create users squash preComp comp s).1 = 0) :
    FencesOrdered users
      { (createAndAssignReleaseFences create users squash preComp comp s).2 with
        framebufferFences := [] } := by
  obtain ⟨ret₁, s₁, hspec₁, ⟨hneg, h⟩ | ⟨_, ret₂, s₂, hspec₂, ⟨hneg, h⟩ |
    ⟨hret₂, ret₃, s₃, hspec₃, h⟩⟩⟩ :=
    @createAndAssignReleaseFences_cases create users squash preComp comp s
  · rw [h] at hret
    simp only at hret
    omega
  · rw [h] at hret
    simp only at hret
    omega
  rw [h] at hret ⊢
  have hret₃ : ret₃ = 0 := hret
  have hsquash : s₃.timelineSquashDone = s₁.timeline := by
    rw [hspec₃.rest, hspec₂.rest]
  have hpre : s₃.timelinePreCompDone = s₂.timeline := by
    rw [hspec₃.rest]
  have hle : s₁.timeline ≤ s₂.timeline := hspec₂.le
  -- a layer on a plane has a point beyond that of pre-compositing
  have hcomp : ∀ i p, s₃.releaseFence i = some p → users.hasReleaseFence i = true →
      i ∈ users.compSources → s₂.timeline < p := by
    intro i p hp hhas hi
    obtain ⟨p', hp', hlt, _⟩ := hspec₃.assigned (by omega) i
      (comp.mem.mpr (FenceUsers.mem_comp.mpr hi)) hhas
    rw [hp] at hp'
    cases hp'
    exact hlt
  have hhas : ∀ i, users.hasReleaseFence i = false → s₃.releaseFence i = none := by
    intro i hi
    rw [hspec₃.kept i (Or.inr hi)]
    refine (hspec₂.kept i (Or.inr hi)).trans ?_
    rw [hspec₁.kept i (Or.inr hi)]
    exact hordered.has i hi
  have hsome : ∀ i p, s₃.releaseFence i = some p → users.hasReleaseFence i = true := by
    intro i p hp
    cases hi : users.hasReleaseFence i with
    | true => rfl
    | false =>
        rw [hhas i hi] at hp
        cases hp
  refine ⟨?_, hhas, fun i p hp hi => ?_, fun i p hp hi => ?_,
    fun p hp => absurd hp List.not_mem_nil⟩
  · simp only [hsquash, hpre]
    exact hle
  · simp only [hsquash]
    by_cases hplane : i ∈ users.compSources
    · have := hcomp i p hp (hsome i p hp) hplane
      omega
    · have hmem := FenceUsers.mem_preComp.mpr ⟨hi.resolve_right hplane, hplane⟩
      obtain ⟨p', hp', hlt, _⟩ := hspec₂.assigned hret₂ i (preComp.mem.mpr hmem) (hsome i p hp)
      have hsame : s₃.releaseFence i = s₂.releaseFence i :=
        hspec₃.kept i (Or.inl fun hm => hplane (FenceUsers.mem_comp.mp (comp.mem.mp hm)))
      rw [show s₃.releaseFence i = some p from hp, hp'] at hsame
      cases hsame
      exact hlt
  · simp only [hpre]
    exact hcomp i p hp (hsome i p hp) hi

end Assign

/-! ## Signalling -/

/-- An increment moves the timeline to its point, or changes nothing. -/
theorem increaseTimelineToPoint_cases (inc point : Int) (s : FenceTimeline) :
    increaseTimelineToPoint inc point s = s ∨
    s.timelineCurrent < point ∧ increaseTimelineToPoint inc point s =
      { s with kernel := s.kernel + (point - s.timelineCurrent), timelineCurrent := point } := by
  unfold increaseTimelineToPoint
  by_cases hle : point - s.timelineCurrent ≤ 0
  · exact Or.inl (if_pos hle)
  · by_cases hinc : inc ≠ 0
    · exact Or.inl ((if_neg hle).trans (if_pos hinc))
    · exact Or.inr ⟨by omega, (if_neg hle).trans (if_neg hinc)⟩

theorem increaseTimelineToPoint_kept {inc point : Int} {s : FenceTimeline} (hs : TimelineKept s)
    (hpoint : point ≤ s.timeline) :
    TimelineKept (increaseTimelineToPoint inc point s) ∧
    s.timelineCurrent ≤ (increaseTimelineToPoint inc point s).timelineCurrent := by
  obtain heq | ⟨hlt, heq⟩ := increaseTimelineToPoint_cases inc point s
  · rw [heq]
    exact ⟨hs, le_refl _⟩
  · have hcurrent := hs.current
    rw [heq]
    exact ⟨⟨by simp only; omega, hpoint, hs.squash_le, hs.preComp_le⟩, by simp only; omega⟩

/-- An increment signals nothing beyond its point. -/
theorem le_of_increaseTimelineToPoint {inc point p : Int} {s : FenceTimeline}
    (hs : TimelineKept s) (h : (increaseTimelineToPoint inc point s).Signalled p) :
    s.Signalled p ∨ p ≤ point := by
  obtain heq | ⟨_, heq⟩ := increaseTimelineToPoint_cases inc point s
  · rw [heq] at h
    exact Or.inl h
  · have hcurrent := hs.current
    rw [heq, FenceTimeline.Signalled] at h
    exact Or.inr (by simp only at h; omega)

theorem increaseTimelineToPoint_ordered {users : FenceUsers} {inc point : Int} {s : FenceTimeline}
    (h : FencesOrdered users s) : FencesOrdered users (increaseTimelineToPoint inc point s) := by
  obtain heq | ⟨_, heq⟩ := increaseTimelineToPoint_cases inc point s
  · rw [heq]
    exact h
  · rw [heq]
    exact ⟨h.done_le, h.has, h.squash_lt, h.preComp_lt, h.framebuffer_lt⟩

/-! ## Steps -/

section Steps

variable {create : Int → Int} {users : FenceUsers} {s : FenceTimeline}

/-- A fence for a framebuffer is the next point of the timeline, if it can be created. -/
theorem fenceStep_framebufferFence :
    ∃ fences, fenceStep create users s .framebufferFence =
      { s with timeline := s.timeline + 1, framebufferFences := fences } ∧
      ∀ p ∈ fences, p = s.timeline + 1 ∨ p ∈ s.framebufferFences := by
  by_cases hfd : create (s.timeline + 1) ≤ 0
  · exact ⟨_, if_pos hfd, fun p hp => Or.inr hp⟩
  · exact ⟨_, if_neg hfd, fun p hp => List.mem_cons.mp hp⟩

/-- Every event keeps the timeline, and none takes it back. -/
theorem fenceStep_kept (hs : TimelineKept s) (e : FenceEvent) :
    TimelineKept (fenceStep create users s e) ∧
    s.timelineCurrent ≤ (fenceStep create users s e).timelineCurrent := by
  cases e with
  | assign squash preComp comp =>
      obtain ⟨hkept, hcurrent⟩ :=
        @createAndAssignReleaseFences_kept create users squash preComp comp s hs
      exact ⟨⟨hkept.current, hkept.current_le, hkept.squash_le, hkept.preComp_le⟩,
        le_of_eq hcurrent.symm⟩
  | framebufferFence =>
      have hle := hs.current_le
      have hsquash := hs.squash_le
      have hpre := hs.preComp_le
      obtain ⟨fences, heq, _⟩ := @fenceStep_framebufferFence create users s
      rw [heq]
      exact ⟨⟨hs.current, by simp only; omega, by simp only; omega, by simp only; omega⟩,
        le_refl _⟩
  | squashDone inc => exact increaseTimelineToPoint_kept hs hs.squash_le
  | preCompDone inc => exact increaseTimelineToPoint_kept hs hs.preComp_le
  | compositionDone inc => exact increaseTimelineToPoint_kept hs (le_refl _)

/-- Every event keeps the order of the fences, if the release fences can be assigned. -/
theorem fenceStep_ordered (hs : TimelineKept s) (hordered : FencesOrdered users s)
    {e : FenceEvent} (hok : AssignSucceeds create users s e) :
    FencesOrdered users (fenceStep create users s e) := by
  cases e with
  | assign squash preComp comp => exact createAndAssignReleaseFences_ordered hordered hok
  | framebufferFence =>
      have hpre := hs.preComp_le
      obtain ⟨fences, heq, hfences⟩ := @fenceStep_framebufferFence create users s
      rw [heq]
      refine ⟨hordered.done_le, hordered.has, hordered.squash_lt, hordered.preComp_lt, ?_⟩
      intro p hp
      simp only
      cases hfences p hp with
      | inl heq => omega
      | inr hmem => exact hordered.framebuffer_lt p hmem
  | squashDone inc => exact increaseTimelineToPoint_ordered hordered
  | preCompDone inc => exact increaseTimelineToPoint_ordered hordered
  | compositionDone inc => exact increaseTimelineToPoint_ordered hordered

end Steps

/-! ## Runs -/

section Runs

variable {create : Int → Int} {users : FenceUsers} {s : FenceTimeline}

theorem reachable_timelineKept {ok : FenceTimeline → FenceEvent → Prop}
    (h : (fenceSystem create users).Reachable ok s) : TimelineKept s := by
  refine h.invariant ?_ ?_
  · rintro s rfl
    exact ⟨rfl, le_refl _, le_refl _, le_refl _⟩
  · intro s e s' hs _ hnext
    cases hnext
    exact (fenceStep_kept hs e).1

theorem reachable_fencesOrdered
    (h : (fenceSystem create users).Reachable (AssignSucceeds create users) s) :
    TimelineKept s ∧ FencesOrdered users s := by
  refine h.invariant (I := fun s => TimelineKept s ∧ FencesOrdered users s) ?_ ?_
  · rintro s rfl
    refine ⟨⟨rfl, le_refl _, le_refl _, le_refl _⟩, ⟨le_refl _, fun _ _ => rfl, ?_, ?_, ?_⟩⟩
    · exact fun i p hp => absurd hp (by simp [FenceTimeline.init])
    · exact fun i p hp => absurd hp (by simp [FenceTimeline.init])
    · exact fun p hp => absurd hp List.not_mem_nil
  · intro s e s' hs hok hnext
    cases hnext
    exact ⟨(fenceStep_kept hs.1 e).1, fenceStep_ordered hs.1 hs.2 hok⟩

/-- The event signals the fence of the point. -/
def SignalledBy (create : Int → Int) (users : FenceUsers) (s : FenceTimeline) (e : FenceEvent)
    (p : Int) : Prop :=
  ¬ s.Signalled p ∧ (fenceStep create users s e).Signalled p

/-- In every run the timeline follows that of the kernel, up to the last fence and never back.
In the runs in which the release fences could be assigned, the stages are in order; the fence
of a layer that is still used is not signalled by the stage before, and a fence that was then
created for a framebuffer is signalled only when the composition is done. -/
theorem fenceTimeline_runs (create : Int → Int) (users : FenceUsers) :
    (∀ s, (fenceSystem create users).Reachable (fun _ _ => True) s →
      s.timelineCurrent = s.kernel ∧ s.timelineCurrent ≤ s.timeline ∧
      ∀ e, s.timelineCurrent ≤ (fenceStep create users s e).timelineCurrent) ∧
    ∀ s, (fenceSystem create users).Reachable (AssignSucceeds create users) s →
      s.timelineSquashDone ≤ s.timelinePreCompDone ∧ s.timelinePreCompDone ≤ s.timeline ∧
      (∀ i p, s.releaseFence i = some p →
        (i ∈ users.preCompSources ∨ i ∈ users.compSources →
          ∀ inc, ¬ SignalledBy create users s (.squashDone inc) p) ∧
        (i ∈ users.compSources → ∀ inc, ¬ SignalledBy create users s (.preCompDone inc) p)) ∧
      ∀ p ∈ s.framebufferFences, ∀ e, SignalledBy create users s e p →
        ∃ inc, e = .compositionDone inc := by
  refine ⟨fun s h => ?_, fun s h => ?_⟩
  · have hs := reachable_timelineKept h
    exact ⟨hs.current, hs.current_le, fun e => (fenceStep_kept hs e).2⟩
  · obtain ⟨hs, hordered⟩ := reachable_fencesOrdered h
    refine ⟨hordered.done_le, hs.preComp_le, fun i p hp => ⟨fun hi inc hsig => ?_,
      fun hi inc hsig => ?_⟩, fun p hp e hsig => ?_⟩
    · have hlt := hordered.squash_lt i p hp hi
      have hle := (le_of_increaseTimelineToPoint hs hsig.2).resolve_left hsig.1
      omega
    · have hlt := hordered.preComp_lt i p hp hi
      have hle := (le_of_increaseTimelineToPoint hs hsig.2).resolve_left hsig.1
      omega
    · have hlt := hordered.framebuffer_lt p hp
      have hdone := hordered.done_le
      cases e with
      | assign squash preComp comp =>
          refine absurd ?_ hsig.1
          obtain ⟨hkept, hcurrent⟩ :=
            @createAndAssignReleaseFences_kept create users squash preComp comp s hs
          rw [FenceTimeline.Signalled, ← hs.current, ← hcurrent, hkept.current]
          exact hsig.2
      | framebufferFence =>
          refine absurd ?_ hsig.1
          obtain ⟨fences, heq, _⟩ := @fenceStep_framebufferFence create users s
          have hsignalled := hsig.2
          rw [heq] at hsignalled
          exact hsignalled
      | squashDone inc =>
          have hle := (le_of_increaseTimelineToPoint hs hsig.2).resolve_left hsig.1
          omega
      | preCompDone inc =>
          have hle := (le_of_increaseTimelineToPoint hs hsig.2).resolve_left hsig.1
          omega
      | compositionDone inc => exact ⟨inc, rfl⟩

end Runs

/-! ## A layer that is squashed and shown -/

/-- Two layers are squashed, and the layer 0 is also on a plane. -/
def squashedAndShown : FenceUsers where
  squashRegions := [⟨⟨0, 0, 4, 4⟩, [1, 0]⟩]
  preCompRegions := []
  compositionPlanes := [⟨.layer, ⟨1, .primary, 1#32⟩, some ⟨1, 0⟩, [0]⟩]
  hasReleaseFence := fun i => i < 2

/-- The elements in the order of the list. -/
def IterationOrder.inOrder : IterationOrder := ⟨id, fun l => List.Perm.refl l⟩

/-- The composition once its release fences are assigned. -/
def squashedAndShownFences : FenceTimeline :=
  fenceStep (fun _ => 5) squashedAndShown FenceTimeline.init (.assign .inOrder .inOrder .inOrder)

/-- The fence that the layer 0 has in the end is not that of the squash layers. -/
theorem squashedAndShown_fence :
    squashedAndShownFences.releaseFence 0 = some 3 ∧
    squashedAndShownFences.timelineSquashDone = 2 ∧
    ∀ inc, ¬ SignalledBy (fun _ => 5) squashedAndShown squashedAndShownFences
      (.squashDone inc) 3 := by
  have hfence : squashedAndShownFences.releaseFence 0 = some 3 := by decide
  have hreach : (fenceSystem (fun _ => 5) squashedAndShown).Reachable
      (AssignSucceeds (fun _ => 5) squashedAndShown) squashedAndShownFences := by
    refine System.Reachable.step (e := .assign .inOrder .inOrder .inOrder) (.start rfl) ?_ rfl
    show (createAndAssignReleaseFences _ _ _ _ _ _).1 = 0
    decide
  refine ⟨hfence, by decide, fun inc => ?_⟩
  have hlayer := ((fenceTimeline_runs (fun _ => 5) squashedAndShown).2 _ hreach).2.2.1 0 3 hfence
  exact hlayer.1 (Or.inr (by decide)) inc

end DragonDevice.Hwc
