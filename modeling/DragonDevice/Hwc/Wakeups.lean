/-
  Hwc/Wakeups.lean --- when the threads of a display are woken.

  `DrmCompositorWorker` looks at the queue under another mutex than the one it sleeps with: a
  signal that comes in between is lost.  `FrameWorker` does not look at its queue again when it is
  woken: a signal that comes late, or no signal at all, has it show a frame that is not there.
-/
import DragonDevice.Hwc.CompositionsOwned

set_option autoImplicit false

namespace DragonDevice.Hwc

open DragonDevice.Lib

/-- A worker wakes up by itself. -/
def DisplayEvent.isSpurious : DisplayEvent → Bool
  | .compositor .wake => true
  | .frame .wake => true
  | _ => false

def DisplayEvent.isQueueComposition : DisplayEvent → Bool
  | .queueComposition _ _ _ _ => true
  | _ => false

/-- No signal comes between the look at the queue and the sleep, unless there is nothing to do or
there is another to come; and `FrameWorker` finds a frame when it is woken. -/
def DisplayThreads.careful (s : DisplayThreads) : DisplayEvent → Bool
  | .signal => s.phase != .sleep || s.compositeQueue.isEmpty || decide (1 < s.signals)
  | .frame .resume => !s.frames.queue.isEmpty
  | _ => true

/-! ## Careful runs -/

/-- Who sleeps has nothing to do, and who acts has a frame. -/
structure Awake (s : DisplayThreads) : Prop where
  queue : s.phase = .sleep ∨ s.phase = .waiting → s.compositeQueue = [] ∨ 0 < s.signals
  item : s.frames.phase = .acting → s.frames.item ≠ none
  crashed : s.crashed = false

namespace Awake

variable {s s' : DisplayThreads}

theorem init : Awake .init := ⟨fun _ => Or.inl rfl, QueueWorker.Phase.noConfusion, rfl⟩

/-- The compositor's worker is not about to sleep. -/
theorem busy (h : Awake s) (hframes : s'.frames = s.frames) (hcrashed : s'.crashed = s.crashed)
    (hsleep : s'.phase ≠ .sleep) (hwaiting : s'.phase ≠ .waiting) : Awake s' where
  queue hphase := absurd hphase (not_or.mpr ⟨hsleep, hwaiting⟩)
  item := by
    rw [hframes]
    exact h.item
  crashed := hcrashed.trans h.crashed

theorem queueComposition (h : Awake s) (c : ThreadComposition) :
    Awake (s.queueComposition c) := by
  unfold DisplayThreads.queueComposition
  dsimp only
  split
  · split
    · exact { h with }
    · exact { h with }
  · exact { h with }
  · exact { h with }
  · exact { h with }

theorem signal (h : Awake s) (hcareful : s.careful .signal = true) :
    Awake { s.notify with signals := s.signals - 1 } := by
  unfold DisplayThreads.notify
  split
  · exact h.busy rfl rfl CompositorPhase.noConfusion CompositorPhase.noConfusion
  · rename_i hwaiting
    refine ⟨fun hphase => ?_, h.item, h.crashed⟩
    have hsleep : s.phase = .sleep := hphase.resolve_right hwaiting
    unfold DisplayThreads.careful at hcareful
    rw [hsleep, Bool.or_eq_true, Bool.or_eq_true] at hcareful
    obtain (hne | hempty) | hmore := hcareful
    · cases hne
    · exact Or.inl (List.isEmpty_iff.mp hempty)
    · exact Or.inr (Nat.sub_pos_of_lt (of_decide_eq_true hmore))

theorem prepare (h : Awake s) (c : ThreadComposition) (outcomes : CompositeOutcomes) :
    Awake (s.prepare c outcomes) := by
  have hbusy : ∀ {s' : DisplayThreads}, s'.frames = s.frames → s'.crashed = s.crashed →
      s'.phase ≠ .sleep → s'.phase ≠ .waiting → Awake s' := h.busy
  have hcases : ∀ ret useHwOverlays, Awake (if useHwOverlays = true then
          { s with useHwOverlays := useHwOverlays, held := some (c, ret), phase := .queueFrame }
        else if outcomes.squashFrame ≠ 0 then
          { s with useHwOverlays := useHwOverlays, phase := .clear }
        else
          { s with
            useHwOverlays := useHwOverlays, nextId := s.nextId + 1
            display := s.display.destroy c
            held := some (s.squashed c, outcomes.squashFrame), phase := .queueFrame }) := by
    intro ret useHwOverlays
    split
    · exact hbusy rfl rfl CompositorPhase.noConfusion CompositorPhase.noConfusion
    · split
      · exact hbusy rfl rfl CompositorPhase.noConfusion CompositorPhase.noConfusion
      · exact hbusy rfl rfl CompositorPhase.noConfusion CompositorPhase.noConfusion
  unfold DisplayThreads.prepare
  dsimp only
  split
  · exact hbusy rfl rfl CompositorPhase.noConfusion CompositorPhase.noConfusion
  split
  · exact hbusy rfl rfl CompositorPhase.noConfusion CompositorPhase.noConfusion
  split
  · exact hcases _ _
  · exact hcases _ _

theorem compositorNext (h : Awake s) {e : CompositorEvent}
    (hnext : s.compositorNext e = some s') : Awake s' := by
  have hbusy : ∀ {s' : DisplayThreads}, s'.frames = s.frames → s'.crashed = s.crashed →
      s'.phase ≠ .sleep → s'.phase ≠ .waiting → Awake s' := h.busy
  cases e with
  | haveQueuedComposites =>
      obtain ⟨-, rfl⟩ := guarded_eq_some hnext
      split
      · rename_i hempty
        exact ⟨fun _ => Or.inl hempty, h.item, h.crashed⟩
      · exact hbusy rfl rfl CompositorPhase.noConfusion CompositorPhase.noConfusion
  | sleep =>
      obtain ⟨hphase, rfl⟩ := guarded_eq_some hnext
      exact ⟨fun _ => h.queue (Or.inl hphase), h.item, h.crashed⟩
  | wake =>
      obtain ⟨hphase, rfl⟩ := guarded_eq_some hnext
      unfold DisplayThreads.notify
      rw [if_pos hphase]
      exact hbusy rfl rfl CompositorPhase.noConfusion CompositorPhase.noConfusion
  | timeout =>
      obtain ⟨-, rfl⟩ := guarded_eq_some hnext
      exact hbusy rfl rfl CompositorPhase.noConfusion CompositorPhase.noConfusion
  | composite init =>
      obtain ⟨-, rfl⟩ := guarded_eq_some hnext
      unfold DisplayThreads.composite
      split
      · exact hbusy rfl rfl CompositorPhase.noConfusion CompositorPhase.noConfusion
      · split
        · exact hbusy rfl rfl CompositorPhase.noConfusion CompositorPhase.noConfusion
        · exact hbusy rfl rfl CompositorPhase.noConfusion CompositorPhase.noConfusion
  | prepare outcomes =>
      obtain ⟨-, hnext⟩ := Option.ite_none_right_eq_some.mp hnext
      obtain ⟨c, -, rfl⟩ := Option.map_eq_some_iff.mp hnext
      exact h.prepare c.1 outcomes
  | clear disablePlanes =>
      obtain ⟨-, hnext⟩ := Option.ite_none_right_eq_some.mp hnext
      obtain ⟨c, -, rfl⟩ := Option.map_eq_some_iff.mp hnext
      exact hbusy rfl rfl CompositorPhase.noConfusion CompositorPhase.noConfusion
  | queueFrame =>
      obtain ⟨-, hnext⟩ := Option.ite_none_right_eq_some.mp hnext
      obtain ⟨c, -, hnext⟩ := Option.bind_eq_some_iff.mp hnext
      obtain ⟨frames, hpush, rfl⟩ := Option.map_eq_some_iff.mp hnext
      obtain rfl := QueueWorker.push_eq_some hpush
      exact ⟨fun hphase => by simp at hphase, h.item, h.crashed⟩
  | signalFrame =>
      obtain ⟨-, hnext⟩ := Option.ite_none_right_eq_some.mp hnext
      obtain ⟨frames, hsignal, rfl⟩ := Option.map_eq_some_iff.mp hnext
      obtain ⟨-, rfl⟩ := guarded_eq_some hsignal
      exact ⟨fun hphase => by simp [DisplayThreads.composited] at hphase,
        fun hacting => h.item (QueueWorker.notified_eq_acting.mp hacting), h.crashed⟩
  | squashAll squashFrame =>
      obtain ⟨-, rfl⟩ := guarded_eq_some hnext
      unfold DisplayThreads.squashAll
      split
      · exact hbusy rfl rfl CompositorPhase.noConfusion CompositorPhase.noConfusion
      · split
        · exact hbusy rfl rfl CompositorPhase.noConfusion CompositorPhase.noConfusion
        · exact hbusy rfl rfl CompositorPhase.noConfusion CompositorPhase.noConfusion
  | apply step =>
      obtain ⟨hphase, hnext⟩ := Option.ite_none_right_eq_some.mp hnext
      obtain ⟨c, -, hnext⟩ := Option.bind_eq_some_iff.mp hnext
      obtain ⟨⟨display, next⟩, -, rfl⟩ := Option.map_eq_some_iff.mp hnext
      cases next with
      | some phase => exact ⟨fun hsleeps => by simp [hphase] at hsleeps, h.item, h.crashed⟩
      | none => exact hbusy rfl rfl CompositorPhase.noConfusion CompositorPhase.noConfusion

/-- A frame is taken from a queue that has one. -/
theorem take (h : Awake s) (hqueue : s.frames.queue ≠ []) (framePhase : ApplyPhase) :
    Awake { s with frames := s.frames.take .acting, framePhase := framePhase } where
  queue := h.queue
  item _ := by
    unfold QueueWorker.State.take
    dsimp only
    rw [if_pos rfl]
    exact List.head?_eq_none_iff.not.mpr hqueue
  crashed := h.crashed

theorem frameNext (h : Awake s) (howned : Owned s) {e : FrameEvent}
    (hcareful : s.careful (.frame e) = true) (hnext : s.frameNext e = some s') : Awake s' := by
  cases e with
  | check =>
      obtain ⟨frames, hframes, rfl⟩ := Option.map_eq_some_iff.mp hnext
      obtain ⟨-, rfl⟩ := guarded_eq_some hframes
      refine ⟨h.queue, fun hacting => ?_, h.crashed⟩
      dsimp only at hacting
      split at hacting
      · cases hacting
      · cases hacting
  | look =>
      obtain ⟨frames, hframes, rfl⟩ := Option.map_eq_some_iff.mp hnext
      obtain ⟨-, rfl⟩ := guarded_eq_some hframes
      split
      · refine ⟨h.queue, fun hacting => ?_, h.crashed⟩
        dsimp only at hacting
        split at hacting
        · cases hacting
        · cases hacting
      · rename_i hqueue
        exact h.take hqueue .commit
  | wake =>
      obtain ⟨frames, hframes, rfl⟩ := Option.map_eq_some_iff.mp hnext
      obtain ⟨-, rfl⟩ := guarded_eq_some hframes
      exact ⟨h.queue, QueueWorker.Phase.noConfusion, h.crashed⟩
  | resume =>
      obtain ⟨frames, hframes, rfl⟩ := Option.map_eq_some_iff.mp hnext
      obtain ⟨-, rfl⟩ := guarded_eq_some hframes
      rw [QueueWorker.shouldExit_eq_false.mpr howned.running, if_neg Bool.false_ne_true]
      refine h.take (fun hempty => ?_) .commit
      unfold DisplayThreads.careful at hcareful
      rw [hempty] at hcareful
      cases hcareful
  | apply step =>
      obtain ⟨hacting, hnext⟩ := Option.ite_none_right_eq_some.mp hnext
      cases hitem : s.frames.item with
      | none => exact absurd hitem (h.item hacting)
      | some frame =>
          obtain ⟨c, status⟩ := frame
          rw [hitem] at hnext
          obtain ⟨⟨display, next⟩, -, hnext⟩ := Option.bind_eq_some_iff.mp hnext
          cases next with
          | some phase =>
              cases hnext
              exact { h with }
          | none =>
              obtain ⟨frames, hfinish, rfl⟩ := Option.map_eq_some_iff.mp hnext
              obtain ⟨-, rfl⟩ := guarded_eq_some hfinish
              exact ⟨h.queue, QueueWorker.Phase.noConfusion, h.crashed⟩

theorem next (h : Awake s) (howned : Owned s) {e : DisplayEvent}
    (hcareful : s.careful e = true) (hnext : displayNext s e = some s') : Awake s' := by
  obtain ⟨-, hnext⟩ := Option.ite_none_left_eq_some.mp hnext
  cases e with
  | queueComposition type frameNo dpmsOn geometryChanged =>
      cases hnext
      exact h.queueComposition _
  | push i =>
      obtain ⟨c, -, hnext⟩ := Option.bind_eq_some_iff.mp hnext
      obtain ⟨-, rfl⟩ := guarded_eq_some hnext
      exact ⟨fun _ => Or.inr (Nat.succ_pos _), h.item, h.crashed⟩
  | signal =>
      obtain ⟨-, rfl⟩ := guarded_eq_some hnext
      exact h.signal hcareful
  | compositor e => exact h.compositorNext hnext
  | frame e => exact h.frameNext howned hcareful hnext

end Awake

/-! ## A lost signal -/

/-- The compositor's worker sleeps without a timeout, and nobody is about to wake it. -/
structure Stuck (s : DisplayThreads) : Prop where
  phase : s.phase = .waiting
  didSquashAll : s.didSquashAll = true
  signals : s.signals = 0
  queueing : s.queueing = []

theorem Stuck.next {s s' : DisplayThreads} {e : DisplayEvent} (h : Stuck s)
    (hnew : e.isQueueComposition = false) (hspurious : e.isSpurious = false)
    (hnext : displayNext s e = some s') : Stuck s' ∧ s'.compositeQueue = s.compositeQueue := by
  have hkept : ∀ {frames framePhase display crashed}, Stuck { s with
      frames := frames, framePhase := framePhase, display := display, crashed := crashed } :=
    ⟨h.phase, h.didSquashAll, h.signals, h.queueing⟩
  have hother : ∀ {phase : CompositorPhase}, s.phase = phase → phase = .waiting :=
    fun hphase => hphase.symm.trans h.phase
  obtain ⟨-, hnext⟩ := Option.ite_none_left_eq_some.mp hnext
  cases e with
  | queueComposition type frameNo dpmsOn geometryChanged => cases hnew
  | push i =>
      obtain ⟨c, hget, -⟩ := Option.bind_eq_some_iff.mp hnext
      rw [h.queueing] at hget
      cases hget
  | signal =>
      obtain ⟨hpos, -⟩ := guarded_eq_some hnext
      exact absurd h.signals (Nat.ne_of_gt hpos)
  | compositor e =>
      -- asleep, the worker can only be woken or reach its timeout
      cases e with
      | wake => cases hspurious
      | timeout =>
          obtain ⟨⟨-, hsquashed⟩, -⟩ := guarded_eq_some hnext
          rw [h.didSquashAll] at hsquashed
          cases hsquashed
      | haveQueuedComposites => cases hother (Option.ite_none_right_eq_some.mp hnext).1
      | sleep => cases hother (Option.ite_none_right_eq_some.mp hnext).1
      | composite init => cases hother (Option.ite_none_right_eq_some.mp hnext).1
      | prepare outcomes => cases hother (Option.ite_none_right_eq_some.mp hnext).1
      | clear disablePlanes => cases hother (Option.ite_none_right_eq_some.mp hnext).1
      | queueFrame => cases hother (Option.ite_none_right_eq_some.mp hnext).1
      | signalFrame => cases hother (Option.ite_none_right_eq_some.mp hnext).1
      | squashAll squashFrame => cases hother (Option.ite_none_right_eq_some.mp hnext).1
      | apply step => cases hother (Option.ite_none_right_eq_some.mp hnext).1
  | frame e =>
      cases e with
      | check =>
          obtain ⟨frames, -, rfl⟩ := Option.map_eq_some_iff.mp hnext
          exact ⟨hkept, rfl⟩
      | look =>
          obtain ⟨frames, -, rfl⟩ := Option.map_eq_some_iff.mp hnext
          exact ⟨hkept, rfl⟩
      | wake => cases hspurious
      | resume =>
          obtain ⟨frames, -, rfl⟩ := Option.map_eq_some_iff.mp hnext
          exact ⟨hkept, rfl⟩
      | apply step =>
          obtain ⟨-, hnext⟩ := Option.ite_none_right_eq_some.mp hnext
          cases hitem : s.frames.item with
          | none =>
              rw [hitem] at hnext
              cases hnext
              exact ⟨hkept, rfl⟩
          | some frame =>
              obtain ⟨c, status⟩ := frame
              rw [hitem] at hnext
              obtain ⟨⟨display, next⟩, -, hnext⟩ := Option.bind_eq_some_iff.mp hnext
              cases next with
              | some phase =>
                  cases hnext
                  exact ⟨hkept, rfl⟩
              | none =>
                  obtain ⟨frames, -, rfl⟩ := Option.map_eq_some_iff.mp hnext
                  exact ⟨hkept, rfl⟩

/-- What is queued stays there, until something else is queued. -/
theorem Stuck.run {events : List DisplayEvent} : ∀ {s s' : DisplayThreads}, Stuck s →
    (∀ e ∈ events, e.isQueueComposition = false ∧ e.isSpurious = false) →
    events.foldlM displayNext s = some s' → s'.compositeQueue = s.compositeQueue := by
  induction events with
  | nil =>
      intro s s' _ _ hrun
      cases hrun
      rfl
  | cons e events ih =>
      intro s s' h hevents hrun
      rw [List.foldlM_cons] at hrun
      obtain ⟨s₁, hnext, hrest⟩ := Option.bind_eq_some_iff.mp hrun
      obtain ⟨hnew, hspurious⟩ := hevents e List.mem_cons_self
      obtain ⟨h₁, hqueue⟩ := h.next hnew hspurious hnext
      rw [ih h₁ (fun e he => hevents e (List.mem_cons_of_mem _ he)) hrest, hqueue]

/-! ## All runs -/

/-- After a `SquashAll`, a composition is queued while the worker is about to sleep. -/
def lostEvents : List DisplayEvent :=
  [.compositor .haveQueuedComposites, .compositor .sleep, .compositor .timeout,
    .compositor (.squashAll 0), .compositor .haveQueuedComposites,
    .queueComposition .dpms 0 true false, .push 0, .signal, .compositor .sleep]

/-- The frame worker has shown a frame, and sleeps, before it is signalled for that frame. -/
def lateEvents : List DisplayEvent :=
  [.queueComposition .dpms 0 true false, .queueComposition .frame 1 true false, .push 1, .signal,
    .compositor .haveQueuedComposites, .compositor (.composite 0),
    .compositor (.prepare ⟨0, 0, 0⟩), .compositor .queueFrame, .frame .check, .frame .look,
    .frame (.apply (.commit 0 true)), .frame (.apply .signal), .frame (.apply .swap),
    .frame .check, .frame .look, .compositor .signalFrame, .frame .resume,
    .frame (.apply (.commit 0 true))]

/-- As long as no signal comes between the look at the queue and the sleep, and the frame worker
finds a frame when it is woken: a worker sleeps only when its queue is empty or it is about to be
signalled, and no frame is committed that is not there.  Without any spurious wakeup, a signal can
be lost, and then what is queued stays there until something else is queued; and a late signal
can have the frame worker commit a frame that is not there. -/
theorem display_wakeups :
    (∀ s, displaySystem.Reachable (fun s e => s.careful e = true) s →
      (s.phase = .waiting → s.compositeQueue = [] ∨ 0 < s.signals) ∧
      (s.frames.phase = .waiting → s.frames.queue = [] ∨ 0 < s.frames.signals) ∧
      s.crashed = false) ∧
    (∃ s, displaySystem.run (fun _ e => e.isSpurious = false) lostEvents .init = some s ∧
      s.compositeQueue ≠ [] ∧
      ∀ (events : List DisplayEvent) (s' : DisplayThreads),
        (∀ e ∈ events, e.isQueueComposition = false ∧ e.isSpurious = false) →
        events.foldlM displayNext s = some s' → s'.compositeQueue = s.compositeQueue) ∧
    ∃ s, displaySystem.run (fun _ e => e.isSpurious = false) lateEvents .init = some s ∧
      s.crashed = true := by
  refine ⟨fun s h => ?_, ⟨_, rfl, List.cons_ne_nil _ _, fun events s' hevents hrun => ?_⟩,
    ⟨_, rfl, rfl⟩⟩
  · have hall : Owned s ∧ Awake s := by
      refine System.Reachable.invariant (I := fun s => Owned s ∧ Awake s) ?_ ?_ h
      · rintro _ rfl
        exact ⟨.init, .init⟩
      · rintro _ _ _ ⟨howned, hawake⟩ hcareful hnext
        exact ⟨howned.next hnext, hawake.next howned hcareful hnext⟩
    exact ⟨fun hphase => hall.2.queue (Or.inr hphase), hall.1.frames.awake, hall.2.crashed⟩
  · exact Stuck.run ⟨rfl, rfl, rfl, rfl⟩ hevents hrun

end DragonDevice.Hwc
