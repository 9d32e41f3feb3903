/-
  Hwc/Scanout.lean --- a composition's fences do not signal while it is scanned out.

  The frame worker and `SquashAll` both show compositions, and `Composite` clears the display
  when it cannot squash a frame.  As long as each of these finds the other threads done with the
  display, what is scanned out is known from where `ApplyFrame` is.  Otherwise the fences of a
  composition on the screen can signal.
-/
import DragonDevice.Hwc.CompositionsOwned

set_option autoImplicit false

namespace DragonDevice.Hwc

open DragonDevice.Lib

/-! ## Order -/

/-- `CommitFrame` returns 0 if and only if the kernel has carried out the commit. -/
def ApplyStep.honest : ApplyStep → Bool
  | .commit ret shown => shown == decide (ret = 0)
  | _ => true

/-- `SquashAll` begins when there is no frame to show, and `Composite` clears the display while no
frame takes the place of the active one. -/
def DisplayThreads.orderly (s : DisplayThreads) : DisplayEvent → Bool
  | .compositor (.squashAll _) => s.frames.pending.isEmpty
  | .compositor (.clear _) => s.framePhase != .signal && s.framePhase != .swap
  | .compositor (.apply step) => step.honest
  | .frame (.apply step) => step.honest
  | _ => true

/-! ## One thread -/

/-- What is on display while a thread is in `ApplyFrame` with a composition. -/
structure Display.Shows (d : Display) (c : Option ThreadComposition) (phase : ApplyPhase) :
    Prop where
  screen : d.screen = if phase = .signal ∨ phase = .swap then c else d.active
  signalled : ∀ id ∈ d.signalled,
    id ∈ d.destroyed ∨ (phase = .swap ∧ ∃ a ∈ d.active, a.id = id)

namespace Display.Shows

variable {d : Display} {c : Option ThreadComposition} {phase : ApplyPhase}

/-- Outside of `ApplyFrame`. -/
theorem of_active (hscreen : d.screen = d.active)
    (hsignalled : ∀ id ∈ d.signalled, id ∈ d.destroyed) : d.Shows c .commit :=
  ⟨hscreen, fun id hid => Or.inl (hsignalled id hid)⟩

theorem active (h : d.Shows c phase) (hsignal : phase ≠ .signal) (hswap : phase ≠ .swap) :
    d.screen = d.active ∧ ∀ id ∈ d.signalled, id ∈ d.destroyed := by
  refine ⟨?_, fun id hid => (h.signalled id hid).resolve_right fun hswapping => hswap hswapping.1⟩
  rw [h.screen]
  exact if_neg (not_or.mpr ⟨hsignal, hswap⟩)

theorem other (h : d.Shows c .commit) (c' : Option ThreadComposition) : d.Shows c' .commit :=
  of_active (h.active ApplyPhase.noConfusion ApplyPhase.noConfusion).1
    (h.active ApplyPhase.noConfusion ApplyPhase.noConfusion).2

theorem destroy (h : d.Shows c phase) (gone : ThreadComposition) :
    (d.destroy gone).Shows c phase := by
  refine ⟨h.screen, fun id hid => ?_⟩
  obtain hid | hid := List.mem_append.mp hid
  · exact (h.signalled id hid).imp_left (List.mem_append_left _)
  · exact Or.inl (List.mem_append_right _ hid)

theorem clearDisplay (h : d.Shows c phase) (hsignal : phase ≠ .signal) (hswap : phase ≠ .swap)
    (disablePlanes : Int) : (d.clearDisplay disablePlanes).Shows c phase := by
  obtain ⟨hscreen, hsignalled⟩ := h.active hsignal hswap
  unfold Display.clearDisplay
  split
  · exact h
  · rename_i active hactive
    split
    · exact h
    · refine ⟨?_, fun id hid => Or.inl ?_⟩
      · rw [hscreen, hactive, if_pos rfl, if_neg (not_or.mpr ⟨hsignal, hswap⟩)]
      · obtain hid | hid := List.mem_append.mp hid
        · exact List.mem_append_left _ (hsignalled id hid)
        · exact List.mem_append_right _ hid

/-- Each step of `ApplyFrame`. -/
theorem applyFrame {c : ThreadComposition} (h : d.Shows (some c) phase) {status : Int}
    {step : ApplyStep} (hhonest : step.honest = true) {result : Display × Option ApplyPhase}
    (happly : d.applyFrame c status phase step = some result) :
    result.1.Shows (some c) (result.2.getD .commit) := by
  cases step with
  | commit ret shown =>
      obtain ⟨rfl, rfl⟩ := guarded_eq_some happly
      obtain ⟨hscreen, hsignalled⟩ := h.active ApplyPhase.noConfusion ApplyPhase.noConfusion
      have hclear : d.Shows (some c) .clear := ⟨hscreen, fun id hid => Or.inl (hsignalled id hid)⟩
      split
      · exact hclear
      · have hshown : shown = decide (ret = 0) := eq_of_beq hhonest
        rw [hshown]
        by_cases hret : ret = 0
        · rw [decide_eq_true hret, if_pos rfl, if_neg (not_not.mpr hret)]
          exact ⟨rfl, fun id hid => Or.inl (hsignalled id hid)⟩
        · rw [decide_eq_false hret, if_neg Bool.false_ne_true, if_pos hret]
          exact hclear
  | clear disablePlanes =>
      obtain ⟨rfl, rfl⟩ := guarded_eq_some happly
      have hcleared := (h.clearDisplay ApplyPhase.noConfusion ApplyPhase.noConfusion
        disablePlanes).destroy c
      obtain ⟨hscreen, hsignalled⟩ :=
        hcleared.active ApplyPhase.noConfusion ApplyPhase.noConfusion
      exact of_active hscreen hsignalled
  | signal =>
      obtain ⟨rfl, rfl⟩ := guarded_eq_some happly
      have hscreen : d.screen = some c := h.screen
      have hgone : ∀ id ∈ d.signalled, id ∈ d.destroyed := fun id hid =>
        (h.signalled id hid).resolve_right fun hswapping => ApplyPhase.noConfusion hswapping.1
      dsimp only
      split
      · exact ⟨hscreen, fun id hid => Or.inl (hgone id hid)⟩
      · rename_i active hactive
        refine ⟨hscreen, fun id hid => ?_⟩
        obtain hid | hid := List.mem_append.mp hid
        · exact Or.inl (hgone id hid)
        · exact Or.inr ⟨rfl, active, hactive, (List.mem_singleton.mp hid).symm⟩
  | swap =>
      obtain ⟨rfl, rfl⟩ := guarded_eq_some happly
      have hscreen : d.screen = some c := h.screen
      dsimp only
      split
      · rename_i hnone
        refine of_active hscreen fun id hid => (h.signalled id hid).resolve_right ?_
        rintro ⟨-, a, ha, -⟩
        rw [hnone] at ha
        cases ha
      · rename_i active hactive
        refine of_active hscreen fun id hid => ?_
        obtain hid | hid := List.mem_append.mp hid
        · refine (h.signalled id hid).elim (List.mem_append_left _) ?_
          rintro ⟨-, a, ha, rfl⟩
          rw [hactive] at ha
          cases ha
          exact List.mem_append_right _ (List.mem_singleton_self _)
        · exact List.mem_append_right _ hid

end Display.Shows

/-! ## The threads together -/

/-- What is on display, for the one thread that may be in `ApplyFrame`. -/
structure OnScreen (s : DisplayThreads) : Prop where
  frame : s.phase ≠ .apply → s.display.Shows (s.frames.item.map Prod.fst) s.framePhase
  squash : s.phase = .apply →
    s.display.Shows (s.held.map Prod.fst) s.squashPhase ∧ s.frames.pending = []
  idle : s.frames.item = none → s.framePhase = .commit

namespace OnScreen

variable {s s' : DisplayThreads}

theorem init : OnScreen .init where
  frame _ := ⟨rfl, fun _ hid => absurd hid List.not_mem_nil⟩
  squash := CompositorPhase.noConfusion
  idle _ := rfl

/-- Something else changes in the compositor's worker. -/
theorem elsewhere (h : OnScreen s) (hphase : s.phase ≠ .apply) {d : Display}
    (hshows : s.display.Shows (s.frames.item.map Prod.fst) s.framePhase →
      d.Shows (s.frames.item.map Prod.fst) s.framePhase)
    (hdisplay : s'.display = d) (hframes : s'.frames.item = s.frames.item)
    (hframePhase : s'.framePhase = s.framePhase) (hphase' : s'.phase ≠ .apply) : OnScreen s' where
  frame _ := by
    rw [hdisplay, hframes, hframePhase]
    exact hshows (h.frame hphase)
  squash happly := absurd happly hphase'
  idle := by
    rw [hframes, hframePhase]
    exact h.idle

theorem queueComposition (h : OnScreen s) (c : ThreadComposition) :
    OnScreen (s.queueComposition c) := by
  have hdestroyed : OnScreen { s with
      nextId := s.nextId + 1, display := s.display.destroy c } :=
    ⟨fun hphase => (h.frame hphase).destroy c, fun hphase =>
      ⟨(h.squash hphase).1.destroy c, (h.squash hphase).2⟩, h.idle⟩
  unfold DisplayThreads.queueComposition
  dsimp only
  split
  · split
    · exact { h with }
    · exact hdestroyed
  · exact { h with }
  · exact { h with }
  · exact hdestroyed

theorem notify (h : OnScreen s) (signals : Nat) :
    OnScreen { s.notify with signals := signals } := by
  unfold DisplayThreads.notify
  split
  · rename_i hwaiting
    refine h.elsewhere (d := s.display) ?_ id rfl rfl rfl CompositorPhase.noConfusion
    rw [hwaiting]
    exact CompositorPhase.noConfusion
  · exact { h with }

theorem prepare (h : OnScreen s) (hphase : s.phase ≠ .apply) (c : ThreadComposition)
    (outcomes : CompositeOutcomes) : OnScreen (s.prepare c outcomes) := by
  have hdestroyed : OnScreen { s.composited with display := s.display.destroy c } :=
    h.elsewhere hphase (fun hshows => hshows.destroy c) rfl rfl rfl CompositorPhase.noConfusion
  have hcases : ∀ ret useHwOverlays, OnScreen (if useHwOverlays = true then
          { s with useHwOverlays := useHwOverlays, held := some (c, ret), phase := .queueFrame }
        else if outcomes.squashFrame ≠ 0 then
          { s with useHwOverlays := useHwOverlays, phase := .clear }
        else
          { s with
            useHwOverlays := useHwOverlays, nextId := s.nextId + 1
            display := s.display.destroy c
            held := some (s.squashed c, outcomes.squashFrame), phase := .queueFrame }) := by
    intro ret useHwOverlays
    split
    · exact h.elsewhere (d := s.display) hphase id rfl rfl rfl CompositorPhase.noConfusion
    · split
      · exact h.elsewhere (d := s.display) hphase id rfl rfl rfl CompositorPhase.noConfusion
      · exact h.elsewhere hphase (fun hshows => hshows.destroy c) rfl rfl rfl
          CompositorPhase.noConfusion
  unfold DisplayThreads.prepare
  dsimp only
  split
  · exact hdestroyed
  split
  · exact hdestroyed
  split
  · exact hcases _ _
  · exact hcases _ _

/-- `SquashAll` begins, and no frame is there to be shown. -/
theorem squashAll (h : OnScreen s) (hphase : s.phase = .squashAll)
    (hpending : s.frames.pending = []) (squashFrame : Int) :
    OnScreen (s.squashAll squashFrame) := by
  have hother : s.phase ≠ .apply := by
    rw [hphase]
    exact CompositorPhase.noConfusion
  unfold DisplayThreads.squashAll
  split
  · exact h.elsewhere (d := s.display) hother id rfl rfl rfl CompositorPhase.noConfusion
  · split
    · exact h.elsewhere (d := s.display) hother id rfl rfl rfl CompositorPhase.noConfusion
    · have hitem : s.frames.item = none :=
        Option.toList_eq_nil_iff.mp (List.append_eq_nil_iff.mp hpending).1
      have hshows := h.frame hother
      rw [h.idle hitem] at hshows
      exact ⟨fun happly => absurd rfl happly, fun _ => ⟨hshows.other _, hpending⟩, h.idle⟩

theorem apply (h : OnScreen s) (hphase : s.phase = .apply) {c : ThreadComposition × Int}
    (hheld : s.held = some c) {step : ApplyStep} (hhonest : step.honest = true)
    {result : Display × Option ApplyPhase}
    (happly : s.display.applyFrame c.1 0 s.squashPhase step = some result) :
    OnScreen (match result.2 with
      | some phase => { s with display := result.1, squashPhase := phase }
      | none => { s with
          display := result.1, held := none, phase := .routine, didSquashAll := true }) := by
  obtain ⟨hshows, hpending⟩ := h.squash hphase
  rw [hheld] at hshows
  have happlied := hshows.applyFrame hhonest happly
  obtain ⟨display, next⟩ := result
  cases next with
  | some phase =>
      refine ⟨fun hother => absurd hphase hother, fun _ => ⟨?_, hpending⟩, h.idle⟩
      rw [hheld]
      exact happlied
  | none =>
      have hitem : s.frames.item = none :=
        Option.toList_eq_nil_iff.mp (List.append_eq_nil_iff.mp hpending).1
      refine ⟨fun _ => ?_, CompositorPhase.noConfusion, h.idle⟩
      rw [h.idle hitem]
      exact happlied.other _

theorem compositorNext (h : OnScreen s) {e : CompositorEvent}
    (horderly : s.orderly (.compositor e) = true) (hnext : s.compositorNext e = some s') :
    OnScreen s' := by
  have hsame : ∀ {s' : DisplayThreads}, s.phase ≠ .apply → s'.display = s.display →
      s'.frames.item = s.frames.item → s'.framePhase = s.framePhase → s'.phase ≠ .apply →
      OnScreen s' := fun hphase hdisplay hframes hframePhase hphase' =>
    h.elsewhere hphase id hdisplay hframes hframePhase hphase'
  have hother : ∀ {phase : CompositorPhase}, s.phase = phase → phase ≠ .apply → s.phase ≠ .apply :=
    fun hphase hne => hphase ▸ hne
  cases e with
  | haveQueuedComposites =>
      obtain ⟨hphase, rfl⟩ := guarded_eq_some hnext
      refine hsame (hother hphase CompositorPhase.noConfusion) rfl rfl rfl ?_
      split
      · exact CompositorPhase.noConfusion
      · exact CompositorPhase.noConfusion
  | sleep =>
      obtain ⟨hphase, rfl⟩ := guarded_eq_some hnext
      exact hsame (hother hphase CompositorPhase.noConfusion) rfl rfl rfl
        CompositorPhase.noConfusion
  | wake =>
      obtain ⟨-, rfl⟩ := guarded_eq_some hnext
      exact h.notify s.signals
  | timeout =>
      obtain ⟨⟨hphase, -⟩, rfl⟩ := guarded_eq_some hnext
      exact hsame (hother hphase CompositorPhase.noConfusion) rfl rfl rfl
        CompositorPhase.noConfusion
  | composite init =>
      obtain ⟨hphase, rfl⟩ := guarded_eq_some hnext
      have hcomposite := hother hphase CompositorPhase.noConfusion
      unfold DisplayThreads.composite
      split
      · exact hsame hcomposite rfl rfl rfl CompositorPhase.noConfusion
      · split
        · exact hsame hcomposite rfl rfl rfl CompositorPhase.noConfusion
        · exact hsame hcomposite rfl rfl rfl CompositorPhase.noConfusion
  | prepare outcomes =>
      obtain ⟨hphase, hnext⟩ := Option.ite_none_right_eq_some.mp hnext
      obtain ⟨c, hheld, rfl⟩ := Option.map_eq_some_iff.mp hnext
      exact h.prepare (hother hphase CompositorPhase.noConfusion) c.1 outcomes
  | clear disablePlanes =>
      obtain ⟨hphase, hnext⟩ := Option.ite_none_right_eq_some.mp hnext
      obtain ⟨c, hheld, rfl⟩ := Option.map_eq_some_iff.mp hnext
      obtain ⟨hsignal, hswap⟩ := Bool.and_eq_true_iff.mp horderly
      exact h.elsewhere (hother hphase CompositorPhase.noConfusion)
        (fun hshows => (hshows.clearDisplay (bne_iff_ne.mp hsignal) (bne_iff_ne.mp hswap)
          disablePlanes).destroy c.1) rfl rfl rfl CompositorPhase.noConfusion
  | queueFrame =>
      obtain ⟨hphase, hnext⟩ := Option.ite_none_right_eq_some.mp hnext
      obtain ⟨c, hheld, hnext⟩ := Option.bind_eq_some_iff.mp hnext
      obtain ⟨frames, hpush, rfl⟩ := Option.map_eq_some_iff.mp hnext
      exact hsame (hother hphase CompositorPhase.noConfusion) rfl
        (QueueWorker.item_kept (by simp) (by simp) (by simp) hpush) rfl
        CompositorPhase.noConfusion
  | signalFrame =>
      obtain ⟨hphase, hnext⟩ := Option.ite_none_right_eq_some.mp hnext
      obtain ⟨frames, hsignal, rfl⟩ := Option.map_eq_some_iff.mp hnext
      exact hsame (hother hphase CompositorPhase.noConfusion) rfl
        (QueueWorker.item_kept (by simp) (by simp) (by simp) hsignal) rfl
        CompositorPhase.noConfusion
  | squashAll squashFrame =>
      obtain ⟨hphase, rfl⟩ := guarded_eq_some hnext
      exact h.squashAll hphase (List.isEmpty_iff.mp horderly) squashFrame
  | apply step =>
      obtain ⟨hphase, hnext⟩ := Option.ite_none_right_eq_some.mp hnext
      obtain ⟨c, hheld, hnext⟩ := Option.bind_eq_some_iff.mp hnext
      obtain ⟨result, happly, rfl⟩ := Option.map_eq_some_iff.mp hnext
      exact h.apply hphase hheld horderly happly

/-- `FrameWorker` is woken, or goes round its loop. -/
theorem withFrames (h : OnScreen s) (howned : Owned s)
    {frames : QueueWorker.State (ThreadComposition × Int)}
    {e : QueueWorker.Event (ThreadComposition × Int)} (he : e = .check ∨ e = .wake)
    (hnext : QueueWorker.next none s.frames e = some frames) :
    OnScreen { s with frames := frames } := by
  have hitem : frames.item = s.frames.item := by
    obtain rfl | rfl := he
    · exact QueueWorker.item_kept (by simp) (by simp) (by simp) hnext
    · exact QueueWorker.item_kept (by simp) (by simp) (by simp) hnext
  have hpending : frames.pending = s.frames.pending := by
    obtain rfl | rfl := he
    · exact (QueueWorker.pending_kept howned.frames howned.running (by simp) (by simp) hnext).1
    · exact (QueueWorker.pending_kept howned.frames howned.running (by simp) (by simp) hnext).1
  refine ⟨fun hphase => ?_, fun hphase => ?_, fun hnone => h.idle (hitem ▸ hnone)⟩
  · dsimp only
    rw [hitem]
    exact h.frame hphase
  · dsimp only
    rw [hpending]
    exact h.squash hphase

/-- `FrameWorker` looks at its queue. -/
theorem takeFrame (h : OnScreen s) (howned : Owned s)
    {frames : QueueWorker.State (ThreadComposition × Int)}
    {e : QueueWorker.Event (ThreadComposition × Int)} (he : e = .look ∨ e = .resume)
    (hnext : QueueWorker.next none s.frames e = some frames) :
    OnScreen { s with frames := frames, framePhase := .commit } := by
  have hitem := QueueWorker.item_eq_none howned.frames he hnext
  have hpending : frames.pending = s.frames.pending := by
    obtain rfl | rfl := he
    · exact (QueueWorker.pending_kept howned.frames howned.running (by simp) (by simp) hnext).1
    · exact (QueueWorker.pending_kept howned.frames howned.running (by simp) (by simp) hnext).1
  refine ⟨fun hphase => ?_, fun hphase => ?_, fun _ => rfl⟩
  · have hshows := h.frame hphase
    rw [h.idle hitem] at hshows
    exact hshows.other _
  · dsimp only
    rw [hpending]
    exact h.squash hphase

theorem frameNext (h : OnScreen s) (howned : Owned s) {e : FrameEvent}
    (horderly : s.orderly (.frame e) = true) (hnext : s.frameNext e = some s') : OnScreen s' := by
  cases e with
  | check =>
      obtain ⟨frames, hframes, rfl⟩ := Option.map_eq_some_iff.mp hnext
      exact h.withFrames howned (Or.inl rfl) hframes
  | look =>
      obtain ⟨frames, hframes, rfl⟩ := Option.map_eq_some_iff.mp hnext
      exact h.takeFrame howned (Or.inl rfl) hframes
  | wake =>
      obtain ⟨frames, hframes, rfl⟩ := Option.map_eq_some_iff.mp hnext
      exact h.withFrames howned (Or.inr rfl) hframes
  | resume =>
      obtain ⟨frames, hframes, rfl⟩ := Option.map_eq_some_iff.mp hnext
      exact h.takeFrame howned (Or.inr rfl) hframes
  | apply step =>
      obtain ⟨-, hnext⟩ := Option.ite_none_right_eq_some.mp hnext
      cases hitem : s.frames.item with
      | none =>
          rw [hitem] at hnext
          cases hnext
          exact { h with }
      | some frame =>
          obtain ⟨c, status⟩ := frame
          rw [hitem] at hnext
          -- with a frame to show, `SquashAll` is not in `ApplyFrame`
          have hphase : s.phase ≠ .apply := by
            intro happly
            have hpending := (h.squash happly).2
            rw [QueueWorker.State.pending, hitem] at hpending
            cases hpending
          have hshows := h.frame hphase
          rw [hitem] at hshows
          obtain ⟨⟨display, next⟩, happly, hnext⟩ := Option.bind_eq_some_iff.mp hnext
          have happlied := hshows.applyFrame horderly happly
          cases next with
          | some phase =>
              cases hnext
              refine ⟨fun _ => ?_, fun happly => absurd happly hphase, fun hnone => ?_⟩
              · dsimp only
                rw [hitem]
                exact happlied
              · rw [hitem] at hnone
                cases hnone
          | none =>
              obtain ⟨frames, hfinish, rfl⟩ := Option.map_eq_some_iff.mp hnext
              exact ⟨fun _ => happlied.other _, fun happly => absurd happly hphase, fun _ => rfl⟩

theorem next (h : OnScreen s) (howned : Owned s) {e : DisplayEvent}
    (horderly : s.orderly e = true) (hnext : displayNext s e = some s') : OnScreen s' := by
  obtain ⟨-, hnext⟩ := Option.ite_none_left_eq_some.mp hnext
  cases e with
  | queueComposition type frameNo dpmsOn geometryChanged =>
      cases hnext
      exact h.queueComposition _
  | push i =>
      obtain ⟨c, hget, hnext⟩ := Option.bind_eq_some_iff.mp hnext
      obtain ⟨-, rfl⟩ := guarded_eq_some hnext
      exact { h with }
  | signal =>
      obtain ⟨-, rfl⟩ := guarded_eq_some hnext
      exact h.notify _
  | compositor e => exact h.compositorNext horderly hnext
  | frame e => exact h.frameNext howned horderly hnext

end OnScreen

end DragonDevice.Hwc
