/-
  Hwc/ScanoutOrder.lean --- the screen never goes back to an older frame.

  The frames that are still to come are in the order in which they were accepted, and no older
  than what was shown last.  `SquashAll` shows the active frame once more.
-/
import DragonDevice.Hwc.Scanout

set_option autoImplicit false

namespace DragonDevice.Hwc

open DragonDevice.Lib

/-- A number can be repeated. -/
theorem pairwise_le_repeat {l rest : List Nat} {n : Nat}
    (h : (l ++ n :: rest).Pairwise (· ≤ ·)) : (l ++ n :: n :: rest).Pairwise (· ≤ ·) := by
  rw [List.pairwise_append, List.pairwise_cons] at h
  obtain ⟨hl, ⟨hn, hrest⟩, hcross⟩ := h
  rw [List.pairwise_append, List.pairwise_cons, List.pairwise_cons]
  refine ⟨hl, ⟨fun m hm => ?_, hn, hrest⟩, fun m hm k hk => ?_⟩
  · obtain rfl | hm := List.mem_cons.mp hm
    · exact Nat.le_refl _
    · exact hn m hm
  · obtain rfl | hk := List.mem_cons.mp hk
    · exact hcross m hm _ List.mem_cons_self
    · exact hcross m hm k hk

/-! ## What is shown, and what is to come -/

namespace DisplayThreads

def shown (s : DisplayThreads) : List Nat := s.display.committed.map (·.frameNo)

/-- The frames that have been accepted and may still be shown. -/
def coming (s : DisplayThreads) : List Nat :=
  s.frames.pending.map (·.1.frameNo) ++ s.toQueue ++ s.compositeQueue.map (·.frameNo)

end DisplayThreads

/-- Nothing shown is newer than what is to come. -/
structure ShownInOrder (s : DisplayThreads) : Prop where
  known : ∀ n ∈ s.shown ++ s.coming, n ∈ s.accepted.map (·.frameNo)
  sorted : (s.accepted.map (·.frameNo)).Pairwise (· ≤ ·) →
    (s.shown ++ s.coming).Pairwise (· ≤ ·)
  last : ∀ c ∈ s.display.screen, ∃ l, s.display.committed = l ++ [c]
  squash : s.phase = .apply → s.squashPhase = .commit →
    ∃ c ∈ s.held, ∃ a ∈ s.display.active, a.frameNo = c.1.frameNo

/-! ## What changes on display -/

/-- Nothing new is shown. -/
structure Display.Quiet (d d' : Display) : Prop where
  committed : d'.committed = d.committed
  screen : d'.screen = d.screen ∨ d'.screen = none

theorem Display.Quiet.refl (d : Display) : d.Quiet d := ⟨rfl, Or.inl rfl⟩

theorem Display.quiet_destroy {d d' : Display} (h : d.Quiet d') (c : ThreadComposition) :
    d.Quiet (d'.destroy c) := ⟨h.committed, h.screen⟩

theorem Display.quiet_clearDisplay (d : Display) (disablePlanes : Int) :
    d.Quiet (d.clearDisplay disablePlanes) := by
  unfold Display.clearDisplay
  split
  · exact .refl d
  · split
    · exact .refl d
    · refine ⟨rfl, ?_⟩
      dsimp only
      split
      · exact Or.inr rfl
      · exact Or.inl rfl

/-- `ApplyFrame` shows its composition at most, and goes on then. -/
theorem Display.applyFrame_cases {d : Display} {c : ThreadComposition} {status : Int}
    {phase : ApplyPhase} {step : ApplyStep} {result : Display × Option ApplyPhase}
    (h : d.applyFrame c status phase step = some result) :
    (d.Quiet result.1 ∧ result.2 ≠ some .commit) ∨
      (phase = .commit ∧ result.1 = d.commit c ∧
        ∃ next, result.2 = some next ∧ next ≠ .commit) := by
  cases step with
  | commit ret shown =>
      obtain ⟨hphase, rfl⟩ := guarded_eq_some h
      split
      · exact Or.inl ⟨.refl d, by simp⟩
      · have hne : (if ret ≠ 0 then ApplyPhase.clear else .signal) ≠ .commit := by
          split <;> simp
        dsimp only
        split
        · exact Or.inr ⟨hphase, rfl, _, rfl, hne⟩
        · exact Or.inl ⟨.refl d, fun heq => hne (Option.some.inj heq)⟩
  | clear disablePlanes =>
      obtain ⟨-, rfl⟩ := guarded_eq_some h
      exact Or.inl ⟨quiet_destroy (d.quiet_clearDisplay disablePlanes) c, by simp⟩
  | signal =>
      obtain ⟨-, rfl⟩ := guarded_eq_some h
      refine Or.inl ⟨?_, by simp⟩
      dsimp only
      split
      · exact .refl d
      · exact ⟨rfl, Or.inl rfl⟩
  | swap =>
      obtain ⟨-, rfl⟩ := guarded_eq_some h
      refine Or.inl ⟨?_, by simp⟩
      dsimp only
      split
      · exact ⟨rfl, Or.inl rfl⟩
      · exact ⟨rfl, Or.inl rfl⟩

namespace ShownInOrder

variable {s s' : DisplayThreads}

theorem init : ShownInOrder .init where
  known _ hn := absurd hn List.not_mem_nil
  sorted _ := List.Pairwise.nil
  last _ hc := absurd hc (Option.not_mem_none _)
  squash := CompositorPhase.noConfusion

/-- Nothing new is shown, and nothing new is to come. -/
theorem quiet (h : ShownInOrder s) (hquiet : s.display.Quiet s'.display)
    (hcoming : s'.coming.Sublist s.coming) (haccepted : s'.accepted = s.accepted)
    (hsquash : s'.phase = .apply → s'.squashPhase = .commit →
      ∃ c ∈ s'.held, ∃ a ∈ s'.display.active, a.frameNo = c.1.frameNo) : ShownInOrder s' := by
  have hshown : s'.shown = s.shown := by
    unfold DisplayThreads.shown
    rw [hquiet.committed]
  have hsublist : (s'.shown ++ s'.coming).Sublist (s.shown ++ s.coming) :=
    hshown ▸ hcoming.append_left _
  refine ⟨fun n hn => ?_, fun hsorted => ?_, fun c hc => ?_, hsquash⟩
  · rw [haccepted]
    exact h.known n (hsublist.subset hn)
  · rw [haccepted] at hsorted
    exact (h.sorted hsorted).sublist hsublist
  · rw [hquiet.committed]
    obtain hscreen | hscreen := hquiet.screen
    · rw [hscreen] at hc
      exact h.last c hc
    · rw [hscreen] at hc
      cases hc

/-- The frame that is next is shown, or the one that was shown last. -/
theorem commit (h : ShownInOrder s) {c : ThreadComposition}
    (hdisplay : s'.display = s.display.commit c) (hcoming : s'.coming = s.coming)
    (haccepted : s'.accepted = s.accepted)
    (hnext : (∃ rest, s.coming = c.frameNo :: rest) ∨ ∃ l, s.shown = l ++ [c.frameNo])
    (hsquash : s'.phase = .apply → s'.squashPhase ≠ .commit) : ShownInOrder s' := by
  have hshown : s'.shown = s.shown ++ [c.frameNo] := by
    unfold DisplayThreads.shown
    rw [hdisplay, Display.commit, List.map_append, List.map_singleton]
  refine ⟨fun n hn => ?_, fun hsorted => ?_, fun c' hc' => ?_,
    fun hphase hcommit => absurd hcommit (hsquash hphase)⟩
  · rw [haccepted]
    apply h.known
    rw [hshown, hcoming, List.append_assoc] at hn
    obtain hn | hn := List.mem_append.mp hn
    · exact List.mem_append_left _ hn
    · obtain rfl | hn := List.mem_cons.mp hn
      · obtain ⟨rest, hrest⟩ | ⟨l, hl⟩ := hnext
        · rw [hrest]
          exact List.mem_append_right _ List.mem_cons_self
        · rw [hl, List.append_assoc]
          exact List.mem_append_right _ List.mem_cons_self
      · exact List.mem_append_right _ hn
  · rw [haccepted] at hsorted
    have hbefore := h.sorted hsorted
    rw [hshown, hcoming, List.append_assoc]
    obtain ⟨rest, hrest⟩ | ⟨l, hl⟩ := hnext
    · rw [hrest] at hbefore ⊢
      exact pairwise_le_repeat hbefore
    · rw [hl, List.append_assoc] at hbefore ⊢
      exact pairwise_le_repeat hbefore
  · rw [hdisplay] at hc' ⊢
    cases hc'
    exact ⟨_, rfl⟩

/-- What is to come does not change with the worker's phase, unless a frame is given up. -/
theorem coming_sublist (hframes : s'.frames.pending = s.frames.pending)
    (hqueue : s'.compositeQueue = s.compositeQueue)
    (htoQueue : s'.toQueue = [] ∨ s'.toQueue = s.toQueue) : s'.coming.Sublist s.coming := by
  unfold DisplayThreads.coming
  rw [hframes, hqueue]
  apply List.Sublist.append_right
  apply List.Sublist.append_left
  obtain hnil | hsame := htoQueue
  · rw [hnil]
    exact List.nil_sublist _
  · rw [hsame]

/-- Another phase of the compositor's worker, in which it has no frame to queue. -/
theorem elsewhere (h : ShownInOrder s) (hquiet : s.display.Quiet s'.display)
    (hframes : s'.frames = s.frames) (hqueue : s'.compositeQueue = s.compositeQueue)
    (haccepted : s'.accepted = s.accepted) (htoQueue : s'.toQueue = [] ∨ s'.toQueue = s.toQueue)
    (hphase : s'.phase ≠ .apply) : ShownInOrder s' :=
  h.quiet hquiet (coming_sublist (congrArg _ hframes) hqueue htoQueue) haccepted
    fun happly => absurd happly hphase

theorem queueComposition (h : ShownInOrder s) (c : ThreadComposition) :
    ShownInOrder (s.queueComposition c) := by
  have hdestroyed : ShownInOrder { s with
      nextId := s.nextId + 1, display := s.display.destroy c } :=
    h.quiet (Display.quiet_destroy (.refl _) c) (List.Sublist.refl _) rfl h.squash
  unfold DisplayThreads.queueComposition
  dsimp only
  split
  · split
    · exact { h with }
    · exact hdestroyed
  · exact { h with }
  · exact { h with }
  · exact hdestroyed

theorem push (h : ShownInOrder s) (c : ThreadComposition) (queueing : List ThreadComposition)
    (signals : Nat) : ShownInOrder { s with
      queueing := queueing, compositeQueue := s.compositeQueue ++ [c]
      accepted := s.accepted ++ [c], signals := signals } := by
  have hcoming : ({ s with
      queueing := queueing, compositeQueue := s.compositeQueue ++ [c]
      accepted := s.accepted ++ [c], signals := signals } : DisplayThreads).coming =
      s.coming ++ [c.frameNo] := by
    unfold DisplayThreads.coming
    rw [List.map_append, ← List.append_assoc]
    rfl
  refine ⟨fun n hn => ?_, fun hsorted => ?_, h.last, h.squash⟩
  · rw [hcoming, ← List.append_assoc] at hn
    rw [List.map_append]
    obtain hn | hn := List.mem_append.mp hn
    · exact List.mem_append_left _ (h.known n hn)
    · exact List.mem_append_right _ hn
  · rw [List.map_append, List.pairwise_append] at hsorted
    obtain ⟨haccepted, -, hnew⟩ := hsorted
    rw [hcoming, ← List.append_assoc, List.pairwise_append]
    exact ⟨h.sorted haccepted, List.pairwise_singleton _ _, fun n hn => hnew n (h.known n hn)⟩

theorem notify (h : ShownInOrder s) (signals : Nat) :
    ShownInOrder { s.notify with signals := signals } := by
  unfold DisplayThreads.notify
  split
  · exact h.elsewhere (.refl _) rfl rfl rfl (Or.inl rfl) CompositorPhase.noConfusion
  · exact { h with }

theorem composite (h : ShownInOrder s) (init : Int) : ShownInOrder (s.composite init) := by
  have hcomposited : ShownInOrder s.composited :=
    h.elsewhere (.refl _) rfl rfl rfl (Or.inl rfl) CompositorPhase.noConfusion
  unfold DisplayThreads.composite
  split
  · exact hcomposited
  · split
    · exact hcomposited
    · rename_i c rest hqueue
      refine h.quiet (.refl _) ?_ rfl CompositorPhase.noConfusion
      -- the composition comes to the worker
      unfold DisplayThreads.coming
      rw [hqueue, List.map_cons, List.append_assoc, List.append_assoc]
      exact List.Sublist.append_left (List.sublist_append_right _ _) _

theorem prepare (h : ShownInOrder s) (hphase : s.phase = .prepare) {c : ThreadComposition × Int}
    (hheld : s.held = some c) (outcomes : CompositeOutcomes) :
    ShownInOrder (s.prepare c.1 outcomes) := by
  have hnumber : s.toQueue = [c.1.frameNo] := by
    unfold DisplayThreads.toQueue DisplayThreads.heldCompositions
    rw [if_pos (Or.inl hphase), hheld]
    rfl
  have hdestroyed : ShownInOrder { s.composited with display := s.display.destroy c.1 } :=
    h.elsewhere (Display.quiet_destroy (.refl _) c.1) rfl rfl rfl (Or.inl rfl)
      CompositorPhase.noConfusion
  have hcases : ∀ ret useHwOverlays, ShownInOrder (if useHwOverlays = true then
          { s with useHwOverlays := useHwOverlays, held := some (c.1, ret), phase := .queueFrame }
        else if outcomes.squashFrame ≠ 0 then
          { s with useHwOverlays := useHwOverlays, phase := .clear }
        else
          { s with
            useHwOverlays := useHwOverlays, nextId := s.nextId + 1
            display := s.display.destroy c.1
            held := some (s.squashed c.1, outcomes.squashFrame), phase := .queueFrame }) := by
    intro ret useHwOverlays
    split
    · exact h.elsewhere (.refl _) rfl rfl rfl (Or.inr hnumber.symm) CompositorPhase.noConfusion
    · split
      · exact h.elsewhere (.refl _) rfl rfl rfl (Or.inl rfl) CompositorPhase.noConfusion
      · exact h.elsewhere (Display.quiet_destroy (.refl _) c.1) rfl rfl rfl
          (Or.inr hnumber.symm) CompositorPhase.noConfusion
  unfold DisplayThreads.prepare
  dsimp only
  split
  · exact hdestroyed
  split
  · exact hdestroyed
  split
  · exact hcases _ _
  · exact hcases _ _

theorem queueFrame (h : ShownInOrder s) (hphase : s.phase = .queueFrame)
    {c : ThreadComposition × Int} (hheld : s.held = some c)
    {frames : QueueWorker.State (ThreadComposition × Int)}
    (hpush : QueueWorker.next none s.frames (.push c) = some frames) :
    ShownInOrder { s with frames := frames, held := none, phase := .signalFrame } := by
  obtain rfl := QueueWorker.push_eq_some hpush
  have hnumber : s.toQueue = [c.1.frameNo] := by
    unfold DisplayThreads.toQueue DisplayThreads.heldCompositions
    rw [if_pos (Or.inr hphase), hheld]
    rfl
  refine h.quiet (.refl _) ?_ rfl CompositorPhase.noConfusion
  unfold DisplayThreads.coming
  rw [hnumber]
  unfold QueueWorker.State.pending
  rw [← List.append_assoc, List.map_append]
  apply List.Sublist.append_right
  exact List.append_nil _ ▸ List.Sublist.refl _

theorem squashAll (h : ShownInOrder s) (squashFrame : Int) :
    ShownInOrder (s.squashAll squashFrame) := by
  unfold DisplayThreads.squashAll
  split
  · exact h.elsewhere (.refl _) rfl rfl rfl (Or.inl rfl) CompositorPhase.noConfusion
  · split
    · exact h.elsewhere (.refl _) rfl rfl rfl (Or.inl rfl) CompositorPhase.noConfusion
    · rename_i c hactive hsquash
      exact h.quiet (.refl _) (coming_sublist rfl rfl (Or.inl rfl)) rfl
        fun _ _ => ⟨_, rfl, c, hactive, rfl⟩

/-- `SquashAll` shows the active frame, which was shown last. -/
theorem apply (h : ShownInOrder s) (hscreen : OnScreen s) (hphase : s.phase = .apply)
    {c : ThreadComposition × Int} (hheld : s.held = some c) {step : ApplyStep}
    {result : Display × Option ApplyPhase}
    (happly : s.display.applyFrame c.1 0 s.squashPhase step = some result) :
    ShownInOrder (match result.2 with
      | some phase => { s with display := result.1, squashPhase := phase }
      | none => { s with
          display := result.1, held := none, phase := .routine, didSquashAll := true }) := by
  obtain ⟨display, next⟩ := result
  obtain ⟨hquiet, hne⟩ | ⟨hcommit, hshown, phase, rfl, hne⟩ := Display.applyFrame_cases happly
  · cases next with
    | some phase =>
        exact h.quiet hquiet (coming_sublist rfl rfl (Or.inr rfl)) rfl
          fun _ heq => absurd (congrArg some heq) hne
    | none =>
        exact h.quiet hquiet (coming_sublist rfl rfl (Or.inl rfl)) rfl CompositorPhase.noConfusion
  · have hlast : ∃ l, s.shown = l ++ [c.1.frameNo] := by
      obtain ⟨c', hc', a, ha, hsame⟩ := h.squash hphase hcommit
      rw [hheld] at hc'
      cases hc'
      have hshows := (hscreen.squash hphase).1
      rw [hcommit] at hshows
      have hactive := (hshows.active ApplyPhase.noConfusion ApplyPhase.noConfusion).1
      obtain ⟨l, hl⟩ := h.last a (hactive ▸ ha)
      refine ⟨l.map (·.frameNo), ?_⟩
      unfold DisplayThreads.shown
      rw [hl, List.map_append, List.map_singleton, hsame]
    exact h.commit hshown rfl rfl (Or.inr hlast) fun _ => hne

theorem compositorNext (h : ShownInOrder s) (hscreen : OnScreen s) (howned : Owned s)
    {e : CompositorEvent} (hnext : s.compositorNext e = some s') : ShownInOrder s' := by
  cases e with
  | haveQueuedComposites =>
      obtain ⟨hphase, rfl⟩ := guarded_eq_some hnext
      split
      · exact h.elsewhere (.refl _) rfl rfl rfl (Or.inl rfl) CompositorPhase.noConfusion
      · exact h.elsewhere (.refl _) rfl rfl rfl (Or.inl rfl) CompositorPhase.noConfusion
  | sleep =>
      obtain ⟨-, rfl⟩ := guarded_eq_some hnext
      exact h.elsewhere (.refl _) rfl rfl rfl (Or.inl rfl) CompositorPhase.noConfusion
  | wake =>
      obtain ⟨-, rfl⟩ := guarded_eq_some hnext
      exact h.notify s.signals
  | timeout =>
      obtain ⟨-, rfl⟩ := guarded_eq_some hnext
      exact h.elsewhere (.refl _) rfl rfl rfl (Or.inl rfl) CompositorPhase.noConfusion
  | composite init =>
      obtain ⟨-, rfl⟩ := guarded_eq_some hnext
      exact h.composite init
  | prepare outcomes =>
      obtain ⟨hphase, hnext⟩ := Option.ite_none_right_eq_some.mp hnext
      obtain ⟨c, hheld, rfl⟩ := Option.map_eq_some_iff.mp hnext
      exact h.prepare hphase hheld outcomes
  | clear disablePlanes =>
      obtain ⟨-, hnext⟩ := Option.ite_none_right_eq_some.mp hnext
      obtain ⟨c, -, rfl⟩ := Option.map_eq_some_iff.mp hnext
      exact h.elsewhere (Display.quiet_destroy (s.display.quiet_clearDisplay disablePlanes) c.1)
        rfl rfl rfl (Or.inl rfl) CompositorPhase.noConfusion
  | queueFrame =>
      obtain ⟨hphase, hnext⟩ := Option.ite_none_right_eq_some.mp hnext
      obtain ⟨c, hheld, hnext⟩ := Option.bind_eq_some_iff.mp hnext
      obtain ⟨frames, hpush, rfl⟩ := Option.map_eq_some_iff.mp hnext
      exact h.queueFrame hphase hheld hpush
  | signalFrame =>
      obtain ⟨-, hnext⟩ := Option.ite_none_right_eq_some.mp hnext
      obtain ⟨frames, hsignal, rfl⟩ := Option.map_eq_some_iff.mp hnext
      have hpending := (QueueWorker.pending_kept howned.frames howned.running (by simp) (by simp)
        hsignal).1
      exact h.quiet (.refl _) (coming_sublist hpending rfl (Or.inl rfl)) rfl
        CompositorPhase.noConfusion
  | squashAll squashFrame =>
      obtain ⟨-, rfl⟩ := guarded_eq_some hnext
      exact h.squashAll squashFrame
  | apply step =>
      obtain ⟨hphase, hnext⟩ := Option.ite_none_right_eq_some.mp hnext
      obtain ⟨c, hheld, hnext⟩ := Option.bind_eq_some_iff.mp hnext
      obtain ⟨result, happly, rfl⟩ := Option.map_eq_some_iff.mp hnext
      exact h.apply hscreen hphase hheld happly

/-- `FrameWorker` goes on, and keeps what it has. -/
theorem withFrames (h : ShownInOrder s) (howned : Owned s)
    {frames : QueueWorker.State (ThreadComposition × Int)}
    {e : QueueWorker.Event (ThreadComposition × Int)}
    (hnext : QueueWorker.next none s.frames e = some frames) (hpush : ∀ c, e ≠ .push c)
    (hfinish : e ≠ .finish) (framePhase : ApplyPhase) :
    ShownInOrder { s with frames := frames, framePhase := framePhase } :=
  h.quiet (.refl _) (coming_sublist (QueueWorker.pending_kept howned.frames howned.running hpush
    hfinish hnext).1 rfl (Or.inr rfl)) rfl h.squash

theorem frameNext (h : ShownInOrder s) (hscreen : OnScreen s) (howned : Owned s) {e : FrameEvent}
    (hnext : s.frameNext e = some s') : ShownInOrder s' := by
  cases e with
  | check =>
      obtain ⟨frames, hframes, rfl⟩ := Option.map_eq_some_iff.mp hnext
      exact h.withFrames howned hframes (by simp) (by simp) s.framePhase
  | look =>
      obtain ⟨frames, hframes, rfl⟩ := Option.map_eq_some_iff.mp hnext
      exact h.withFrames howned hframes (by simp) (by simp) .commit
  | wake =>
      obtain ⟨frames, hframes, rfl⟩ := Option.map_eq_some_iff.mp hnext
      exact h.withFrames howned hframes (by simp) (by simp) s.framePhase
  | resume =>
      obtain ⟨frames, hframes, rfl⟩ := Option.map_eq_some_iff.mp hnext
      exact h.withFrames howned hframes (by simp) (by simp) .commit
  | apply step =>
      obtain ⟨-, hnext⟩ := Option.ite_none_right_eq_some.mp hnext
      cases hitem : s.frames.item with
      | none =>
          rw [hitem] at hnext
          cases hnext
          exact { h with }
      | some frame =>
          obtain ⟨c, status⟩ := frame
          rw [hitem] at hnext
          have hfirst : ∃ rest, s.coming = c.frameNo :: rest := by
            unfold DisplayThreads.coming QueueWorker.State.pending
            rw [hitem]
            exact ⟨_, rfl⟩
          have hphase : s.phase ≠ .apply := by
            intro happly
            have hpending := (hscreen.squash happly).2
            rw [QueueWorker.State.pending, hitem] at hpending
            cases hpending
          obtain ⟨⟨display, next⟩, happly, hnext⟩ := Option.bind_eq_some_iff.mp hnext
          obtain ⟨hquiet, -⟩ | ⟨-, hshown, phase, rfl, -⟩ := Display.applyFrame_cases happly
          · cases next with
            | some phase =>
                cases hnext
                exact h.quiet hquiet (List.Sublist.refl _) rfl fun happly => absurd happly hphase
            | none =>
                obtain ⟨frames, hfinish, rfl⟩ := Option.map_eq_some_iff.mp hnext
                obtain ⟨-, rfl⟩ := guarded_eq_some hfinish
                refine h.quiet hquiet ?_ rfl fun happly => absurd happly hphase
                unfold DisplayThreads.coming QueueWorker.State.pending
                rw [hitem]
                exact List.sublist_cons_self _ _
          · -- the frame that is shown is still the worker's
            cases hnext
            exact h.commit hshown rfl rfl (Or.inl hfirst) fun happly => absurd happly hphase

theorem next (h : ShownInOrder s) (hscreen : OnScreen s) (howned : Owned s) {e : DisplayEvent}
    (hnext : displayNext s e = some s') : ShownInOrder s' := by
  obtain ⟨-, hnext⟩ := Option.ite_none_left_eq_some.mp hnext
  cases e with
  | queueComposition type frameNo dpmsOn geometryChanged =>
      cases hnext
      exact h.queueComposition _
  | push i =>
      obtain ⟨c, hget, hnext⟩ := Option.bind_eq_some_iff.mp hnext
      obtain ⟨-, rfl⟩ := guarded_eq_some hnext
      exact h.push c _ _
  | signal =>
      obtain ⟨-, rfl⟩ := guarded_eq_some hnext
      exact h.notify _
  | compositor e => exact h.compositorNext hscreen howned hnext
  | frame e => exact h.frameNext hscreen howned hnext

end ShownInOrder

/-! ## One owner -/

theorem owns_pos {l : List ThreadComposition} {c : ThreadComposition} (h : c ∈ l) :
    0 < owns l c.id := List.count_pos_iff.mpr (List.mem_map_of_mem h)

/-- What a worker has is neither active nor gone. -/
theorem Owned.apart {s : DisplayThreads} (h : Owned s) {c : ThreadComposition}
    (hc : c ∈ s.heldCompositions ∨ c ∈ s.frameCompositions) :
    c.id ∉ s.display.destroyed ∧ ∀ a ∈ s.display.active, a.id ≠ c.id := by
  have honce := h.once c.id
  have hworker : 0 < owns s.heldCompositions c.id + owns s.frameCompositions c.id := by
    obtain hc | hc := hc
    · have hpos := owns_pos hc
      omega
    · have hpos := owns_pos hc
      omega
  unfold DisplayThreads.owners Display.owners at honce
  refine ⟨fun hgone => ?_, fun a ha hsame => ?_⟩
  · have hcount := List.count_pos_iff.mpr hgone
    split at honce <;> omega
  · have hpos := owns_pos (Option.mem_toList.mpr ha)
    rw [hsame] at hpos
    split at honce <;> omega

theorem Owned.active_kept {s : DisplayThreads} (h : Owned s) {a : ThreadComposition}
    (ha : a ∈ s.display.active) : a.id ∉ s.display.destroyed := by
  intro hgone
  have honce := h.once a.id
  have hpos := owns_pos (Option.mem_toList.mpr ha)
  have hcount := List.count_pos_iff.mpr hgone
  unfold DisplayThreads.owners Display.owners at honce
  split at honce <;> omega

/-- What a thread shows has not signalled. -/
theorem Display.Shows.unsignalled {s : DisplayThreads} (howned : Owned s)
    {c : Option ThreadComposition} {phase : ApplyPhase} (h : s.display.Shows c phase)
    (hc : ∀ c' ∈ c, c' ∈ s.heldCompositions ∨ c' ∈ s.frameCompositions) :
    ∀ c' ∈ s.display.screen, c'.id ∉ s.display.signalled := by
  intro c' hc' hsignalled
  rw [h.screen] at hc'
  obtain hgone | ⟨hswap, a, ha, hsame⟩ := h.signalled _ hsignalled
  · split at hc'
    · exact (howned.apart (hc c' hc')).1 hgone
    · exact howned.active_kept hc' hgone
  · rw [if_pos (Or.inr hswap)] at hc'
    exact (howned.apart (hc c' hc')).2 a ha hsame

theorem OnScreen.unsignalled {s : DisplayThreads} (h : OnScreen s) (howned : Owned s) :
    ∀ c ∈ s.display.screen, c.id ∉ s.display.signalled := by
  by_cases hphase : s.phase = .apply
  · refine (h.squash hphase).1.unsignalled howned fun c hc => Or.inl ?_
    obtain ⟨held, hheld, rfl⟩ := Option.map_eq_some_iff.mp hc
    exact List.mem_map_of_mem (Option.mem_toList.mpr hheld)
  · refine (h.frame hphase).unsignalled howned fun c hc => Or.inr ?_
    obtain ⟨frame, hframe, rfl⟩ := Option.map_eq_some_iff.mp hc
    exact List.mem_map_of_mem (List.mem_append_left _ (Option.mem_toList.mpr hframe))

/-! ## All runs -/

/-- A composition is queued, and the compositor's worker is woken. -/
def queueEvents (type : DrmCompositionType) (frameNo : Nat) : List DisplayEvent :=
  [.queueComposition type frameNo true false, .push 0, .signal,
    .compositor .haveQueuedComposites, .compositor (.composite 0),
    .compositor (.prepare ⟨0, 0, 0⟩)]

/-- A frame comes to the frame worker. -/
def frameEvents (frameNo : Nat) : List DisplayEvent :=
  queueEvents .frame frameNo ++
    [.compositor .queueFrame, .compositor .signalFrame, .frame .check, .frame .look]

/-- The frame worker shows it. -/
def showEvents : List DisplayEvent :=
  [.frame (.apply (.commit 0 true)), .frame (.apply .signal), .frame (.apply .swap)]

/-- While the frame worker waits to commit the second frame, the first is squashed; the frame
worker goes first, and `SquashAll` takes its frame for the one that it has replaced. -/
def overlapEvents : List DisplayEvent :=
  queueEvents .dpms 0 ++ frameEvents 1 ++ showEvents ++ frameEvents 2 ++
    [.compositor .haveQueuedComposites, .compositor .sleep, .compositor .timeout,
      .compositor (.squashAll 0), .compositor (.apply (.commit 0 true))] ++ showEvents ++
    [.compositor (.apply .signal)]

/-- The frame worker is done with the second frame before `SquashAll` commits. -/
def staleEvents : List DisplayEvent :=
  queueEvents .dpms 0 ++ frameEvents 1 ++ showEvents ++ frameEvents 2 ++
    [.compositor .haveQueuedComposites, .compositor .sleep, .compositor .timeout,
      .compositor (.squashAll 0)] ++ showEvents ++ [.compositor (.apply (.commit 0 true))]

/-- As long as `SquashAll` begins with no frame to be shown, `Composite` clears the display while
no frame is taking its place, and `CommitFrame` tells whether it has committed: nothing on the
screen has signalled its fences, and the frames on the screen are in the order in which they were
accepted.  When `SquashAll` overlaps with a frame, the fences of the frame on the screen can
signal, and the screen can go back to an older frame. -/
theorem scanout_in_order :
    (∀ s, displaySystem.Reachable (fun s e => s.orderly e = true) s →
      (∀ c ∈ s.display.screen, c.id ∉ s.display.signalled) ∧
      ((s.accepted.map (·.frameNo)).Pairwise (· ≤ ·) → s.shown.Pairwise (· ≤ ·))) ∧
    (∃ s, displaySystem.run (fun _ _ => True) overlapEvents .init = some s ∧
      ∃ c ∈ s.display.screen, c.id ∈ s.display.signalled) ∧
    ∃ s, displaySystem.run (fun _ _ => True) staleEvents .init = some s ∧
      s.accepted.map (·.frameNo) = [0, 1, 2] ∧ s.shown = [1, 2, 1] := by
  refine ⟨fun s h => ?_, ⟨_, rfl, _, rfl, by decide⟩, ⟨_, rfl, rfl, rfl⟩⟩
  have hall : Owned s ∧ OnScreen s ∧ ShownInOrder s := by
    refine System.Reachable.invariant (I := fun s => Owned s ∧ OnScreen s ∧ ShownInOrder s)
      ?_ ?_ h
    · rintro _ rfl
      exact ⟨.init, .init, .init⟩
    · rintro _ _ _ ⟨howned, hscreen, hshown⟩ horderly hnext
      exact ⟨howned.next hnext, hscreen.next howned horderly hnext,
        hshown.next hscreen howned hnext⟩
  obtain ⟨howned, hscreen, hshown⟩ := hall
  exact ⟨hscreen.unsignalled howned, fun hsorted =>
    (hshown.sorted hsorted).sublist (List.sublist_append_left _ _)⟩

end DragonDevice.Hwc
