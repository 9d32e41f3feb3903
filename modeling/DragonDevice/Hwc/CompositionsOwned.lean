/-
  Hwc/CompositionsOwned.lean --- where the compositions of a display are.

  In whatever order the threads take their steps, a composition has one owner until it is
  destroyed, and the frames go through both queues in the order in which they were accepted.
-/
import DragonDevice.Hwc.DisplayThreads
import Mathlib.Algebra.Ring.Nat

set_option autoImplicit false

namespace DragonDevice.Hwc

open DragonDevice.Lib

/-! ## Owners -/

/-- How often a composition is in a list. -/
def owns (l : List ThreadComposition) (id : Nat) : Nat := (l.map (·.id)).count id

@[simp] theorem owns_nil (id : Nat) : owns [] id = 0 := rfl

@[simp] theorem owns_append (l l' : List ThreadComposition) (id : Nat) :
    owns (l ++ l') id = owns l id + owns l' id := by
  unfold owns
  rw [List.map_append, List.count_append]

theorem owns_cons (c : ThreadComposition) (l : List ThreadComposition) (id : Nat) :
    owns (c :: l) id = owns [c] id + owns l id := owns_append [c] l id

theorem owns_singleton (c : ThreadComposition) (id : Nat) :
    owns [c] id = if id = c.id then 1 else 0 := by
  unfold owns
  rw [List.map_singleton, List.count_singleton]
  simp only [beq_iff_eq, eq_comm (a := id)]

theorem owns_eraseIdx {l : List ThreadComposition} {i : Nat} {c : ThreadComposition}
    (h : l[i]? = some c) (id : Nat) : owns (l.eraseIdx i) id + owns [c] id = owns l id := by
  obtain ⟨hi, hget⟩ := List.getElem?_eq_some_iff.mp h
  have hsplit : l = l.take i ++ c :: l.drop (i + 1) := by
    rw [← hget, List.getElem_cons_drop, List.take_append_drop]
  have herase : l.eraseIdx i = l.take i ++ l.drop (i + 1) := List.eraseIdx_eq_take_drop_succ l i
  have howns := congrArg (owns · id) hsplit
  simp only [owns_append] at howns
  rw [owns_cons c] at howns
  rw [herase, owns_append]
  omega

/-- The owners on display, with the compositions that are gone. -/
def Display.owners (d : Display) (id : Nat) : Nat :=
  owns d.active.toList id + d.destroyed.count id

theorem Display.owners_destroy (d : Display) (c : ThreadComposition) (id : Nat) :
    (d.destroy c).owners id = d.owners id + owns [c] id := by
  unfold Display.owners Display.destroy owns
  rw [List.count_append, List.map_singleton]
  exact (Nat.add_assoc _ _ _).symm

theorem Display.owners_clearDisplay (d : Display) (disablePlanes : Int) (id : Nat) :
    (d.clearDisplay disablePlanes).owners id = d.owners id := by
  unfold Display.clearDisplay
  split
  · rfl
  · rename_i c hactive
    split
    · rfl
    · have hdestroyed := d.owners_destroy c id
      unfold Display.owners at hdestroyed ⊢
      rw [hactive] at hdestroyed ⊢
      simp only [Option.toList_none, owns_nil, Option.toList_some] at hdestroyed ⊢
      have hsame : (d.destroy c).active = some c := hactive
      rw [hsame, Option.toList_some] at hdestroyed
      omega

/-- What `ApplyFrame` does with its composition: at the end it is on display, or gone. -/
theorem Display.owners_applyFrame {d : Display} {c : ThreadComposition} {status : Int}
    {phase : ApplyPhase} {step : ApplyStep} {result : Display × Option ApplyPhase}
    (h : d.applyFrame c status phase step = some result) (id : Nat) :
    result.1.owners id = d.owners id + if result.2 = none then owns [c] id else 0 := by
  cases step with
  | commit ret shown =>
      obtain ⟨-, rfl⟩ := guarded_eq_some h
      split
      · rfl
      · have hsome : ∀ p : ApplyPhase, (if some p = none then owns [c] id else 0) = 0 :=
          fun p => if_neg (Option.some_ne_none p)
        dsimp only
        rw [hsome]
        split
        · rfl
        · rfl
  | clear disablePlanes =>
      obtain ⟨-, rfl⟩ := guarded_eq_some h
      rw [if_pos rfl]
      dsimp only
      rw [Display.owners_destroy, Display.owners_clearDisplay]
  | signal =>
      obtain ⟨-, rfl⟩ := guarded_eq_some h
      dsimp only
      split <;> rfl
  | swap =>
      obtain ⟨-, rfl⟩ := guarded_eq_some h
      rw [if_pos rfl]
      dsimp only
      split
      · rename_i hactive
        unfold Display.owners
        rw [hactive]
        simp only [Option.toList_none, owns_nil, Option.toList_some]
        omega
      · rename_i active hactive
        have hdestroyed := d.owners_destroy active id
        unfold Display.owners at hdestroyed ⊢
        have hsame : (d.destroy active).active = some active := hactive
        rw [hsame] at hdestroyed
        rw [hactive] at hdestroyed ⊢
        simp only [Option.toList_some] at hdestroyed ⊢
        omega

/-- Whatever is gone has signalled its fences. -/
def Display.Signalled (d : Display) : Prop := ∀ id ∈ d.destroyed, id ∈ d.signalled

theorem Display.Signalled.destroy {d : Display} (h : d.Signalled) (c : ThreadComposition) :
    (d.destroy c).Signalled := by
  intro id hid
  obtain hid | hid := List.mem_append.mp hid
  · exact List.mem_append_left _ (h id hid)
  · exact List.mem_append_right _ hid

theorem Display.Signalled.clearDisplay {d : Display} (h : d.Signalled) (disablePlanes : Int) :
    (d.clearDisplay disablePlanes).Signalled := by
  unfold Display.clearDisplay
  split
  · exact h
  · rename_i c hactive
    split
    · exact h
    · exact h.destroy c

theorem Display.Signalled.applyFrame {d : Display} {c : ThreadComposition} {status : Int}
    {phase : ApplyPhase} {step : ApplyStep} {result : Display × Option ApplyPhase}
    (hd : d.Signalled) (h : d.applyFrame c status phase step = some result) :
    result.1.Signalled := by
  cases step with
  | commit ret shown =>
      obtain ⟨-, rfl⟩ := guarded_eq_some h
      split
      · exact hd
      · dsimp only
        split
        · exact hd
        · exact hd
  | clear disablePlanes =>
      obtain ⟨-, rfl⟩ := guarded_eq_some h
      exact (hd.clearDisplay disablePlanes).destroy c
  | signal =>
      obtain ⟨-, rfl⟩ := guarded_eq_some h
      dsimp only
      split
      · exact hd
      · exact fun id hid => List.mem_append_left _ (hd id hid)
  | swap =>
      obtain ⟨-, rfl⟩ := guarded_eq_some h
      dsimp only
      split
      · exact hd
      · rename_i active hactive
        exact hd.destroy active

/-! ## The invariant -/

/-- The compositor's worker has a composition. -/
def CompositorPhase.holds : CompositorPhase → Bool
  | .prepare => true
  | .clear => true
  | .queueFrame => true
  | .apply => true
  | _ => false

namespace DisplayThreads

def heldCompositions (s : DisplayThreads) : List ThreadComposition := s.held.toList.map Prod.fst

/-- What `FrameWorker` has, and what is queued for it. -/
def frameCompositions (s : DisplayThreads) : List ThreadComposition := s.frames.pending.map Prod.fst

/-- How often there is an owner of a composition, or it has been destroyed. -/
def owners (s : DisplayThreads) (id : Nat) : Nat :=
  owns s.queueing id + owns s.compositeQueue id + owns s.heldCompositions id +
    owns s.frameCompositions id + s.display.owners id

theorem owners_eq (s : DisplayThreads) (id : Nat) :
    s.owners id = owns s.queueing id + owns s.compositeQueue id +
      owns (s.held.toList.map Prod.fst) id + owns (s.frames.pending.map Prod.fst) id +
      s.display.owners id := rfl

/-- The number of a frame on its way from one queue to the other. -/
def toQueue (s : DisplayThreads) : List Nat :=
  if s.phase = .prepare ∨ s.phase = .queueFrame then s.heldCompositions.map (·.frameNo) else []

end DisplayThreads

/-- Each composition has one owner, and the queues keep the order. -/
structure Owned (s : DisplayThreads) : Prop where
  once : ∀ id, s.owners id = if id < s.nextId then 1 else 0
  signalled : s.display.Signalled
  frames : QueueWorker.Sound none s.frames
  running : s.frames.exit = .none
  idle : s.phase.holds = false → s.held = none
  status : s.phase = .queueFrame → ∀ c ∈ s.held, c.2 = 0
  statuses : ∀ c ∈ s.frames.pushed, c.2 = 0
  order : s.accepted = s.popped ++ s.compositeQueue
  bounded : s.compositeQueue.length ≤ drmDisplayCompositorMaxQueueDepth
  inOrder : (s.frames.pushed.map (·.1.frameNo) ++ s.toQueue).Sublist (s.popped.map (·.frameNo))

namespace Owned

variable {s s' : DisplayThreads}

theorem init : Owned .init where
  once id := (if_neg (Nat.not_lt_zero id)).symm
  signalled _ hid := absurd hid List.not_mem_nil
  frames := QueueWorker.sound_init _
  running := rfl
  idle _ := rfl
  status := CompositorPhase.noConfusion
  statuses _ hc := absurd hc List.not_mem_nil
  order := rfl
  bounded := Nat.zero_le _
  inOrder := List.Sublist.refl _

theorem toQueue_nil (h : Owned s) (hphase : s.phase.holds = false) : s.toQueue = [] := by
  unfold DisplayThreads.toQueue DisplayThreads.heldCompositions
  rw [h.idle hphase]
  exact ite_self _

/-- Another phase, in which the worker has nothing either. -/
theorem withPhase (h : Owned s) (hphase : s.phase.holds = false) {phase : CompositorPhase}
    (hholds : phase.holds = false) (signals : Nat) (didSquashAll : Bool) :
    Owned { s with phase := phase, signals := signals, didSquashAll := didSquashAll } where
  once := h.once
  signalled := h.signalled
  frames := h.frames
  running := h.running
  idle _ := h.idle hphase
  status := by
    rintro rfl
    cases hholds
  statuses := h.statuses
  order := h.order
  bounded := h.bounded
  inOrder := by
    have hnil := h.inOrder
    rw [h.toQueue_nil hphase, List.append_nil] at hnil
    unfold DisplayThreads.toQueue DisplayThreads.heldCompositions
    dsimp only
    rw [h.idle hphase, Option.toList_none, List.map_nil, List.map_nil, ite_self, List.append_nil]
    exact hnil

theorem notify (h : Owned s) (signals : Nat) : Owned { s.notify with signals := signals } := by
  unfold DisplayThreads.notify
  split
  · rename_i hwaiting
    refine h.withPhase ?_ rfl signals s.didSquashAll
    rw [hwaiting]
    rfl
  · exact { h with }

/-- The composition that the worker has is passed on, or destroyed. -/
theorem release (h : Owned s) {c : ThreadComposition × Int} (hheld : s.held = some c)
    {display : Display} (howners : ∀ id, display.owners id = s.display.owners id + owns [c.1] id)
    (hsignalled : display.Signalled) (didSquashAll : Bool) :
    Owned { s with
      display := display, held := none, phase := .routine, didSquashAll := didSquashAll } where
  once id := by
    have honce := h.once id
    simp only [DisplayThreads.owners_eq, hheld, howners, Option.toList_none, Option.toList_some,
      List.map_nil, List.map_singleton, owns_nil] at honce ⊢
    omega
  signalled := hsignalled
  frames := h.frames
  running := h.running
  idle _ := rfl
  status := CompositorPhase.noConfusion
  statuses := h.statuses
  order := h.order
  bounded := h.bounded
  inOrder := by
    refine List.Sublist.trans ?_ h.inOrder
    exact List.Sublist.append_left (List.nil_sublist _) _

/-- Something happens on display; nothing changes hands. -/
theorem withDisplay (h : Owned s) {display : Display}
    (howners : ∀ id, display.owners id = s.display.owners id) (hsignalled : display.Signalled) :
    Owned { s with display := display } :=
  { h with
    once := fun id => by
      have honce := h.once id
      simp only [DisplayThreads.owners_eq, howners] at honce ⊢
      exact honce
    signalled := hsignalled }

theorem queueComposition (h : Owned s) (type : DrmCompositionType) (frameNo : Nat)
    (dpmsOn geometryChanged : Bool) :
    Owned (s.queueComposition ⟨s.nextId, type, frameNo, dpmsOn, geometryChanged⟩) := by
  have hnew : ∀ id, s.owners id + (if id = s.nextId then 1 else 0) =
      if id < s.nextId + 1 then 1 else 0 := by
    intro id
    rw [h.once id]
    split <;> split <;> split <;> omega
  have hqueued : ∀ isActive, Owned { s with
      nextId := s.nextId + 1, isActive := isActive
      queueing := s.queueing ++ [⟨s.nextId, type, frameNo, dpmsOn, geometryChanged⟩] } :=
    fun isActive => { h with
      once := fun id => by
        rw [← hnew id]
        simp only [DisplayThreads.owners_eq, owns_append, owns_singleton]
        omega }
  have hdestroyed : Owned { s with
      nextId := s.nextId + 1
      display := s.display.destroy ⟨s.nextId, type, frameNo, dpmsOn, geometryChanged⟩ } :=
    { h with
      once := fun id => by
        rw [← hnew id]
        simp only [DisplayThreads.owners_eq, Display.owners_destroy, owns_singleton]
        omega
      signalled := h.signalled.destroy _ }
  unfold DisplayThreads.queueComposition
  cases type with
  | frame =>
      dsimp only
      split
      · exact hqueued s.isActive
      · exact hdestroyed
  | dpms => exact hqueued dpmsOn
  | modeset => exact hqueued s.isActive
  | empty => exact hdestroyed

theorem push (h : Owned s) {i : Nat} {c : ThreadComposition} (hget : s.queueing[i]? = some c)
    (hroom : s.compositeQueue.length < drmDisplayCompositorMaxQueueDepth) (signals : Nat) :
    Owned { s with
      queueing := s.queueing.eraseIdx i, compositeQueue := s.compositeQueue ++ [c]
      accepted := s.accepted ++ [c], signals := signals } :=
  { h with
    once := fun id => by
      have honce := h.once id
      have herase := owns_eraseIdx hget id
      simp only [DisplayThreads.owners_eq, owns_append] at honce ⊢
      omega
    order := by rw [h.order, List.append_assoc]
    bounded := by
      rw [List.length_append]
      exact hroom }

/-- `Composite` is left without a composition. -/
theorem composited (h : Owned s) (hheld : s.held = none) : Owned s.composited where
  once id := by
    have honce := h.once id
    simp only [DisplayThreads.owners_eq, hheld] at honce
    exact honce
  signalled := h.signalled
  frames := h.frames
  running := h.running
  idle _ := rfl
  status := CompositorPhase.noConfusion
  statuses := h.statuses
  order := h.order
  bounded := h.bounded
  inOrder := List.Sublist.trans (List.Sublist.append_left (List.nil_sublist _) _) h.inOrder

theorem composite (h : Owned s) (hphase : s.phase = .composite) (init : Int) :
    Owned (s.composite init) := by
  have hheld : s.held = none := h.idle (by rw [hphase]; rfl)
  unfold DisplayThreads.composite
  split
  · exact h.composited hheld
  · split
    · exact h.composited hheld
    · rename_i c rest hqueue
      exact
        { h with
          once := fun id => by
            have honce := h.once id
            simp only [DisplayThreads.owners_eq, hheld, hqueue, Option.toList_none,
              Option.toList_some, List.map_nil, List.map_singleton, owns_nil] at honce ⊢
            rw [owns_cons] at honce
            omega
          idle := Bool.noConfusion
          status := CompositorPhase.noConfusion
          order := by
            rw [h.order, hqueue, List.append_assoc]
            rfl
          bounded := by
            have hbounded := h.bounded
            rw [hqueue] at hbounded
            exact Nat.le_of_succ_le hbounded
          inOrder := by
            have hinOrder := h.inOrder
            rw [h.toQueue_nil (by rw [hphase]; rfl), List.append_nil] at hinOrder
            rw [List.map_append]
            exact hinOrder.append_right _ }

theorem prepare (h : Owned s) (hphase : s.phase = .prepare) {c : ThreadComposition × Int}
    (hheld : s.held = some c) (outcomes : CompositeOutcomes) :
    Owned (s.prepare c.1 outcomes) := by
  have hdestroyed : Owned { s.composited with display := s.display.destroy c.1 } :=
    h.release hheld (s.display.owners_destroy c.1) (h.signalled.destroy c.1) false
  have hnumber : s.toQueue = [c.1.frameNo] := by
    unfold DisplayThreads.toQueue DisplayThreads.heldCompositions
    rw [if_pos (Or.inl hphase), hheld]
    rfl
  have hnumbers := h.inOrder
  rw [hnumber] at hnumbers
  have hqueue : ∀ useHwOverlays, Owned { s with
      useHwOverlays := useHwOverlays, held := some (c.1, 0), phase := .queueFrame } :=
    fun useHwOverlays => { h with
      once := fun id => by
        have honce := h.once id
        simp only [DisplayThreads.owners_eq, hheld] at honce ⊢
        exact honce
      idle := Bool.noConfusion
      status := fun _ c' hc' => by
        cases hc'
        rfl
      inOrder := hnumbers }
  unfold DisplayThreads.prepare
  dsimp only
  split
  · exact hdestroyed
  split
  · exact hdestroyed
  rename_i hframe hprepared
  -- the test of the commit decides, and its result is 0 where the frame is queued as it is
  have hcases : ∀ ret useHwOverlays, (useHwOverlays = true → ret = 0) →
      Owned (if useHwOverlays = true then
          { s with useHwOverlays := useHwOverlays, held := some (c.1, ret), phase := .queueFrame }
        else if outcomes.squashFrame ≠ 0 then
          { s with useHwOverlays := useHwOverlays, phase := .clear }
        else
          { s with
            useHwOverlays := useHwOverlays, nextId := s.nextId + 1
            display := s.display.destroy c.1
            held := some (s.squashed c.1, outcomes.squashFrame), phase := .queueFrame }) := by
    intro ret useHwOverlays hret
    split
    · rename_i huse
      rw [hret huse]
      exact hqueue useHwOverlays
    · split
      · exact { h with
          idle := Bool.noConfusion
          status := CompositorPhase.noConfusion
          inOrder := List.Sublist.trans
            (List.Sublist.append_left (List.nil_sublist _) _) h.inOrder }
      · rename_i hsquash
        exact { h with
          once := fun id => by
            have honce := h.once id
            simp only [DisplayThreads.owners_eq, hheld, Display.owners_destroy,
              Option.toList_some, List.map_singleton, owns_singleton,
              DisplayThreads.squashed] at honce ⊢
            split at honce <;> split <;> split <;> split at honce <;> omega
          signalled := h.signalled.destroy c.1
          idle := Bool.noConfusion
          status := fun _ c' hc' => by
            cases hc'
            exact not_not.mp hsquash
          inOrder := hnumbers }
  split
  · exact hcases _ _ fun huse => of_decide_eq_true huse
  · exact hcases _ _ fun _ => not_not.mp hprepared

theorem queueFrame (h : Owned s) (hphase : s.phase = .queueFrame) {c : ThreadComposition × Int}
    (hheld : s.held = some c) {frames : QueueWorker.State (ThreadComposition × Int)}
    (hpush : QueueWorker.next none s.frames (.push c) = some frames) :
    Owned { s with frames := frames, held := none, phase := .signalFrame } := by
  have hsound := h.frames.next hpush
  obtain rfl := QueueWorker.push_eq_some hpush
  have hnumber : s.toQueue = [c.1.frameNo] := by
    unfold DisplayThreads.toQueue DisplayThreads.heldCompositions
    rw [if_pos (Or.inr hphase), hheld]
    rfl
  exact
    { h with
      once := fun id => by
        have honce := h.once id
        simp only [DisplayThreads.owners_eq, QueueWorker.State.pending, hheld,
          Option.toList_none, Option.toList_some, List.map_append, List.map_nil,
          List.map_singleton, owns_append, owns_nil] at honce ⊢
        omega
      frames := hsound
      idle := fun _ => rfl
      status := CompositorPhase.noConfusion
      statuses := fun c' hc' => by
        obtain hc' | hc' := List.mem_append.mp hc'
        · exact h.statuses c' hc'
        · rw [List.mem_singleton.mp hc']
          exact h.status hphase c hheld
      inOrder := by
        have hinOrder := h.inOrder
        rw [hnumber] at hinOrder
        have hnil : ({ s with
            frames := { s.frames with
              queue := s.frames.queue ++ [c], signals := s.frames.signals + 1
              pushed := s.frames.pushed ++ [c] }
            held := none, phase := .signalFrame } : DisplayThreads).toQueue = [] := rfl
        rw [hnil, List.append_nil]
        simp only [List.map_append, List.map_singleton]
        exact hinOrder }

/-- `FrameWorker` goes on, and keeps what it has. -/
theorem withFrames (h : Owned s) {frames : QueueWorker.State (ThreadComposition × Int)}
    {e : QueueWorker.Event (ThreadComposition × Int)}
    (hnext : QueueWorker.next none s.frames e = some frames) (hpush : ∀ c, e ≠ .push c)
    (hfinish : e ≠ .finish) (hrequest : e ≠ .requestExit) (framePhase : ApplyPhase) :
    Owned { s with frames := frames, framePhase := framePhase } := by
  obtain ⟨hpending, hpushed⟩ :=
    QueueWorker.pending_kept h.frames h.running hpush hfinish hnext
  exact
    { h with
      once := fun id => by
        have honce := h.once id
        simp only [DisplayThreads.owners_eq, hpending] at honce ⊢
        exact honce
      frames := h.frames.next hnext
      running := QueueWorker.exit_kept h.running hrequest hnext
      statuses := by
        rw [hpushed]
        exact h.statuses
      inOrder := by
        rw [hpushed]
        exact h.inOrder }

theorem squashAll (h : Owned s) (hphase : s.phase = .squashAll) (squashFrame : Int) :
    Owned (s.squashAll squashFrame) := by
  have hidle : s.phase.holds = false := by
    rw [hphase]
    rfl
  unfold DisplayThreads.squashAll
  split
  · exact h.withPhase hidle rfl s.signals true
  · split
    · exact h.withPhase hidle rfl s.signals true
    · rename_i c hactive hsquash
      exact
        { h with
          once := fun id => by
            have honce := h.once id
            simp only [DisplayThreads.owners_eq, h.idle hidle, Option.toList_none,
              Option.toList_some, List.map_nil, List.map_singleton, owns_nil, owns_singleton,
              DisplayThreads.squashed] at honce ⊢
            split at honce <;> split <;> split <;> omega
          idle := Bool.noConfusion
          status := CompositorPhase.noConfusion
          inOrder := List.Sublist.trans
            (List.Sublist.append_left (List.nil_sublist _) _) h.inOrder }

/-- `FrameWorker` has shown its frame, or given it up. -/
theorem finishFrame (h : Owned s) {c : ThreadComposition} {status : Int}
    (hitem : s.frames.item = some (c, status)) {display : Display}
    (howners : ∀ id, display.owners id = s.display.owners id + owns [c] id)
    (hsignalled : display.Signalled) {frames : QueueWorker.State (ThreadComposition × Int)}
    (hfinish : QueueWorker.next none s.frames .finish = some frames) :
    Owned { s with display := display, frames := frames, framePhase := .commit } := by
  have hsound := h.frames.next hfinish
  have hrunning := QueueWorker.exit_kept h.running (by simp) hfinish
  obtain ⟨-, rfl⟩ := guarded_eq_some hfinish
  exact
    { h with
      once := fun id => by
        have honce := h.once id
        simp only [DisplayThreads.owners_eq, QueueWorker.State.pending, hitem, howners,
          Option.toList_none, Option.toList_some, List.map_append, List.map_singleton,
          List.nil_append, owns_append] at honce ⊢
        omega
      signalled := hsignalled
      frames := hsound
      running := hrunning }

theorem apply (h : Owned s) {c : ThreadComposition × Int} (hheld : s.held = some c)
    {step : ApplyStep} {result : Display × Option ApplyPhase}
    (happly : s.display.applyFrame c.1 0 s.squashPhase step = some result) :
    Owned (match result.2 with
      | some phase => { s with display := result.1, squashPhase := phase }
      | none => { s with
          display := result.1, held := none, phase := .routine, didSquashAll := true }) := by
  have howners := Display.owners_applyFrame happly
  have hsignalled := h.signalled.applyFrame happly
  obtain ⟨display, next⟩ := result
  cases next with
  | some phase => exact { h.withDisplay howners hsignalled with }
  | none => exact h.release hheld howners hsignalled true

theorem compositorNext (h : Owned s) {e : CompositorEvent}
    (hnext : s.compositorNext e = some s') : Owned s' := by
  cases e with
  | haveQueuedComposites =>
      obtain ⟨hphase, rfl⟩ := guarded_eq_some hnext
      have hidle : s.phase.holds = false := by
        rw [hphase]
        rfl
      split
      · exact h.withPhase hidle rfl s.signals s.didSquashAll
      · exact h.withPhase hidle rfl s.signals s.didSquashAll
  | sleep =>
      obtain ⟨hphase, rfl⟩ := guarded_eq_some hnext
      exact h.withPhase (by rw [hphase]; rfl) rfl s.signals s.didSquashAll
  | wake =>
      obtain ⟨-, rfl⟩ := guarded_eq_some hnext
      exact h.notify s.signals
  | timeout =>
      obtain ⟨⟨hphase, -⟩, rfl⟩ := guarded_eq_some hnext
      exact h.withPhase (by rw [hphase]; rfl) rfl s.signals s.didSquashAll
  | composite init =>
      obtain ⟨hphase, rfl⟩ := guarded_eq_some hnext
      exact h.composite hphase init
  | prepare outcomes =>
      obtain ⟨hphase, hnext⟩ := Option.ite_none_right_eq_some.mp hnext
      obtain ⟨c, hheld, rfl⟩ := Option.map_eq_some_iff.mp hnext
      exact h.prepare hphase hheld outcomes
  | clear disablePlanes =>
      obtain ⟨-, hnext⟩ := Option.ite_none_right_eq_some.mp hnext
      obtain ⟨c, hheld, rfl⟩ := Option.map_eq_some_iff.mp hnext
      refine h.release hheld (fun id => ?_)
        ((h.signalled.clearDisplay disablePlanes).destroy c.1) false
      rw [Display.owners_destroy, Display.owners_clearDisplay]
  | queueFrame =>
      obtain ⟨hphase, hnext⟩ := Option.ite_none_right_eq_some.mp hnext
      obtain ⟨c, hheld, hnext⟩ := Option.bind_eq_some_iff.mp hnext
      obtain ⟨frames, hpush, rfl⟩ := Option.map_eq_some_iff.mp hnext
      exact h.queueFrame hphase hheld hpush
  | signalFrame =>
      obtain ⟨hphase, hnext⟩ := Option.ite_none_right_eq_some.mp hnext
      obtain ⟨frames, hsignal, rfl⟩ := Option.map_eq_some_iff.mp hnext
      have hframes := h.withFrames hsignal (by simp) (by simp) (by simp) s.framePhase
      exact hframes.composited (h.idle (by rw [hphase]; rfl))
  | squashAll squashFrame =>
      obtain ⟨hphase, rfl⟩ := guarded_eq_some hnext
      exact h.squashAll hphase squashFrame
  | apply step =>
      obtain ⟨-, hnext⟩ := Option.ite_none_right_eq_some.mp hnext
      obtain ⟨c, hheld, hnext⟩ := Option.bind_eq_some_iff.mp hnext
      obtain ⟨result, happly, rfl⟩ := Option.map_eq_some_iff.mp hnext
      exact h.apply hheld happly

theorem frameNext (h : Owned s) {e : FrameEvent} (hnext : s.frameNext e = some s') :
    Owned s' := by
  cases e with
  | check =>
      obtain ⟨frames, hframes, rfl⟩ := Option.map_eq_some_iff.mp hnext
      exact h.withFrames hframes (by simp) (by simp) (by simp) s.framePhase
  | look =>
      obtain ⟨frames, hframes, rfl⟩ := Option.map_eq_some_iff.mp hnext
      exact h.withFrames hframes (by simp) (by simp) (by simp) .commit
  | wake =>
      obtain ⟨frames, hframes, rfl⟩ := Option.map_eq_some_iff.mp hnext
      exact h.withFrames hframes (by simp) (by simp) (by simp) s.framePhase
  | resume =>
      obtain ⟨frames, hframes, rfl⟩ := Option.map_eq_some_iff.mp hnext
      exact h.withFrames hframes (by simp) (by simp) (by simp) .commit
  | apply step =>
      obtain ⟨-, hnext⟩ := Option.ite_none_right_eq_some.mp hnext
      cases hitem : s.frames.item with
      | none =>
          rw [hitem] at hnext
          cases hnext
          exact { h with }
      | some frame =>
          obtain ⟨c, status⟩ := frame
          rw [hitem] at hnext
          obtain ⟨⟨display, next⟩, happly, hnext⟩ := Option.bind_eq_some_iff.mp hnext
          have howners := Display.owners_applyFrame happly
          have hsignalled := h.signalled.applyFrame happly
          cases next with
          | some phase =>
              cases hnext
              exact { h.withDisplay howners hsignalled with }
          | none =>
              obtain ⟨frames, hfinish, rfl⟩ := Option.map_eq_some_iff.mp hnext
              exact h.finishFrame hitem howners hsignalled hfinish

theorem next (h : Owned s) {e : DisplayEvent} (hnext : displayNext s e = some s') :
    Owned s' := by
  obtain ⟨-, hnext⟩ := Option.ite_none_left_eq_some.mp hnext
  cases e with
  | queueComposition type frameNo dpmsOn geometryChanged =>
      cases hnext
      exact h.queueComposition type frameNo dpmsOn geometryChanged
  | push i =>
      obtain ⟨c, hget, hnext⟩ := Option.bind_eq_some_iff.mp hnext
      obtain ⟨hroom, rfl⟩ := guarded_eq_some hnext
      exact h.push hget hroom _
  | signal =>
      obtain ⟨-, rfl⟩ := guarded_eq_some hnext
      exact h.notify _
  | compositor e => exact h.compositorNext hnext
  | frame e => exact h.frameNext hnext

end Owned

/-! ## All runs -/

/-- However the threads interleave, each composition has exactly one owner until it is destroyed,
once, and then its fences have signalled; frames reach `FrameWorker` in the order in which they
were accepted, each once at most, and are taken by it in that order, always with status 0; the
queue holds two compositions at most. -/
theorem compositions_owned {s : DisplayThreads} (h : displaySystem.Reachable (fun _ _ => True) s) :
    (∀ id, s.owners id = if id < s.nextId then 1 else 0) ∧
      (∀ id ∈ s.display.destroyed, id ∈ s.display.signalled) ∧
      s.accepted = s.popped ++ s.compositeQueue ∧
      (s.frames.pushed.map (·.1.frameNo)).Sublist (s.popped.map (·.frameNo)) ∧
      s.frames.pushed = s.frames.taken ++ s.frames.queue ∧
      (∀ c ∈ s.frames.pushed, c.2 = 0) ∧
      s.compositeQueue.length ≤ drmDisplayCompositorMaxQueueDepth := by
  have howned : Owned s :=
    h.invariant (fun _ hstart => hstart ▸ Owned.init) fun _ _ _ h _ hnext => h.next hnext
  exact ⟨howned.once, howned.signalled, howned.order,
    List.Sublist.trans (List.sublist_append_left _ _) howned.inOrder, howned.frames.order,
    howned.statuses, howned.bounded⟩

/-- The worker takes the next composition and hands it on as a frame, or gives it up. -/
def compositeEvents (outcomes : CompositeOutcomes) (frame : Bool) : List DisplayEvent :=
  [.push 0, .signal, .compositor .haveQueuedComposites, .compositor (.composite 0),
    .compositor (.prepare outcomes)] ++
    if frame then [.compositor .queueFrame, .compositor .signalFrame] else []

/-- The frame worker shows a frame. -/
def applyEvents : List DisplayEvent :=
  [.frame .check, .frame .look, .frame (.apply (.commit 0 true)), .frame (.apply .signal),
    .frame (.apply .swap)]

/-- A frame is refused while the display is off, and the display is turned on; then a frame is
shown, and another one is squashed and shown. -/
def twoFrames : List DisplayEvent :=
  [.queueComposition .frame 1 true false, .queueComposition .dpms 2 true false] ++
    compositeEvents ⟨0, 0, 0⟩ false ++
    .queueComposition .frame 3 true true :: compositeEvents ⟨0, 0, 0⟩ true ++ applyEvents ++
    .queueComposition .frame 4 true true :: compositeEvents ⟨0, -1, 0⟩ true ++ applyEvents

theorem compositions_owned_twoFrames :
    ∃ s, displaySystem.run (fun _ _ => True) twoFrames .init = some s ∧
      s.display.destroyed = [0, 1, 3, 2] ∧ s.frames.taken.map (·.1.frameNo) = [3, 4] ∧
      s.owners 2 = 1 ∧ s.owners 4 = 1 ∧
      (∀ id ∈ s.display.destroyed, id ∈ s.display.signalled) ∧
      (s.frames.pushed.map (·.1.frameNo)).Sublist (s.popped.map (·.frameNo)) := by
  have hrun : displaySystem.run (fun _ _ => True) twoFrames .init = some _ := rfl
  obtain ⟨honce, hsignalled, -, hsublist, -⟩ :=
    compositions_owned (System.Reachable.run (.start rfl) hrun)
  exact ⟨_, hrun, rfl, rfl, honce 2, honce 4, hsignalled, hsublist⟩

end DragonDevice.Hwc
