/-
  Hwc/VirtualCompositor.lean --- frames for a virtual display, from `virtualcompositorworker.cpp`.

  `QueueComposite` gives the frame's buffers fences on a timeline and queues what is to be
  waited for; the worker waits and moves the timeline on.  Fences are known by their points,
  which are counted from 1.  The counters are not taken to overflow.  The destructor moves the
  timeline to its end, and the worker may still be running then; the two calls of
  `FinishComposition` are not taken to overlap.
-/
import DragonDevice.Lib.QueueWorker
import Mathlib.Algebra.Ring.Nat
import Mathlib.Algebra.Ring.Int.Defs

set_option autoImplicit false

namespace DragonDevice.Hwc

open DragonDevice.Lib

/-! ## Queueing -/

/-- `hwc_layer_1_t`, as far as it is used here. -/
structure VirtualLayer where
  skip : Bool
  acquireFenceFd : Int
  releaseFenceFd : Int
  deriving DecidableEq, Repr

/-- `hwc_display_contents_1_t` -/
structure VirtualContents where
  outbufAcquireFenceFd : Int
  retireFenceFd : Int
  hwLayers : List VirtualLayer
  deriving DecidableEq, Repr

/-- `VirtualComposition` -/
structure VirtualComposition where
  outbufAcquireFence : Int
  layerAcquireFences : List Int
  releaseTimeline : Nat
  deriving DecidableEq, Repr

/-- The loop over the layers, from a point of the timeline on.  `create` is what
`sw_sync_fence_create` returns for a point.  The descriptors that are closed are noted. -/
def fenceLayers (create : Nat → Int) : List VirtualLayer → Nat →
    List VirtualLayer × List Int × Nat × List Int
  | [], timeline => ([], [], timeline, [])
  | layer :: layers, timeline =>
      if layer.skip then
        let rest := fenceLayers create layers timeline
        (layer :: rest.1, rest.2)
      else
        let rest := fenceLayers create layers (timeline + 1)
        ({ layer with acquireFenceFd := -1, releaseFenceFd := create (timeline + 1) } :: rest.1,
          layer.acquireFenceFd :: rest.2.1, rest.2.2.1,
          if 0 ≤ layer.releaseFenceFd then layer.releaseFenceFd :: rest.2.2.2 else rest.2.2.2)

/-- What `QueueComposite` has made when it takes the lock. -/
structure Queued where
  contents : VirtualContents
  composition : VirtualComposition
  closed : List Int

/-- `QueueComposite`, up to where it takes the lock. -/
def queueComposite (create : Nat → Int) (dc : VirtualContents) (timeline : Nat) : Queued :=
  let layers := fenceLayers create dc.hwLayers (timeline + 1)
  { contents := ⟨-1, create (timeline + 1), layers.1⟩
    composition := ⟨dc.outbufAcquireFenceFd, layers.2.1, layers.2.2.1⟩
    closed := (if 0 ≤ dc.retireFenceFd then [dc.retireFenceFd] else []) ++ layers.2.2.2 }

/-! ## The worker -/

def kMaxQueueDepth : Nat := 3

/-- The members, and the point that the kernel's timeline is at. -/
structure VirtualState where
  worker : QueueWorker.State VirtualComposition
  /-- made by `QueueComposite`, and not in the queue yet -/
  made : Option VirtualComposition
  timeline : Nat
  timelineCurrent : Nat
  isOpen : Bool
  kernel : Nat
  /-- whose fences have been waited for -/
  composed : List VirtualComposition

def VirtualState.init : VirtualState := ⟨.init, none, 0, 0, true, 0, []⟩

/-- `FinishComposition`, with what `sw_sync_timeline_inc` does. -/
def VirtualState.finishComposition (s : VirtualState) (point : Nat) (inc : Bool) : VirtualState :=
  if (point : Int) - s.timelineCurrent ≤ 0 then s
  else if inc && s.isOpen then
    { s with timelineCurrent := point, kernel := s.kernel + (point - s.timelineCurrent) }
  else s

/-- The fences that `Compose` waits for, and whether all of the waits succeed. -/
def VirtualComposition.waits (c : VirtualComposition) (syncWait : Int → Bool) : Bool :=
  (c.outbufAcquireFence :: c.layerAcquireFences).all fun fd => decide (fd < 0) || syncWait fd

/-- `Compose` -/
def VirtualState.compose (s : VirtualState) (item : Option VirtualComposition)
    (syncWait : Int → Bool) (inc : Bool) : VirtualState :=
  match item with
  | none => s
  | some c =>
      if c.waits syncWait then
        { s with composed := s.composed ++ [c] }.finishComposition c.releaseTimeline inc
      else s

/-- What the threads do.  `QueueComposite` is called by one thread; its push and its signal are
events of the worker, and so is a request to exit. -/
inductive VirtualEvent where
  | queueComposite (create : Nat → Int) (dc : VirtualContents)
  | push
  | worker (e : QueueWorker.Event VirtualComposition)
  | compose (syncWait : Int → Bool) (inc : Bool)
  | destroy (inc : Bool)

def virtualNext (s : VirtualState) : VirtualEvent → Option VirtualState
  | .queueComposite create dc =>
      if s.made = none ∧ s.isOpen = true then
        let queued := queueComposite create dc s.timeline
        some { s with
          made := some queued.composition, timeline := queued.composition.releaseTimeline }
      else none
  | .push =>
      s.made.bind fun c => (QueueWorker.next (some kMaxQueueDepth) s.worker (.push c)).map
        fun worker => { s with worker := worker, made := none }
  | .worker (.push _) => none
  | .worker .finish => none
  | .worker e =>
      (QueueWorker.next (some kMaxQueueDepth) s.worker e).map fun worker =>
        { s with worker := worker }
  | .compose syncWait inc =>
      (QueueWorker.next (some kMaxQueueDepth) s.worker .finish).map fun worker =>
        { s.compose s.worker.item syncWait inc with worker := worker }
  | .destroy inc =>
      if s.isOpen then some { s.finishComposition s.timeline inc with isOpen := false } else none

def virtualSystem : System VirtualState VirtualEvent := ⟨fun s => s = .init, virtualNext⟩

/-! ## Fences and points -/

/-- The first point of a composition: the output buffer has a fence, and each layer one. -/
def VirtualComposition.firstPoint (c : VirtualComposition) : Nat :=
  c.releaseTimeline - c.layerAcquireFences.length

/-- The points of compositions follow one another, between two points. -/
def Consecutive : Nat → List VirtualComposition → Nat → Prop
  | start, [], last => start = last
  | start, c :: cs, last =>
      c.releaseTimeline = start + 1 + c.layerAcquireFences.length ∧
        Consecutive c.releaseTimeline cs last

theorem fenceLayers_points (create : Nat → Int) (layers : List VirtualLayer) :
    ∀ timeline, (fenceLayers create layers timeline).2.2.1 =
      timeline + (fenceLayers create layers timeline).2.1.length := by
  induction layers with
  | nil => exact fun _ => rfl
  | cons layer layers ih =>
      intro timeline
      unfold fenceLayers
      split
      · exact ih timeline
      · dsimp only
        rw [ih (timeline + 1), List.length_cons]
        omega

theorem queueComposite_points (create : Nat → Int) (dc : VirtualContents) (timeline : Nat) :
    (queueComposite create dc timeline).composition.releaseTimeline =
      timeline + 1 + (queueComposite create dc timeline).composition.layerAcquireFences.length :=
  fenceLayers_points create dc.hwLayers (timeline + 1)

/-- The layers that are not skipped are given the fences of the points in turn, and what they
were waiting for is waited for instead. -/
theorem fenceLayers_fences (create : Nat → Int) (layers : List VirtualLayer) :
    ∀ timeline, (fenceLayers create layers timeline).1.filter (!·.skip) =
        (List.range (layers.filter (!·.skip)).length).map
          (fun i => ⟨false, -1, create (timeline + 1 + i)⟩) ∧
      (fenceLayers create layers timeline).2.1 =
        (layers.filter (!·.skip)).map (·.acquireFenceFd) := by
  induction layers with
  | nil => exact fun _ => ⟨rfl, rfl⟩
  | cons layer layers ih =>
      intro timeline
      unfold fenceLayers
      cases hskip : layer.skip with
      | true =>
          rw [if_pos rfl, List.filter_cons_of_neg (by simp [hskip]),
            List.filter_cons_of_neg (by simp [hskip])]
          exact ih timeline
      | false =>
          obtain ⟨hfences, hacquired⟩ := ih (timeline + 1)
          rw [if_neg Bool.false_ne_true]
          dsimp only
          rw [List.filter_cons_of_pos (by simp), List.filter_cons_of_pos (by simp [hskip]),
            hfences, hacquired, List.length_cons, List.range_succ_eq_map, List.map_cons,
            List.map_map]
          refine ⟨?_, rfl⟩
          congr 2
          funext i
          simp only [Function.comp_apply, Nat.succ_eq_add_one, Nat.add_assoc, Nat.add_comm i]

theorem Consecutive.le {cs : List VirtualComposition} :
    ∀ {start last : Nat}, Consecutive start cs last → start ≤ last := by
  induction cs with
  | nil => exact fun h => Nat.le_of_eq h
  | cons c cs ih =>
      intro start last h
      have hrest := ih h.2
      have hfirst := h.1
      omega

/-- All of a composition's fences lie beyond the point where its turn began. -/
theorem Consecutive.lt_firstPoint {cs : List VirtualComposition} {c : VirtualComposition} :
    ∀ {start last : Nat}, Consecutive start cs last → c ∈ cs → start < c.firstPoint := by
  induction cs with
  | nil => exact fun _ hc => absurd hc List.not_mem_nil
  | cons c' cs ih =>
      intro start last h hc
      have hfirst := h.1
      obtain rfl | hc := List.mem_cons.mp hc
      · unfold VirtualComposition.firstPoint
        omega
      · have hlt := ih h.2 hc
        omega

theorem Consecutive.append {cs cs' : List VirtualComposition} :
    ∀ {start last : Nat}, Consecutive start (cs ++ cs') last ↔
      ∃ mid, Consecutive start cs mid ∧ Consecutive mid cs' last := by
  induction cs with
  | nil =>
      intro start last
      exact ⟨fun h => ⟨start, rfl, h⟩, fun ⟨mid, hmid, h⟩ => hmid ▸ h⟩
  | cons c cs ih =>
      intro start last
      rw [List.cons_append, Consecutive, ih]
      exact ⟨fun ⟨hc, mid, h, h'⟩ => ⟨mid, ⟨hc, h⟩, h'⟩,
        fun ⟨mid, ⟨hc, h⟩, h'⟩ => ⟨hc, mid, h, h'⟩⟩

/-! ## What every run keeps -/

/-- The invariant.  The kernel's timeline is never ahead of what is still waited for. -/
structure VirtualSound (s : VirtualState) : Prop where
  worker : QueueWorker.Sound (some kMaxQueueDepth) s.worker
  kernel : s.kernel = s.timelineCurrent
  current : s.timelineCurrent ≤ s.timeline
  points : Consecutive 0 (s.worker.pushed ++ s.made.toList) s.timeline
  reached : s.isOpen = true → ∃ mid, s.timelineCurrent ≤ mid ∧
    Consecutive mid (s.worker.pending ++ s.made.toList) s.timeline
  waited : s.isOpen = true → s.timelineCurrent = 0 ∨
    ∃ c ∈ s.composed, c.releaseTimeline = s.timelineCurrent
  composed : (s.composed ++ s.worker.item.toList).Sublist s.worker.taken

theorem VirtualSound.init : VirtualSound .init :=
  ⟨QueueWorker.sound_init _, rfl, Nat.le_refl 0, rfl, fun _ => ⟨0, Nat.le_refl 0, rfl⟩,
    fun _ => Or.inl rfl, List.Sublist.refl _⟩

/-- What `FinishComposition` does. -/
theorem finishComposition_cases (s : VirtualState) (point : Nat) (inc : Bool) :
    s.finishComposition point inc = s ∨
      (s.timelineCurrent < point ∧ inc = true ∧ s.isOpen = true ∧
        s.finishComposition point inc =
          { s with timelineCurrent := point
                   kernel := s.kernel + (point - s.timelineCurrent) }) := by
  unfold VirtualState.finishComposition
  split
  · exact Or.inl rfl
  · split
    · rename_i hlt hinc
      rw [Bool.and_eq_true] at hinc
      exact Or.inr ⟨by omega, hinc.1, hinc.2, rfl⟩
    · exact Or.inl rfl

/-- The worker goes on without a composition being made or finished. -/
theorem VirtualSound.withWorker {s : VirtualState} (h : VirtualSound s)
    {worker : QueueWorker.State VirtualComposition} {lost got : List VirtualComposition}
    (hworker : QueueWorker.Sound (some kMaxQueueDepth) worker)
    (hpending : s.worker.pending = lost ++ worker.pending)
    (hpushed : worker.pushed = s.worker.pushed) (htaken : worker.taken = s.worker.taken ++ got)
    (hitem : worker.item.toList.Sublist (s.worker.item.toList ++ got)) :
    VirtualSound { s with worker := worker } := by
  refine ⟨hworker, h.kernel, h.current, ?_, fun hopen => ?_, h.waited, ?_⟩
  · dsimp only
    rw [hpushed]
    exact h.points
  · obtain ⟨mid, hmid, hconsecutive⟩ := h.reached hopen
    rw [hpending, List.append_assoc, Consecutive.append] at hconsecutive
    obtain ⟨mid', hlost, hrest⟩ := hconsecutive
    exact ⟨mid', Nat.le_trans hmid hlost.le, hrest⟩
  · have hall : (s.composed ++ worker.item.toList).Sublist
        (s.composed ++ s.worker.item.toList ++ got) := by
      rw [List.append_assoc]
      exact hitem.append_left _
    dsimp only
    rw [htaken]
    exact hall.trans (h.composed.append_right _)

/-- The worker has waited for a composition, or given it up. -/
theorem VirtualSound.compose {s : VirtualState} (h : VirtualSound s)
    {worker : QueueWorker.State VirtualComposition}
    (hworker : QueueWorker.Sound (some kMaxQueueDepth) worker)
    (hpending : s.worker.pending = s.worker.item.toList ++ worker.pending)
    (hpushed : worker.pushed = s.worker.pushed) (htaken : worker.taken = s.worker.taken)
    (hitem : worker.item = none) (syncWait : Int → Bool) (inc : Bool) :
    VirtualSound { s.compose s.worker.item syncWait inc with worker := worker } := by
  have hdropped : VirtualSound { s with worker := worker } := by
    refine h.withWorker hworker hpending hpushed (htaken.trans (List.append_nil _).symm) ?_
    rw [hitem]
    exact List.nil_sublist _
  unfold VirtualState.compose
  cases hcomposition : s.worker.item with
  | none => exact hdropped
  | some c =>
      dsimp only
      split
      · have hsublist : ((s.composed ++ [c]) ++ worker.item.toList).Sublist worker.taken := by
          have hlast := h.composed
          rw [hcomposition] at hlast
          rw [hitem, htaken, Option.toList_none, List.append_nil]
          exact hlast
        have hcomposed : VirtualSound { s with worker := worker, composed := s.composed ++ [c] } :=
          ⟨hworker, h.kernel, h.current, hdropped.points, hdropped.reached, fun hopen =>
            (h.waited hopen).imp_right fun ⟨c', hc', hpoint⟩ =>
              ⟨c', List.mem_append_left _ hc', hpoint⟩, hsublist⟩
        obtain heq | ⟨hlt, -, hopen, heq⟩ :=
          finishComposition_cases { s with composed := s.composed ++ [c] } c.releaseTimeline inc
        · rw [heq]
          exact hcomposed
        · rw [heq]
          -- the composition was the first of those that were pending
          obtain ⟨mid, hmid, hconsecutive⟩ := h.reached hopen
          rw [hpending, hcomposition, List.append_assoc] at hconsecutive
          obtain ⟨-, hrest⟩ := hconsecutive
          refine ⟨hworker, ?_, hrest.le, hcomposed.points, fun _ => ⟨_, Nat.le_refl _, hrest⟩,
            fun _ => Or.inr ⟨c, List.mem_append_right _ (List.mem_singleton_self c), rfl⟩,
            hsublist⟩
          have hkernel := h.kernel
          dsimp only at hlt ⊢
          omega
      · exact hdropped

theorem VirtualSound.next {s s' : VirtualState} {e : VirtualEvent} (h : VirtualSound s)
    (hnext : virtualNext s e = some s') : VirtualSound s' := by
  cases e with
  | queueComposite create dc =>
      obtain ⟨⟨hmade, -⟩, rfl⟩ := guarded_eq_some hnext
      have hpoints := queueComposite_points create dc s.timeline
      have hlast : Consecutive s.timeline [(queueComposite create dc s.timeline).composition]
          (queueComposite create dc s.timeline).composition.releaseTimeline := ⟨hpoints, rfl⟩
      have hbefore := h.points
      rw [hmade, Option.toList_none, List.append_nil] at hbefore
      refine ⟨h.worker, h.kernel, ?_, Consecutive.append.mpr ⟨_, hbefore, hlast⟩,
        fun hopen => ?_, h.waited, h.composed⟩
      · have hcurrent := h.current
        dsimp only
        omega
      · obtain ⟨mid, hmid, hconsecutive⟩ := h.reached hopen
        rw [hmade, Option.toList_none, List.append_nil] at hconsecutive
        exact ⟨mid, hmid, Consecutive.append.mpr ⟨_, hconsecutive, hlast⟩⟩
  | push =>
      obtain ⟨c, hmade, hpush⟩ := Option.bind_eq_some_iff.mp hnext
      obtain ⟨worker, hworker, rfl⟩ := Option.map_eq_some_iff.mp hpush
      obtain ⟨-, hpushed⟩ := guarded_eq_some hworker
      have hsound := h.worker.next hworker
      rw [← hpushed] at hsound ⊢
      refine ⟨hsound, h.kernel, h.current, ?_, fun hopen => ?_, h.waited, h.composed⟩
      · have hpoints := h.points
        rw [hmade] at hpoints
        dsimp only
        rw [Option.toList_none, List.append_nil]
        exact hpoints
      · obtain ⟨mid, hmid, hconsecutive⟩ := h.reached hopen
        rw [hmade, QueueWorker.State.pending, List.append_assoc] at hconsecutive
        refine ⟨mid, hmid, ?_⟩
        dsimp only
        rw [Option.toList_none, List.append_nil]
        exact hconsecutive
  | worker e =>
      have hstep : ∀ e, (∀ c, e ≠ .push c) → e ≠ .finish →
          (QueueWorker.next (some kMaxQueueDepth) s.worker e).map (fun worker =>
            { s with worker := worker }) = some s' → VirtualSound s' := by
        intro e hpush hfinish hmap
        obtain ⟨worker, hworker, rfl⟩ := Option.map_eq_some_iff.mp hmap
        obtain ⟨c, rfl, -⟩ | ⟨rfl, -⟩ | ⟨lost, got, hlost, hpushed, htaken, hitem⟩ :=
          QueueWorker.pending_next h.worker hworker
        · exact absurd rfl (hpush c)
        · exact absurd rfl hfinish
        · exact h.withWorker (h.worker.next hworker) hlost hpushed htaken hitem
      cases e with
      | push c => cases hnext
      | finish => cases hnext
      | signal => exact hstep .signal (by simp) (by simp) hnext
      | check => exact hstep .check (by simp) (by simp) hnext
      | look => exact hstep .look (by simp) (by simp) hnext
      | wake => exact hstep .wake (by simp) (by simp) hnext
      | resume => exact hstep .resume (by simp) (by simp) hnext
      | requestExit => exact hstep .requestExit (by simp) (by simp) hnext
      | notifyExit => exact hstep .notifyExit (by simp) (by simp) hnext
      | join => exact hstep .join (by simp) (by simp) hnext
  | compose syncWait inc =>
      obtain ⟨worker, hworker, rfl⟩ := Option.map_eq_some_iff.mp hnext
      have hsound := h.worker.next hworker
      obtain ⟨-, hfinished⟩ := guarded_eq_some hworker
      subst hfinished
      exact h.compose hsound rfl rfl rfl rfl syncWait inc
  | destroy inc =>
      obtain ⟨hopen, rfl⟩ := guarded_eq_some hnext
      obtain heq | ⟨hlt, -, -, heq⟩ := finishComposition_cases s s.timeline inc
      · rw [heq]
        exact ⟨h.worker, h.kernel, h.current, h.points, Bool.noConfusion, Bool.noConfusion,
          h.composed⟩
      · rw [heq]
        refine ⟨h.worker, ?_, Nat.le_refl _, h.points, Bool.noConfusion, Bool.noConfusion,
          h.composed⟩
        have hkernel := h.kernel
        dsimp only
        omega

/-- Fences signal in the order of the frames, and none before the worker has waited for all that
its frame or a later one needs; those of the frames that are queued or being made are beyond the
kernel's timeline.  No frame is queued twice, out of turn, or while three are waiting, and the
worker does not sleep on a queue that nobody will signal.  The destructor leaves no fence
behind. -/
theorem virtual_fences_in_order {s : VirtualState}
    (h : virtualSystem.Reachable (fun _ _ => True) s) :
    s.worker.pushed = s.worker.taken ++ s.worker.queue ∧
      s.composed.Sublist s.worker.taken ∧
      Consecutive 0 (s.worker.pushed ++ s.made.toList) s.timeline ∧
      (s.isOpen = true →
        (∀ c ∈ s.worker.pending ++ s.made.toList, s.kernel < c.firstPoint) ∧
          (s.kernel = 0 ∨ ∃ c ∈ s.composed, c.releaseTimeline = s.kernel)) ∧
      s.worker.queue.length ≤ kMaxQueueDepth ∧
      (s.worker.phase = .waiting → s.worker.queue = [] ∨ 0 < s.worker.signals) ∧
      ∀ s', virtualNext s (.destroy true) = some s' → s'.kernel = s'.timeline := by
  have hsound : VirtualSound s :=
    h.invariant (fun _ hstart => hstart ▸ VirtualSound.init) fun _ _ _ h _ hnext => h.next hnext
  refine ⟨hsound.worker.order, (List.sublist_append_left _ _).trans hsound.composed,
    hsound.points, fun hopen => ⟨fun c hc => ?_, ?_⟩, hsound.worker.bounded _ rfl,
    hsound.worker.awake, fun s' hdestroy => ?_⟩
  · obtain ⟨mid, hmid, hconsecutive⟩ := hsound.reached hopen
    rw [hsound.kernel]
    exact Nat.lt_of_le_of_lt hmid (hconsecutive.lt_firstPoint hc)
  · rw [hsound.kernel]
    exact hsound.waited hopen
  · obtain ⟨hopen, rfl⟩ := guarded_eq_some hdestroy
    have hkernel := hsound.kernel
    have hcurrent := hsound.current
    unfold VirtualState.finishComposition
    rw [hopen]
    split
    · dsimp only
      omega
    · simp only [Bool.and_self, if_true]
      omega

/-! ## A frame -/

/-- The output buffer is ready, and of the two layers one is skipped. -/
def virtualFrame : VirtualContents := ⟨-1, -1, [⟨true, -1, -1⟩, ⟨false, 7, -1⟩]⟩

def virtualFrameEvents : List VirtualEvent :=
  [.queueComposite (fun point => 20 + point) virtualFrame, .push, .worker .signal,
    .worker .check, .worker .look, .compose (fun _ => true) true,
    .queueComposite (fun point => 20 + point) virtualFrame]

/-- One frame has been composed, and the next is being made. -/
def virtualFrameState : VirtualState where
  worker := ⟨[], .loop, none, .none, 0, [⟨-1, [7], 2⟩], [⟨-1, [7], 2⟩]⟩
  made := some ⟨-1, [7], 4⟩
  timeline := 4
  timelineCurrent := 2
  isOpen := true
  kernel := 2
  composed := [⟨-1, [7], 2⟩]

theorem virtual_fences_in_order_frame :
    (∀ c ∈ virtualFrameState.worker.pending ++ virtualFrameState.made.toList,
      virtualFrameState.kernel < c.firstPoint) ∧
      ∃ s', virtualNext virtualFrameState (.destroy true) = some s' ∧ s'.kernel = 4 := by
  have hrun : virtualSystem.run (fun _ _ => True) virtualFrameEvents .init =
      some virtualFrameState := rfl
  obtain ⟨-, -, -, hopen, -, -, hdestroy⟩ :=
    virtual_fences_in_order (System.Reachable.run (.start rfl) hrun)
  exact ⟨(hopen rfl).1, _, rfl, hdestroy _ rfl⟩

/-! ## Exiting -/

/-- What the worker does itself. -/
def VirtualEvent.isOwn : VirtualEvent → Bool
  | .worker e => e.isOwn
  | .compose _ _ => true
  | _ => false

theorem virtualNext_follows {s s' : VirtualState} {e : VirtualEvent}
    (hnext : virtualNext s e = some s') :
    QueueWorker.Follows (some kMaxQueueDepth) s.worker s'.worker e.isOwn := by
  have hmap : ∀ e : QueueWorker.Event VirtualComposition,
      (QueueWorker.next (some kMaxQueueDepth) s.worker e).map
        (fun worker => { s with worker := worker }) = some s' →
      QueueWorker.Follows (some kMaxQueueDepth) s.worker s'.worker e.isOwn := by
    intro e hmap
    obtain ⟨worker, hworker, rfl⟩ := Option.map_eq_some_iff.mp hmap
    exact Or.inr ⟨e, hworker, rfl⟩
  cases e with
  | queueComposite create dc =>
      obtain ⟨-, rfl⟩ := guarded_eq_some hnext
      exact Or.inl ⟨rfl, rfl⟩
  | push =>
      obtain ⟨c, -, hpush⟩ := Option.bind_eq_some_iff.mp hnext
      obtain ⟨worker, hworker, rfl⟩ := Option.map_eq_some_iff.mp hpush
      exact Or.inr ⟨.push c, hworker, rfl⟩
  | worker e =>
      cases e with
      | push c => cases hnext
      | finish => cases hnext
      | signal => exact hmap .signal hnext
      | check => exact hmap .check hnext
      | look => exact hmap .look hnext
      | wake => exact hmap .wake hnext
      | resume => exact hmap .resume hnext
      | requestExit => exact hmap .requestExit hnext
      | notifyExit => exact hmap .notifyExit hnext
      | join => exact hmap .join hnext
  | compose syncWait inc =>
      obtain ⟨worker, hworker, rfl⟩ := Option.map_eq_some_iff.mp hnext
      exact Or.inr ⟨.finish, hworker, rfl⟩
  | destroy inc =>
      obtain ⟨hopen, rfl⟩ := guarded_eq_some hnext
      obtain heq | ⟨-, -, -, heq⟩ := finishComposition_cases s s.timeline inc
      · rw [heq]
        exact Or.inl ⟨rfl, rfl⟩
      · rw [heq]
        exact Or.inl ⟨rfl, rfl⟩

/-- Unless the worker sleeps or has ended, it can go on; the waits for fences have an end. -/
theorem virtual_exists_own {s : VirtualState} (hwaiting : s.worker.phase ≠ .waiting)
    (hexited : s.worker.phase ≠ .exited) :
    ∃ e : VirtualEvent, e.isOwn = true ∧ (virtualNext s e).isSome = true := by
  obtain ⟨e, hown, hnext⟩ : ∃ e : QueueWorker.Event VirtualComposition, e.isOwn = true ∧
      (QueueWorker.next (some kMaxQueueDepth) s.worker e).isSome = true :=
    QueueWorker.exists_own hwaiting hexited
  have hmap : ∀ {σ τ : Type} {o : Option σ} {f : σ → τ}, o.isSome = true →
      (o.map f).isSome = true := fun h => Option.isSome_map.trans h
  cases e with
  | check => exact ⟨.worker .check, rfl, hmap hnext⟩
  | look => exact ⟨.worker .look, rfl, hmap hnext⟩
  | resume => exact ⟨.worker .resume, rfl, hmap hnext⟩
  | finish => exact ⟨.compose (fun _ => false) true, rfl, hmap hnext⟩
  | push => cases hown
  | signal => cases hown
  | wake => cases hown
  | requestExit => cases hown
  | notifyExit => cases hown
  | join => cases hown

/-- `Exit` comes to an end.  From the request on the worker takes three steps at most, whatever
the others do; once it has been notified it does not sleep, and it can go on until it has ended.
`Exit` returns after that. -/
theorem virtual_exit_ends {s s' : VirtualState} {events : List VirtualEvent}
    (h : virtualSystem.Reachable (fun _ _ => True) s) (hexit : s.worker.shouldExit = true)
    (hrun : events.foldlM virtualNext s = some s') :
    events.countP VirtualEvent.isOwn ≤ 3 ∧
      (s'.worker.exit = .joining → s'.worker.phase = .exited ∨
        ∃ e : VirtualEvent, e.isOwn = true ∧ (virtualNext s' e).isSome = true) ∧
      (s'.worker.exit = .joining → s'.worker.phase = .exited →
        (virtualNext s' (.worker .join)).isSome = true) ∧
      (s'.worker.exit = .joined → s'.worker.phase = .exited) := by
  have hfollows : ∀ s e s', virtualNext s e = some s' →
      QueueWorker.Follows (some kMaxQueueDepth) s.worker s'.worker (VirtualEvent.isOwn e) :=
    fun _ _ _ => virtualNext_follows
  have hsound : QueueWorker.Sound (some kMaxQueueDepth) s.worker :=
    System.Reachable.invariant
      (I := fun s => QueueWorker.Sound (some kMaxQueueDepth) s.worker)
      (fun _ hstart => hstart ▸ QueueWorker.sound_init _)
      (fun _ _ _ h _ hnext => (hfollows _ _ _ hnext).sound h) h
  have hsound' : QueueWorker.Sound (some kMaxQueueDepth) s'.worker :=
    QueueWorker.sound_run hfollows hsound hrun
  have hremaining := QueueWorker.remaining_run hfollows events hexit hrun
  have hle := s.worker.phase.remaining_le
  refine ⟨by omega, fun hjoining => or_iff_not_imp_left.mpr fun hexited => ?_,
    fun hjoining hexited => ?_, hsound'.joined⟩
  · refine virtual_exists_own (fun hwaiting => ?_) hexited
    obtain hnone | hrequested := hsound'.exiting hwaiting
    · rw [hjoining] at hnone
      cases hnone
    · rw [hjoining] at hrequested
      cases hrequested
  · refine Option.isSome_map.trans ?_
    rw [QueueWorker.next, if_pos ⟨hjoining, hexited⟩]
    rfl

/-- The worker is about to look at its queue, or ended. -/
def virtualExiting (phase : QueueWorker.Phase) (exit : QueueWorker.Exit) : VirtualState :=
  { VirtualState.init with worker := ⟨[], phase, none, exit, 0, [], []⟩ }

/-- An idle worker is asked to end. -/
def exitEvents : List VirtualEvent :=
  [.worker .notifyExit, .worker .look, .worker .check, .worker .join]

theorem virtual_exit_ends_idle :
    ∃ s', exitEvents.foldlM virtualNext (virtualExiting .routine .requested) = some s' ∧
      exitEvents.countP VirtualEvent.isOwn ≤ 3 ∧ s'.worker.phase = .exited := by
  have hrun : virtualSystem.run (fun _ _ => True) [.worker .check, .worker .requestExit] .init =
      some (virtualExiting .routine .requested) := rfl
  have hexits : exitEvents.foldlM virtualNext (virtualExiting .routine .requested) =
      some (virtualExiting .exited .joined) := rfl
  obtain ⟨hcount, -, -, hexited⟩ :=
    virtual_exit_ends (System.Reachable.run (.start rfl) hrun) rfl hexits
  exact ⟨_, hexits, hcount, hexited rfl⟩

end DragonDevice.Hwc
