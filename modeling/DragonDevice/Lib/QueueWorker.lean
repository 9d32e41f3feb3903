/-
  Lib/QueueWorker.lean --- a thread that takes items from a queue.

  The queue and a request to exit are protected by a mutex, and the worker sleeps on a
  condition variable when there is nothing to do.  Others push items and signal when they have
  released the mutex.  What is done with the mutex held is one step; between the steps of one
  thread the others go on in any order, and the worker may also wake up by itself.
-/
import DragonDevice.Lib.Transition
import Mathlib.Data.List.Basic

set_option autoImplicit false

namespace DragonDevice.Lib.QueueWorker

universe u

variable {α : Type u}

/-- Where the worker is. -/
inductive Phase where
  /-- about to look for a request to exit -/
  | loop
  /-- about to look at the queue -/
  | routine
  | waiting
  /-- about to take the mutex after a wait -/
  | woken
  | acting
  | exited
  deriving DecidableEq, Repr

/-- Where the thread is that asks the worker to exit. -/
inductive Exit where
  | none
  /-- the request is made, and the worker has not been notified -/
  | requested
  /-- waiting for the worker to end -/
  | joining
  | joined
  deriving DecidableEq, Repr

/-- The state, with all that was ever pushed and all that was ever taken. -/
structure State (α : Type u) where
  queue : List α
  phase : Phase
  /-- what the worker acts on, if it has taken anything -/
  item : Option α
  exit : Exit
  /-- how many have pushed an item and not signalled yet -/
  signals : Nat
  pushed : List α
  taken : List α

inductive Event (α : Type u) where
  | push (item : α)
  | signal
  | check
  | look
  | wake
  | resume
  | finish
  | requestExit
  | notifyExit
  | join

/-- The steps of the worker itself.  That it wakes up is not one of them. -/
def Event.isOwn : Event α → Bool
  | .check => true
  | .look => true
  | .resume => true
  | .finish => true
  | _ => false

namespace State

def init : State α := ⟨[], .loop, none, .none, 0, [], []⟩

def shouldExit (s : State α) : Bool := s.exit != .none

/-- The first item is taken, if there is one.  It is given up unless it is acted on. -/
def take (s : State α) (phase : Phase) : State α :=
  { s with
    queue := s.queue.tail
    item := if phase = .acting then s.queue.head? else none
    taken := s.taken ++ s.queue.head?.toList
    phase := phase }

/-- What is acted on, and what is in the queue. -/
def pending (s : State α) : List α := s.item.toList ++ s.queue

/-- The worker is woken if it sleeps on the condition variable. -/
def notified (s : State α) : Phase := if s.phase = .waiting then .woken else s.phase

end State

/-- A step.  A queue may be limited to a number of items; those who push wait for room. -/
def next (depth : Option Nat) (s : State α) : Event α → Option (State α)
  | .push item =>
      if ∀ d ∈ depth, s.queue.length < d then
        some { s with
          queue := s.queue ++ [item], signals := s.signals + 1, pushed := s.pushed ++ [item] }
      else none
  | .signal =>
      if 0 < s.signals then some { s with signals := s.signals - 1, phase := s.notified } else none
  | .check =>
      if s.phase = .loop then
        some { s with phase := if s.shouldExit then .exited else .routine }
      else none
  | .look =>
      if s.phase = .routine then
        some (if s.queue = [] then { s with phase := if s.shouldExit then .loop else .waiting }
          else s.take .acting)
      else none
  | .wake => if s.phase = .waiting then some { s with phase := .woken } else none
  | .resume =>
      if s.phase = .woken then some (s.take (if s.shouldExit then .loop else .acting)) else none
  | .finish => if s.phase = .acting then some { s with phase := .loop, item := none } else none
  | .requestExit => if s.exit = .none then some { s with exit := .requested } else none
  | .notifyExit =>
      if s.exit = .requested then some { s with exit := .joining, phase := s.notified } else none
  | .join =>
      if s.exit = .joining ∧ s.phase = .exited then some { s with exit := .joined } else none

/-- The worker and those it serves. -/
def system (depth : Option Nat) : System (State α) (Event α) := ⟨fun s => s = .init, next depth⟩

theorem push_eq_some {depth : Option Nat} {s s' : State α} {item : α}
    (h : next depth s (.push item) = some s') : s' = { s with
      queue := s.queue ++ [item], signals := s.signals + 1, pushed := s.pushed ++ [item] } :=
  (guarded_eq_some h).2.symm

/-! ## What every run keeps -/

/-- Nothing is lost or taken out of order, and the worker sleeps only when there is nothing to
do or someone is about to wake it. -/
structure Sound (depth : Option Nat) (s : State α) : Prop where
  order : s.pushed = s.taken ++ s.queue
  bounded : ∀ d ∈ depth, s.queue.length ≤ d
  awake : s.phase = .waiting → s.queue = [] ∨ 0 < s.signals
  exiting : s.phase = .waiting → s.exit = .none ∨ s.exit = .requested
  joined : s.exit = .joined → s.phase = .exited
  idle : s.phase ≠ .acting → s.item = none

theorem notified_ne_waiting (s : State α) : s.notified ≠ .waiting := by
  unfold State.notified
  split
  · exact Phase.noConfusion
  · assumption

theorem notified_eq_acting {s : State α} : s.notified = .acting ↔ s.phase = .acting := by
  unfold State.notified
  split
  · rename_i hwaiting
    rw [hwaiting]
    exact ⟨Phase.noConfusion, Phase.noConfusion⟩
  · exact Iff.rfl

theorem notified_exited {s : State α} (h : s.phase = .exited) : s.notified = .exited := by
  rw [State.notified, h]
  rfl

theorem shouldExit_eq_false {s : State α} : s.shouldExit = false ↔ s.exit = .none :=
  bne_eq_false_iff_eq

theorem sound_init (depth : Option Nat) : Sound depth (State.init : State α) :=
  ⟨rfl, fun _ _ => Nat.zero_le _, Phase.noConfusion, Phase.noConfusion, Exit.noConfusion,
    fun _ => rfl⟩

/-- Another phase, in which the worker does not sleep and acts on nothing. -/
theorem Sound.withPhase {depth : Option Nat} {s : State α} (h : Sound depth s) {phase : Phase}
    (hwaiting : phase ≠ .waiting) (hjoined : s.phase = .exited → phase = .exited) :
    Sound depth { s with phase := phase, item := none } :=
  ⟨h.order, h.bounded, fun heq => absurd heq hwaiting, fun heq => absurd heq hwaiting,
    fun heq => hjoined (h.joined heq), fun _ => rfl⟩

/-- Taking the first item. -/
theorem Sound.take {depth : Option Nat} {s : State α} (h : Sound depth s) {phase : Phase}
    (hwaiting : phase ≠ .waiting) (hphase : s.phase ≠ .exited) :
    Sound depth (s.take phase) := by
  refine ⟨?_, ?_, fun heq => absurd heq hwaiting, fun heq => absurd heq hwaiting,
    fun hjoined => absurd (h.joined hjoined) hphase, fun hacting => if_neg hacting⟩
  · unfold State.take
    rw [h.order, List.append_assoc]
    congr 1
    cases s.queue with
    | nil => rfl
    | cons item rest => rfl
  · intro d hd
    unfold State.take
    rw [List.length_tail]
    exact Nat.le_trans (Nat.sub_le _ _) (h.bounded d hd)

theorem Sound.next {depth : Option Nat} {s s' : State α} {e : Event α} (h : Sound depth s)
    (hnext : next depth s e = some s') : Sound depth s' := by
  -- without an item, which is that of every phase but one
  have hidle : ∀ phase, s.phase ≠ .acting →
      ({ s with phase := phase, item := none } : State α) = { s with phase := phase } := by
    intro phase hphase
    rw [← h.idle hphase]
  cases e with
  | push item =>
      obtain ⟨hroom, rfl⟩ := guarded_eq_some hnext
      refine ⟨?_, ?_, fun _ => Or.inr (Nat.succ_pos _), h.exiting, h.joined, h.idle⟩
      · rw [h.order, List.append_assoc]
      · intro d hd
        rw [List.length_append]
        exact hroom d hd
  | signal =>
      obtain ⟨-, rfl⟩ := guarded_eq_some hnext
      exact ⟨h.order, h.bounded, fun heq => absurd heq (notified_ne_waiting s),
        fun heq => absurd heq (notified_ne_waiting s), fun heq => notified_exited (h.joined heq),
        fun heq => h.idle fun hacting => heq (notified_eq_acting.mpr hacting)⟩
  | check =>
      obtain ⟨hphase, rfl⟩ := guarded_eq_some hnext
      rw [← hidle _ (by rw [hphase]; exact Phase.noConfusion)]
      apply h.withPhase
      · split
        · exact Phase.noConfusion
        · exact Phase.noConfusion
      · rw [hphase]
        exact Phase.noConfusion
  | look =>
      obtain ⟨hphase, rfl⟩ := guarded_eq_some hnext
      have hexited : s.phase ≠ .exited := by
        rw [hphase]
        exact Phase.noConfusion
      split
      · rename_i hempty
        refine ⟨h.order, h.bounded, fun _ => Or.inl hempty, fun hwaiting => ?_,
          fun hjoined => absurd (h.joined hjoined) hexited, fun _ => h.idle ?_⟩
        · dsimp only at hwaiting
          split at hwaiting
          · cases hwaiting
          · rename_i hexit
            exact Or.inl (shouldExit_eq_false.mp (Bool.eq_false_iff.mpr hexit))
        · rw [hphase]
          exact Phase.noConfusion
      · exact h.take Phase.noConfusion hexited
  | wake =>
      obtain ⟨hphase, rfl⟩ := guarded_eq_some hnext
      rw [← hidle _ (by rw [hphase]; exact Phase.noConfusion)]
      apply h.withPhase Phase.noConfusion
      rw [hphase]
      exact Phase.noConfusion
  | resume =>
      obtain ⟨hphase, rfl⟩ := guarded_eq_some hnext
      apply h.take
      · split
        · exact Phase.noConfusion
        · exact Phase.noConfusion
      · rw [hphase]
        exact Phase.noConfusion
  | finish =>
      obtain ⟨hphase, rfl⟩ := guarded_eq_some hnext
      apply h.withPhase Phase.noConfusion
      rw [hphase]
      exact Phase.noConfusion
  | requestExit =>
      obtain ⟨-, rfl⟩ := guarded_eq_some hnext
      exact ⟨h.order, h.bounded, h.awake, fun _ => Or.inr rfl, Exit.noConfusion, h.idle⟩
  | notifyExit =>
      obtain ⟨-, rfl⟩ := guarded_eq_some hnext
      exact ⟨h.order, h.bounded, fun heq => absurd heq (notified_ne_waiting s),
        fun heq => absurd heq (notified_ne_waiting s), Exit.noConfusion,
        fun heq => h.idle fun hacting => heq (notified_eq_acting.mpr hacting)⟩
  | join =>
      obtain ⟨⟨-, hexited⟩, rfl⟩ := guarded_eq_some hnext
      exact ⟨h.order, h.bounded, fun heq => absurd (hexited.symm.trans heq) Phase.noConfusion,
        fun heq => absurd (hexited.symm.trans heq) Phase.noConfusion, fun _ => hexited, h.idle⟩

/-- What a step does to the items that are pending, and to those that were taken.  What is acted
on was the last to be taken. -/
theorem pending_next {depth : Option Nat} {s s' : State α} {e : Event α} (h : Sound depth s)
    (hnext : next depth s e = some s') :
    (∃ item, e = .push item ∧ s'.pending = s.pending ++ [item] ∧
      s'.pushed = s.pushed ++ [item] ∧ s'.taken = s.taken) ∨
    (e = .finish ∧ s.pending = s.item.toList ++ s'.pending ∧ s'.pushed = s.pushed ∧
      s'.taken = s.taken) ∨
    ∃ lost got, s.pending = lost ++ s'.pending ∧ s'.pushed = s.pushed ∧
      s'.taken = s.taken ++ got ∧ s'.item.toList.Sublist (s.item.toList ++ got) := by
  have htake : ∀ phase, s.phase ≠ .acting → ∃ lost got,
      s.pending = lost ++ (s.take phase).pending ∧ (s.take phase).pushed = s.pushed ∧
      (s.take phase).taken = s.taken ++ got ∧
      (s.take phase).item.toList.Sublist (s.item.toList ++ got) := by
    intro phase hphase
    unfold State.pending State.take
    rw [h.idle hphase]
    by_cases hacting : phase = .acting
    · refine ⟨[], s.queue.head?.toList, ?_, rfl, rfl, ?_⟩
      · rw [if_pos hacting]
        cases s.queue with
        | nil => rfl
        | cons item rest => rfl
      · rw [if_pos hacting]
        exact List.Sublist.refl _
    · refine ⟨s.queue.head?.toList, s.queue.head?.toList, ?_, rfl, rfl, ?_⟩
      · rw [if_neg hacting]
        cases s.queue with
        | nil => rfl
        | cons item rest => rfl
      · rw [if_neg hacting]
        exact List.nil_sublist _
  have hkept : s.taken = s.taken ++ [] ∧ s.item.toList.Sublist (s.item.toList ++ []) :=
    ⟨(List.append_nil _).symm, List.sublist_append_left _ _⟩
  cases e with
  | push item =>
      obtain ⟨-, rfl⟩ := guarded_eq_some hnext
      exact Or.inl ⟨item, rfl, (List.append_assoc _ _ _).symm, rfl, rfl⟩
  | finish =>
      obtain ⟨-, rfl⟩ := guarded_eq_some hnext
      exact Or.inr (Or.inl ⟨rfl, rfl, rfl, rfl⟩)
  | look =>
      obtain ⟨hphase, rfl⟩ := guarded_eq_some hnext
      refine Or.inr (Or.inr ?_)
      split
      · exact ⟨[], [], rfl, rfl, hkept⟩
      · apply htake
        rw [hphase]
        exact Phase.noConfusion
  | resume =>
      obtain ⟨hphase, rfl⟩ := guarded_eq_some hnext
      refine Or.inr (Or.inr (htake _ ?_))
      rw [hphase]
      exact Phase.noConfusion
  | signal =>
      obtain ⟨-, rfl⟩ := guarded_eq_some hnext
      exact Or.inr (Or.inr ⟨[], [], rfl, rfl, hkept⟩)
  | check =>
      obtain ⟨-, rfl⟩ := guarded_eq_some hnext
      exact Or.inr (Or.inr ⟨[], [], rfl, rfl, hkept⟩)
  | wake =>
      obtain ⟨-, rfl⟩ := guarded_eq_some hnext
      exact Or.inr (Or.inr ⟨[], [], rfl, rfl, hkept⟩)
  | requestExit =>
      obtain ⟨-, rfl⟩ := guarded_eq_some hnext
      exact Or.inr (Or.inr ⟨[], [], rfl, rfl, hkept⟩)
  | notifyExit =>
      obtain ⟨-, rfl⟩ := guarded_eq_some hnext
      exact Or.inr (Or.inr ⟨[], [], rfl, rfl, hkept⟩)
  | join =>
      obtain ⟨-, rfl⟩ := guarded_eq_some hnext
      exact Or.inr (Or.inr ⟨[], [], rfl, rfl, hkept⟩)

/-- Unless it is asked to exit, the worker gives nothing up. -/
theorem pending_kept {depth : Option Nat} {s s' : State α} {e : Event α} (h : Sound depth s)
    (hexit : s.exit = .none) (hpush : ∀ item, e ≠ .push item) (hfinish : e ≠ .finish)
    (hnext : next depth s e = some s') : s'.pending = s.pending ∧ s'.pushed = s.pushed := by
  have htake : s.phase ≠ .acting → (s.take .acting).pending = s.pending := by
    intro hphase
    unfold State.pending State.take
    rw [h.idle hphase, if_pos rfl]
    cases s.queue with
    | nil => rfl
    | cons item rest => rfl
  have hstays : s.shouldExit = false := shouldExit_eq_false.mpr hexit
  cases e with
  | push item => exact absurd rfl (hpush item)
  | finish => exact absurd rfl hfinish
  | look =>
      obtain ⟨hphase, rfl⟩ := guarded_eq_some hnext
      split
      · exact ⟨rfl, rfl⟩
      · refine ⟨htake ?_, rfl⟩
        rw [hphase]
        exact Phase.noConfusion
  | resume =>
      obtain ⟨hphase, rfl⟩ := guarded_eq_some hnext
      rw [hstays, if_neg Bool.false_ne_true]
      refine ⟨htake ?_, rfl⟩
      rw [hphase]
      exact Phase.noConfusion
  | signal =>
      obtain ⟨-, rfl⟩ := guarded_eq_some hnext
      exact ⟨rfl, rfl⟩
  | check =>
      obtain ⟨-, rfl⟩ := guarded_eq_some hnext
      exact ⟨rfl, rfl⟩
  | wake =>
      obtain ⟨-, rfl⟩ := guarded_eq_some hnext
      exact ⟨rfl, rfl⟩
  | requestExit =>
      obtain ⟨-, rfl⟩ := guarded_eq_some hnext
      exact ⟨rfl, rfl⟩
  | notifyExit =>
      obtain ⟨-, rfl⟩ := guarded_eq_some hnext
      exact ⟨rfl, rfl⟩
  | join =>
      obtain ⟨-, rfl⟩ := guarded_eq_some hnext
      exact ⟨rfl, rfl⟩

/-- What is acted on changes only when an item is taken, or finished. -/
theorem item_kept {depth : Option Nat} {s s' : State α} {e : Event α} (hlook : e ≠ .look)
    (hresume : e ≠ .resume) (hfinish : e ≠ .finish) (hnext : next depth s e = some s') :
    s'.item = s.item := by
  cases e with
  | look => exact absurd rfl hlook
  | resume => exact absurd rfl hresume
  | finish => exact absurd rfl hfinish
  | push item =>
      obtain rfl := push_eq_some hnext
      rfl
  | signal =>
      obtain ⟨-, rfl⟩ := guarded_eq_some hnext
      rfl
  | check =>
      obtain ⟨-, rfl⟩ := guarded_eq_some hnext
      rfl
  | wake =>
      obtain ⟨-, rfl⟩ := guarded_eq_some hnext
      rfl
  | requestExit =>
      obtain ⟨-, rfl⟩ := guarded_eq_some hnext
      rfl
  | notifyExit =>
      obtain ⟨-, rfl⟩ := guarded_eq_some hnext
      rfl
  | join =>
      obtain ⟨-, rfl⟩ := guarded_eq_some hnext
      rfl

/-- Before an item is taken there is none. -/
theorem item_eq_none {depth : Option Nat} {s s' : State α} {e : Event α} (h : Sound depth s)
    (he : e = .look ∨ e = .resume) (hnext : next depth s e = some s') : s.item = none := by
  apply h.idle
  obtain rfl | rfl := he
  · obtain ⟨hphase, -⟩ := guarded_eq_some hnext
    rw [hphase]
    exact Phase.noConfusion
  · obtain ⟨hphase, -⟩ := guarded_eq_some hnext
    rw [hphase]
    exact Phase.noConfusion

/-- Nobody else asks the worker to exit. -/
theorem exit_kept {depth : Option Nat} {s s' : State α} {e : Event α} (hexit : s.exit = .none)
    (hrequest : e ≠ .requestExit) (hnext : next depth s e = some s') : s'.exit = .none := by
  cases e with
  | requestExit => exact absurd rfl hrequest
  | notifyExit =>
      obtain ⟨hrequested, -⟩ := guarded_eq_some hnext
      rw [hexit] at hrequested
      cases hrequested
  | join =>
      obtain ⟨⟨hjoining, -⟩, -⟩ := guarded_eq_some hnext
      rw [hexit] at hjoining
      cases hjoining
  | look =>
      obtain ⟨-, rfl⟩ := guarded_eq_some hnext
      split
      · exact hexit
      · exact hexit
  | push item =>
      obtain ⟨-, rfl⟩ := guarded_eq_some hnext
      exact hexit
  | signal =>
      obtain ⟨-, rfl⟩ := guarded_eq_some hnext
      exact hexit
  | check =>
      obtain ⟨-, rfl⟩ := guarded_eq_some hnext
      exact hexit
  | wake =>
      obtain ⟨-, rfl⟩ := guarded_eq_some hnext
      exact hexit
  | resume =>
      obtain ⟨-, rfl⟩ := guarded_eq_some hnext
      exact hexit
  | finish =>
      obtain ⟨-, rfl⟩ := guarded_eq_some hnext
      exact hexit

/-! ## Exiting -/

/-- How many steps of its own the worker takes at most, when it is asked to exit. -/
def Phase.remaining : Phase → Nat
  | .loop => 1
  | .routine => 3
  | .waiting => 3
  | .woken => 2
  | .acting => 2
  | .exited => 0

theorem remaining_notified (s : State α) : s.notified.remaining ≤ s.phase.remaining := by
  unfold State.notified
  split
  · rename_i hwaiting
    rw [hwaiting]
    decide
  · exact Nat.le_refl _

/-- The worker comes nearer to its end with each step of its own. -/
theorem remaining_next {depth : Option Nat} {s s' : State α} {e : Event α}
    (hexit : s.shouldExit = true) (hnext : next depth s e = some s') :
    s'.shouldExit = true ∧
      s'.phase.remaining + (if e.isOwn then 1 else 0) ≤ s.phase.remaining := by
  cases e with
  | push item =>
      obtain ⟨-, rfl⟩ := guarded_eq_some hnext
      exact ⟨hexit, Nat.le_refl _⟩
  | signal =>
      obtain ⟨-, rfl⟩ := guarded_eq_some hnext
      exact ⟨hexit, remaining_notified s⟩
  | check =>
      obtain ⟨hphase, rfl⟩ := guarded_eq_some hnext
      rw [hphase, if_pos hexit]
      exact ⟨hexit, Nat.le_refl 1⟩
  | look =>
      obtain ⟨hphase, rfl⟩ := guarded_eq_some hnext
      rw [hphase, if_pos hexit]
      split
      · exact ⟨hexit, Nat.le_succ 2⟩
      · exact ⟨hexit, Nat.le_refl 3⟩
  | wake =>
      obtain ⟨hphase, rfl⟩ := guarded_eq_some hnext
      rw [hphase]
      exact ⟨hexit, Nat.le_succ 2⟩
  | resume =>
      obtain ⟨hphase, rfl⟩ := guarded_eq_some hnext
      rw [hphase, if_pos hexit]
      exact ⟨hexit, Nat.le_refl 2⟩
  | finish =>
      obtain ⟨hphase, rfl⟩ := guarded_eq_some hnext
      rw [hphase]
      exact ⟨hexit, Nat.le_refl 2⟩
  | requestExit =>
      obtain ⟨-, rfl⟩ := guarded_eq_some hnext
      exact ⟨rfl, Nat.le_refl _⟩
  | notifyExit =>
      obtain ⟨-, rfl⟩ := guarded_eq_some hnext
      exact ⟨rfl, remaining_notified s⟩
  | join =>
      obtain ⟨-, rfl⟩ := guarded_eq_some hnext
      exact ⟨rfl, Nat.le_refl _⟩

/-- What the worker sees of a step of a larger system: a step of its own or of someone else's,
or nothing. -/
def Follows (depth : Option Nat) (s s' : State α) (own : Bool) : Prop :=
  (s' = s ∧ own = false) ∨ ∃ e, next depth s e = some s' ∧ e.isOwn = own

theorem Follows.sound {depth : Option Nat} {s s' : State α} {own : Bool}
    (h : Follows depth s s' own) (hs : Sound depth s) : Sound depth s' := by
  obtain ⟨rfl, -⟩ | ⟨e, hnext, -⟩ := h
  · exact hs
  · exact hs.next hnext

theorem Follows.remaining {depth : Option Nat} {s s' : State α} {own : Bool}
    (h : Follows depth s s' own) (hexit : s.shouldExit = true) :
    s'.shouldExit = true ∧ s'.phase.remaining + (if own then 1 else 0) ≤ s.phase.remaining := by
  obtain ⟨rfl, rfl⟩ | ⟨e, hnext, rfl⟩ := h
  · exact ⟨hexit, Nat.le_refl _⟩
  · exact remaining_next hexit hnext

/-- In a run that begins after the request the worker takes so many steps at most. -/
theorem remaining_run {σ ε : Type*} {depth : Option Nat} {step : σ → ε → Option σ}
    {worker : σ → State α} {isOwn : ε → Bool}
    (hfollows : ∀ s e s', step s e = some s' → Follows depth (worker s) (worker s') (isOwn e))
    (events : List ε) : ∀ {s s' : σ}, (worker s).shouldExit = true →
      events.foldlM step s = some s' →
      (worker s').phase.remaining + events.countP isOwn ≤ (worker s).phase.remaining := by
  induction events with
  | nil =>
      intro s s' _ hrun
      cases hrun
      exact Nat.le_refl _
  | cons e events ih =>
      intro s s' hexit hrun
      rw [List.foldlM_cons] at hrun
      cases hnext : step s e with
      | none =>
          rw [hnext] at hrun
          cases hrun
      | some s₁ =>
          rw [hnext] at hrun
          obtain ⟨hexit₁, hstep⟩ := (hfollows s e s₁ hnext).remaining hexit
          have hrest := ih hexit₁ hrun
          rw [List.countP_cons]
          omega

/-- The invariant along a run of a larger system. -/
theorem sound_run {σ ε : Type*} {depth : Option Nat} {step : σ → ε → Option σ}
    {worker : σ → State α} {isOwn : ε → Bool}
    (hfollows : ∀ s e s', step s e = some s' → Follows depth (worker s) (worker s') (isOwn e))
    {events : List ε} {s s' : σ} (hs : Sound depth (worker s))
    (hrun : events.foldlM step s = some s') : Sound depth (worker s') :=
  @foldlM_history _ _ _ (fun _ s => Sound depth (worker s))
    (fun _ _ _ _ h hnext => (hfollows _ _ _ hnext).sound h) events [] s s' hs hrun

theorem Phase.remaining_le (phase : Phase) : phase.remaining ≤ 3 := by
  cases phase <;> decide

/-- Unless the worker sleeps or has ended, it can go on. -/
theorem exists_own {depth : Option Nat} {s : State α} (hwaiting : s.phase ≠ .waiting)
    (hexited : s.phase ≠ .exited) :
    ∃ e : Event α, e.isOwn = true ∧ (next depth s e).isSome = true := by
  cases hphase : s.phase with
  | loop => exact ⟨.check, rfl, by rw [next, if_pos hphase]; rfl⟩
  | routine => exact ⟨.look, rfl, by rw [next, if_pos hphase]; rfl⟩
  | waiting => exact absurd hphase hwaiting
  | woken => exact ⟨.resume, rfl, by rw [next, if_pos hphase]; rfl⟩
  | acting => exact ⟨.finish, rfl, by rw [next, if_pos hphase]; rfl⟩
  | exited => exact absurd hphase hexited

end DragonDevice.Lib.QueueWorker
