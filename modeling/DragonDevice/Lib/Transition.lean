/-
  Lib/Transition.lean --- runs of a system of events.

  An event carries what the environment answers, so a step is a partial function of
  the state and the event.  Runs can be restricted to events that meet a condition in
  the state they happen in.  An invariant may also speak of the events so far.
-/
import Mathlib.Logic.Basic

set_option autoImplicit false

namespace DragonDevice.Lib

universe u v

/-- A system: where its runs start, and what an event does. -/
structure System (σ : Type u) (ε : Type v) where
  start : σ → Prop
  next : σ → ε → Option σ

namespace System

variable {σ : Type u} {ε : Type v} {sys : System σ ε} {ok : σ → ε → Prop}

/-- The states of the runs whose events all meet the condition. -/
inductive Reachable (sys : System σ ε) (ok : σ → ε → Prop) : σ → Prop where
  | start {s : σ} (h : sys.start s) : Reachable sys ok s
  | step {s s' : σ} {e : ε} (h : Reachable sys ok s) (hok : ok s e)
      (hnext : sys.next s e = some s') : Reachable sys ok s'

/-- The invariant rule. -/
theorem Reachable.invariant {I : σ → Prop} (hstart : ∀ s, sys.start s → I s)
    (hstep : ∀ s e s', I s → ok s e → sys.next s e = some s' → I s') {s : σ}
    (h : sys.Reachable ok s) : I s := by
  induction h with
  | start h => exact hstart _ h
  | step _ hok hnext ih => exact hstep _ _ _ ih hok hnext

/-- The runs of a system from a state on. -/
def resumed (sys : System σ ε) (s : σ) : System σ ε := { sys with start := fun t => t = s }

section Run

variable [∀ s e, Decidable (ok s e)]

/-- The state after a list of events, if every one of them meets the condition and has a
result. -/
def run (sys : System σ ε) (ok : σ → ε → Prop) [∀ s e, Decidable (ok s e)] :
    List ε → σ → Option σ
  | [], s => some s
  | e :: events, s =>
      if ok s e then
        match sys.next s e with
        | none => none
        | some s => run sys ok events s
      else none

theorem Reachable.run {s s' : σ} (h : sys.Reachable ok s) :
    ∀ {events : List ε}, sys.run ok events s = some s' → sys.Reachable ok s' := by
  intro events
  induction events generalizing s with
  | nil =>
      intro hrun
      cases hrun
      exact h
  | cons e events ih =>
      intro hrun
      unfold System.run at hrun
      by_cases hok : ok s e
      · rw [if_pos hok] at hrun
        cases hnext : sys.next s e with
        | none =>
            rw [hnext] at hrun
            cases hrun
        | some s₁ =>
            rw [hnext] at hrun
            exact ih (h.step hok hnext) hrun
      · rw [if_neg hok] at hrun
        cases hrun

end Run

end System

/-- A step behind a guard. -/
theorem guarded_eq_some {σ : Type u} {p : Prop} [Decidable p] {s s' : σ}
    (h : (if p then some s else none) = some s') : p ∧ s = s' := by
  split at h
  · rename_i hp
    exact ⟨hp, Option.some.inj h⟩
  · cases h

/-- The invariant rule for what holds of the state and of the events that led to it. -/
theorem foldlM_history {σ : Type u} {ε : Type v} {next : σ → ε → Option σ}
    {I : List ε → σ → Prop}
    (hstep : ∀ past s e s', I past s → next s e = some s' → I (past ++ [e]) s')
    {events : List ε} {past : List ε} {s s' : σ} (h : I past s)
    (hrun : events.foldlM next s = some s') : I (past ++ events) s' := by
  induction events generalizing past s with
  | nil =>
      cases hrun
      rw [List.append_nil]
      exact h
  | cons e events ih =>
      rw [List.foldlM_cons] at hrun
      cases hnext : next s e with
      | none =>
          rw [hnext] at hrun
          cases hrun
      | some s₁ =>
          rw [hnext] at hrun
          have hrest := ih (hstep past s e s₁ h hnext) hrun
          rw [List.append_assoc] at hrest
          exact hrest

end DragonDevice.Lib
