/-
  Lib/TaskPool.lean --- tasks in progress, and what they hold.

  A step takes one task out of a pool and puts the tasks that follow it back.  What the
  tasks hold of a resource is a sum of weights over the pool.
-/
import Mathlib.Data.List.Basic

set_option autoImplicit false

namespace DragonDevice.Lib

universe u

variable {τ : Type u}

/-- What the tasks of a pool hold together. -/
def total (w : τ → Nat) : List τ → Nat
  | [] => 0
  | t :: tasks => w t + total w tasks

@[simp] theorem total_nil (w : τ → Nat) : total w [] = 0 := rfl

@[simp] theorem total_cons (w : τ → Nat) (t : τ) (tasks : List τ) :
    total w (t :: tasks) = w t + total w tasks := rfl

theorem total_append (w : τ → Nat) (tasks new : List τ) :
    total w (tasks ++ new) = total w tasks + total w new := by
  induction tasks with
  | nil => rw [List.nil_append, total_nil, Nat.zero_add]
  | cons t tasks ih => rw [List.cons_append, total_cons, total_cons, ih, Nat.add_assoc]

theorem total_eq_zero {w : τ → Nat} {tasks : List τ} (h : ∀ t ∈ tasks, w t = 0) :
    total w tasks = 0 := by
  induction tasks with
  | nil => rfl
  | cons t tasks ih =>
      rw [List.forall_mem_cons] at h
      rw [total_cons, h.1, ih h.2]

variable [DecidableEq τ]

theorem total_erase {w : τ → Nat} {tasks : List τ} {t : τ} (h : t ∈ tasks) :
    total w (tasks.erase t) + w t = total w tasks := by
  induction tasks with
  | nil => exact absurd h List.not_mem_nil
  | cons t' tasks ih =>
      by_cases heq : t' = t
      · rw [heq, List.erase_cons_head, total_cons, Nat.add_comm]
      · have hrest := ih ((List.mem_cons.mp h).resolve_left fun heq' => heq heq'.symm)
        rw [List.erase_cons_tail (by rw [beq_eq_false_iff_ne.mpr heq]; exact Bool.false_ne_true),
          total_cons, total_cons, Nat.add_assoc, hrest]

/-- The pool after a task has been replaced by the tasks that follow it. -/
theorem total_replace {w : τ → Nat} {tasks : List τ} {t : τ} (h : t ∈ tasks) (new : List τ) :
    total w (tasks.erase t ++ new) + w t = total w tasks + total w new := by
  have herase := total_erase (w := w) h
  rw [total_append]
  omega

theorem le_total {w : τ → Nat} {tasks : List τ} {t : τ} (h : t ∈ tasks) :
    w t ≤ total w tasks := by
  have herase := total_erase (w := w) h
  omega

/-- Where one task holds everything, the others hold nothing. -/
theorem weight_eq_zero {w : τ → Nat} {tasks : List τ} {t : τ} (h : t ∈ tasks)
    (hall : total w tasks ≤ w t) : ∀ t' ∈ tasks.erase t, w t' = 0 := by
  intro t' ht'
  have herase := total_erase (w := w) h
  have hle := le_total (w := w) ht'
  omega

end DragonDevice.Lib
