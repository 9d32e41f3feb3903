/-
  Lib/LockOrder.lean --- threads that take mutexes in an order.

  A call is code: it locks and unlocks, reads the shared state, changes it, and checks it.
  What follows a reading depends on what was read, so one piece of code holds every path.
  A protocol ranks the mutexes and names one that guards a part of the state.  Code that
  follows the protocol, in any number of threads and in every interleaving, never waits in
  a cycle, releases what it took, and knows the guarded part as long as it holds the guard.
-/
import Mathlib.Data.List.Nodup
import Mathlib.Logic.Function.Basic
import Mathlib.Logic.Relation
import DragonDevice.Lib.Transition

set_option autoImplicit false

namespace DragonDevice.Lib

/-! ## Code and threads -/

/-- What is left of a call.  An action has no result where the code would crash. -/
inductive ThreadCode (μ σ ρ : Type) where
  | ret
  | lock (mutex : μ) (rest : ThreadCode μ σ ρ)
  | unlock (mutex : μ) (rest : ThreadCode μ σ ρ)
  | read (rest : σ → ThreadCode μ σ ρ)
  | act (action : σ → Option (ρ × σ)) (rest : ρ → ThreadCode μ σ ρ)
  | check (test : σ → Bool) (rest : ThreadCode μ σ ρ)

/-- The state that a call leaves when no other thread runs. -/
def ThreadCode.alone {μ σ ρ : Type} : ThreadCode μ σ ρ → σ → Option σ
  | .ret, s => some s
  | .lock _ rest, s => rest.alone s
  | .unlock _ rest, s => rest.alone s
  | .read rest, s => (rest s).alone s
  | .act action rest, s =>
      match action s with
      | none => none
      | some (r, s') => (rest r).alone s'
  | .check test rest, s => if test s then rest.alone s else none

/-- The threads, who holds which mutex, and the state they share.  A thread that is in no
call has nothing left to do. -/
structure Threads (τ : Type) (μ σ ρ : Type) where
  code : τ → ThreadCode μ σ ρ
  holder : μ → Option τ
  state : σ

/-- A thread enters a call, or goes on. -/
inductive ThreadEvent (τ κ : Type) where
  | enter (t : τ) (call : κ)
  | step (t : τ)

section

variable {τ κ : Type} {μ σ ρ : Type} [DecidableEq τ] [DecidableEq μ]

/-- One step of a thread.  It waits for a mutex that is held, and a check that fails or an
action that crashes is its last. -/
def Threads.step (m : Threads τ μ σ ρ) (t : τ) : Option (Threads τ μ σ ρ) :=
  match m.code t with
  | .ret => none
  | .lock x rest =>
      if m.holder x = none then
        some
          { m with
            code := Function.update m.code t rest
            holder := Function.update m.holder x (some t) }
      else
        none
  | .unlock x rest =>
      some
        { m with
          code := Function.update m.code t rest
          holder := Function.update m.holder x none }
  | .read rest => some { m with code := Function.update m.code t (rest m.state) }
  | .act action rest =>
      (action m.state).map fun r =>
        { m with code := Function.update m.code t (rest r.1), state := r.2 }
  | .check test rest =>
      if test m.state then some { m with code := Function.update m.code t rest } else none

/-- A thread enters a call when the one before has returned. -/
def Threads.enter (m : Threads τ μ σ ρ) (t : τ) (code : ThreadCode μ σ ρ) :
    Option (Threads τ μ σ ρ) :=
  match m.code t with
  | .ret => some { m with code := Function.update m.code t code }
  | _ => none

/-- Threads that make calls, from a state in which no mutex is held. -/
def threadSystem (τ : Type) [DecidableEq τ] (codeOf : κ → ThreadCode μ σ ρ) :
    System (Threads τ μ σ ρ) (ThreadEvent τ κ) where
  start m := (∀ t, m.code t = .ret) ∧ ∀ x, m.holder x = none
  next m
    | .enter t call => m.enter t (codeOf call)
    | .step t => m.step t

end

/-- A thread waits for a mutex that another one holds. -/
def Threads.WaitsFor {τ : Type} {μ σ ρ : Type} (m : Threads τ μ σ ρ) (t u : τ) : Prop :=
  ∃ x rest, m.code t = .lock x rest ∧ m.holder x = some u

/-- What the protocol gives in a state: no threads wait for each other in a cycle, a thread
unlocks only what it holds, at its return it holds nothing, and no check fails. -/
structure Threads.Orderly {τ : Type} {μ σ ρ : Type} (m : Threads τ μ σ ρ) : Prop where
  noCycle : ∀ t, ¬ Relation.TransGen m.WaitsFor t t
  unlocksHeld : ∀ t x rest, m.code t = .unlock x rest → m.holder x = some t
  returnsFree : ∀ t, m.code t = .ret → ∀ x, m.holder x ≠ some t
  checksHold : ∀ t test rest, m.code t = .check test rest → test m.state = true

/-! ## The protocol -/

/-- An order of the mutexes, and the one that guards a part of the state. -/
structure LockProtocol (μ σ ν : Type) where
  rank : μ → Nat
  guard : μ
  part : σ → ν

section

variable {μ σ ρ ν : Type} [DecidableEq μ]

/-- Code that follows the protocol, from where it holds some mutexes and knows the guarded
part or not. -/
inductive Follows (p : LockProtocol μ σ ν) : List μ → Option ν → ThreadCode μ σ ρ → Prop where
  | ret {known : Option ν} : Follows p [] known .ret
  | lock {held : List μ} {known : Option ν} {x : μ} {rest : ThreadCode μ σ ρ}
      (horder : ∀ y ∈ held, p.rank y < p.rank x) (hrest : Follows p (x :: held) known rest) :
      Follows p held known (.lock x rest)
  | unlock {held : List μ} {known : Option ν} {x : μ} {rest : ThreadCode μ σ ρ}
      (hheld : x ∈ held)
      (hrest : Follows p (held.erase x) (if x = p.guard then none else known) rest) :
      Follows p held known (.unlock x rest)
  | read {held : List μ} {known : Option ν} {rest : σ → ThreadCode μ σ ρ}
      (hrest : ∀ s, Follows p held known (rest s)) : Follows p held known (.read rest)
  | learn {held : List μ} {known : Option ν} {rest : σ → ThreadCode μ σ ρ}
      (hguard : p.guard ∈ held) (hrest : ∀ s, Follows p held (some (p.part s)) (rest s)) :
      Follows p held known (.read rest)
  | keep {held : List μ} {known : Option ν} {action : σ → Option (ρ × σ)}
      {rest : ρ → ThreadCode μ σ ρ}
      (hkeep : ∀ s r s', action s = some (r, s') → p.part s' = p.part s)
      (hrest : ∀ s r s', action s = some (r, s') → Follows p held known (rest r)) :
      Follows p held known (.act action rest)
  | change {held : List μ} {known : Option ν} {action : σ → Option (ρ × σ)}
      {rest : ρ → ThreadCode μ σ ρ} (hguard : p.guard ∈ held)
      (hrest : ∀ s r s', action s = some (r, s') → Follows p held none (rest r)) :
      Follows p held known (.act action rest)
  | check {held : List μ} {v : ν} {test : σ → Bool} {rest : ThreadCode μ σ ρ}
      (htest : ∀ s, p.part s = v → test s = true) (hrest : Follows p held (some v) rest) :
      Follows p held (some v) (.check test rest)

namespace Follows

variable {p : LockProtocol μ σ ν} {held : List μ} {known : Option ν}

theorem of_ret (h : Follows p held known (.ret : ThreadCode μ σ ρ)) : held = [] := by
  cases h
  rfl

theorem of_lock {x : μ} {rest : ThreadCode μ σ ρ} (h : Follows p held known (.lock x rest)) :
    (∀ y ∈ held, p.rank y < p.rank x) ∧ Follows p (x :: held) known rest := by
  cases h with
  | lock horder hrest => exact ⟨horder, hrest⟩

theorem of_unlock {x : μ} {rest : ThreadCode μ σ ρ} (h : Follows p held known (.unlock x rest)) :
    x ∈ held ∧ Follows p (held.erase x) (if x = p.guard then none else known) rest := by
  cases h with
  | unlock hheld hrest => exact ⟨hheld, hrest⟩

theorem of_read {rest : σ → ThreadCode μ σ ρ} (h : Follows p held known (.read rest)) :
    (∀ s, Follows p held known (rest s)) ∨
      p.guard ∈ held ∧ ∀ s, Follows p held (some (p.part s)) (rest s) := by
  cases h with
  | read hrest => exact .inl hrest
  | learn hguard hrest => exact .inr ⟨hguard, hrest⟩

theorem of_act {action : σ → Option (ρ × σ)} {rest : ρ → ThreadCode μ σ ρ}
    (h : Follows p held known (.act action rest)) :
    (∀ s r s', action s = some (r, s') →
      p.part s' = p.part s ∧ Follows p held known (rest r)) ∨
      p.guard ∈ held ∧ ∀ s r s', action s = some (r, s') → Follows p held none (rest r) := by
  cases h with
  | keep hkeep hrest => exact .inl fun s r s' h => ⟨hkeep s r s' h, hrest s r s' h⟩
  | change hguard hrest => exact .inr ⟨hguard, hrest⟩

theorem of_check {test : σ → Bool} {rest : ThreadCode μ σ ρ}
    (h : Follows p held known (.check test rest)) :
    ∃ v, known = some v ∧ (∀ s, p.part s = v → test s = true) ∧
      Follows p held known rest := by
  cases h with
  | check htest hrest => exact ⟨_, rfl, htest, hrest⟩

/-- Code that follows the protocol knowing nothing also follows it knowing something. -/
theorem weaken {code : ThreadCode μ σ ρ} (h : Follows p held none code) :
    Follows p held known code := by
  generalize hnone : (none : Option ν) = unknown at h
  induction h generalizing known with
  | ret => exact .ret
  | lock horder _ ih => exact .lock horder (ih hnone)
  | @unlock held unknown x rest hheld _ ih =>
      refine .unlock hheld (ih ?_)
      rw [← hnone, ite_self]
  | read _ ih => exact .read fun s => ih s hnone
  | learn hguard hrest => exact .learn hguard hrest
  | keep hkeep _ ih => exact .keep hkeep fun s r s' h => ih s r s' h hnone
  | change hguard hrest => exact .change hguard hrest
  | check => cases hnone

/-- The mutex taken last is released. -/
theorem unlock_head {x : μ} {rest : ThreadCode μ σ ρ} (hx : x ≠ p.guard)
    (hrest : Follows p held known rest) : Follows p (x :: held) known (.unlock x rest) := by
  refine .unlock List.mem_cons_self ?_
  rwa [List.erase_cons_head, if_neg hx]

/-- The mutex taken before the last is released. -/
theorem unlock_second {x y : μ} {rest : ThreadCode μ σ ρ} (hyx : y ≠ x) (hx : x ≠ p.guard)
    (hrest : Follows p (y :: held) known rest) :
    Follows p (y :: x :: held) known (.unlock x rest) := by
  refine .unlock (List.mem_cons_of_mem y List.mem_cons_self) ?_
  rwa [List.erase_cons_tail (by simpa using hyx), List.erase_cons_head, if_neg hx]

/-- The guard is released as the one taken last, and the part is no longer known. -/
theorem release_head {rest : ThreadCode μ σ ρ} (hrest : Follows p held none rest) :
    Follows p (p.guard :: held) known (.unlock p.guard rest) := by
  refine .unlock List.mem_cons_self ?_
  rwa [List.erase_cons_head, if_pos rfl]

/-- The guard is released as the one taken before the last. -/
theorem release_second {y : μ} {rest : ThreadCode μ σ ρ} (hy : y ≠ p.guard)
    (hrest : Follows p (y :: held) none rest) :
    Follows p (y :: p.guard :: held) known (.unlock p.guard rest) := by
  refine .unlock (List.mem_cons_of_mem y List.mem_cons_self) ?_
  rwa [List.erase_cons_tail (by simpa using hy), List.erase_cons_head, if_pos rfl]

end Follows

variable {τ κ : Type} [DecidableEq τ]

/-- Every thread follows the protocol, with the mutexes it holds and what it knows. -/
structure Obeyed (p : LockProtocol μ σ ν) (m : Threads τ μ σ ρ) (held : τ → List μ)
    (known : τ → Option ν) : Prop where
  follows : ∀ t, Follows p (held t) (known t) (m.code t)
  nodup : ∀ t, (held t).Nodup
  holds : ∀ t x, x ∈ held t ↔ m.holder x = some t
  knows : ∀ t v, known t = some v → m.holder p.guard = some t ∧ p.part m.state = v

/-! ## One step -/

variable {p : LockProtocol μ σ ν} {m m' : Threads τ μ σ ρ} {held : τ → List μ}
  {known : τ → Option ν}

/-- A thread moves: what it holds and knows afterwards is its own matter, as long as it takes
nothing from another thread and keeps the guarded part while another one holds the guard. -/
theorem Obeyed.move (h : Obeyed p m held known) (t : τ) {code : ThreadCode μ σ ρ}
    {holder : μ → Option τ} {state : σ} {heldT : List μ} {knownT : Option ν}
    (hcode : Follows p heldT knownT code) (hnodup : heldT.Nodup)
    (hholds : ∀ x, x ∈ heldT ↔ holder x = some t)
    (hothers : ∀ u, u ≠ t → ∀ x, holder x = some u ↔ m.holder x = some u)
    (hknows : ∀ v, knownT = some v → holder p.guard = some t ∧ p.part state = v)
    (hpart : m.holder p.guard = some t ∨ p.part state = p.part m.state) :
    Obeyed p ⟨Function.update m.code t code, holder, state⟩ (Function.update held t heldT)
      (Function.update known t knownT) where
  follows u := by
    by_cases hu : u = t
    · subst hu
      simpa using hcode
    · simpa [Function.update_of_ne hu] using h.follows u
  nodup u := by
    by_cases hu : u = t
    · subst hu
      simpa using hnodup
    · simpa [Function.update_of_ne hu] using h.nodup u
  holds u x := by
    by_cases hu : u = t
    · subst hu
      simpa using hholds x
    · rw [Function.update_of_ne hu, h.holds u x]
      exact (hothers u hu x).symm
  knows u v hv := by
    by_cases hu : u = t
    · subst hu
      rw [Function.update_self] at hv
      exact hknows v hv
    · rw [Function.update_of_ne hu] at hv
      obtain ⟨hholder, hv⟩ := h.knows u v hv
      refine ⟨(hothers u hu _).mpr hholder, ?_⟩
      rcases hpart with ht | hsame
      · rw [hholder] at ht
        exact absurd (Option.some.inj ht) hu
      · exact hsame.trans hv

/-- A move without mutexes: reading, acting, checking, entering a call. -/
theorem Obeyed.moveFree (h : Obeyed p m held known) (t : τ) {code : ThreadCode μ σ ρ} {state : σ}
    {knownT : Option ν} (hcode : Follows p (held t) knownT code)
    (hknows : ∀ v, knownT = some v → m.holder p.guard = some t ∧ p.part state = v)
    (hpart : m.holder p.guard = some t ∨ p.part state = p.part m.state) :
    ∃ known', Obeyed p { m with code := Function.update m.code t code, state := state } held
      known' := by
  refine ⟨Function.update known t knownT, ?_⟩
  have hmove := h.move t hcode (h.nodup t) (h.holds t) (fun _ _ _ => Iff.rfl) hknows hpart
  rwa [Function.update_eq_self] at hmove

/-- Every step of every thread keeps the protocol. -/
theorem Obeyed.step (h : Obeyed p m held known) {t : τ} (hstep : m.step t = some m') :
    ∃ held' known', Obeyed p m' held' known' := by
  have hfollows := h.follows t
  unfold Threads.step at hstep
  split at hstep
  · cases hstep
  · rename_i x rest hcode
    rw [hcode] at hfollows
    obtain ⟨hfree, rfl⟩ := guarded_eq_some hstep
    obtain ⟨-, hrest⟩ := hfollows.of_lock
    refine ⟨_, _, h.move t hrest (List.nodup_cons.mpr ⟨?_, h.nodup t⟩) (fun y => ?_)
      (fun u hu y => ?_) (fun v hv => ?_) (.inr rfl)⟩
    · rw [h.holds t x, hfree]
      exact nofun
    · rw [List.mem_cons, h.holds t y]
      by_cases hy : y = x
      · simp [hy]
      · rw [Function.update_of_ne hy]
        exact or_iff_right hy
    · by_cases hy : y = x
      · subst hy
        simp [hfree, Ne.symm hu]
      · rw [Function.update_of_ne hy]
    · obtain ⟨hholder, hv⟩ := h.knows t v hv
      refine ⟨?_, hv⟩
      by_cases hx : p.guard = x
      · rw [hx, hfree] at hholder
        cases hholder
      · rw [Function.update_of_ne hx, hholder]
  · rename_i x rest hcode
    rw [hcode] at hfollows
    cases hstep
    obtain ⟨hheld, hrest⟩ := hfollows.of_unlock
    refine ⟨_, _, h.move t hrest ((h.nodup t).erase x) (fun y => ?_) (fun u hu y => ?_)
      (fun v hv => ?_) (.inr rfl)⟩
    · rw [(h.nodup t).mem_erase_iff, h.holds t y]
      by_cases hy : y = x
      · simp [hy]
      · rw [Function.update_of_ne hy]
        exact and_iff_right hy
    · by_cases hy : y = x
      · subst hy
        have hholder := (h.holds t y).mp hheld
        simp [hholder, Ne.symm hu]
      · rw [Function.update_of_ne hy]
    · split at hv
      · cases hv
      · rename_i hx
        rw [Function.update_of_ne (Ne.symm hx)]
        exact h.knows t v hv
  · rename_i rest hcode
    rw [hcode] at hfollows
    cases hstep
    rcases hfollows.of_read with hrest | ⟨hguard, hrest⟩
    · exact ⟨held, h.moveFree t (hrest m.state) (h.knows t) (.inr rfl)⟩
    · refine ⟨held, h.moveFree t (hrest m.state) (fun v hv => ?_) (.inr rfl)⟩
      exact ⟨(h.holds t _).mp hguard, Option.some.inj hv⟩
  · rename_i action rest hcode
    rw [hcode] at hfollows
    obtain ⟨⟨r, s'⟩, haction, rfl⟩ := Option.map_eq_some_iff.mp hstep
    rcases hfollows.of_act with hkeep | ⟨hguard, hrest⟩
    · obtain ⟨hsame, hrest⟩ := hkeep _ _ _ haction
      refine ⟨held, h.moveFree t hrest (fun v hv => ?_) (.inr hsame)⟩
      obtain ⟨hholder, hv⟩ := h.knows t v hv
      exact ⟨hholder, hsame.trans hv⟩
    · have hrest := hrest _ _ _ haction
      exact ⟨held, h.moveFree t hrest nofun (.inl ((h.holds t _).mp hguard))⟩
  · rename_i test rest hcode
    rw [hcode] at hfollows
    obtain ⟨-, rfl⟩ := guarded_eq_some hstep
    obtain ⟨v, -, -, hrest⟩ := hfollows.of_check
    exact ⟨held, h.moveFree t hrest (h.knows t) (.inr rfl)⟩

/-- A call that follows the protocol begins. -/
theorem Obeyed.enter (h : Obeyed p m held known) {t : τ} {code : ThreadCode μ σ ρ}
    (hcode : Follows p [] none code) (henter : m.enter t code = some m') :
    ∃ known', Obeyed p m' held known' := by
  unfold Threads.enter at henter
  split at henter
  · rename_i hret
    cases henter
    have hfollows := h.follows t
    rw [hret] at hfollows
    rw [← hfollows.of_ret] at hcode
    exact h.moveFree t hcode nofun (.inr rfl)
  · cases henter

/-! ## Every state and every step -/

omit [DecidableEq τ] in
/-- The rank of what a thread waits for is at most that of what the last one of a chain of
waiting threads holds. -/
theorem Obeyed.rank_of_waits (h : Obeyed p m held known) {t u : τ}
    (hwaits : Relation.TransGen m.WaitsFor t u) :
    ∃ x rest y, m.code t = .lock x rest ∧ y ∈ held u ∧ p.rank x ≤ p.rank y := by
  induction hwaits with
  | single hwait =>
      obtain ⟨x, rest, hcode, hholder⟩ := hwait
      exact ⟨x, rest, x, hcode, (h.holds _ x).mpr hholder, Nat.le_refl _⟩
  | @tail v w _ hwait ih =>
      obtain ⟨x, rest, y, hcode, hy, hle⟩ := ih
      obtain ⟨z, rest', hcode', hholder⟩ := hwait
      have hfollows := h.follows v
      rw [hcode'] at hfollows
      have hlt := hfollows.of_lock.1 y hy
      refine ⟨x, rest, z, hcode, (h.holds w z).mpr hholder, ?_⟩
      omega

omit [DecidableEq τ] in
theorem Obeyed.orderly (h : Obeyed p m held known) : m.Orderly where
  noCycle t hcycle := by
    obtain ⟨x, rest, y, hcode, hy, hle⟩ := h.rank_of_waits hcycle
    have hfollows := h.follows t
    rw [hcode] at hfollows
    exact Nat.not_lt.mpr hle (hfollows.of_lock.1 y hy)
  unlocksHeld t x rest hcode := by
    have hfollows := h.follows t
    rw [hcode] at hfollows
    exact (h.holds t x).mp hfollows.of_unlock.1
  returnsFree t hcode x hholder := by
    have hfollows := h.follows t
    rw [hcode] at hfollows
    have hmem := (h.holds t x).mpr hholder
    rw [hfollows.of_ret] at hmem
    cases hmem
  checksHold t test rest hcode := by
    have hfollows := h.follows t
    rw [hcode] at hfollows
    obtain ⟨v, hknown, htest, -⟩ := hfollows.of_check
    exact htest _ (h.knows t v hknown).2

/-- The guarded part changes only in a step of the thread that holds the guard. -/
theorem Obeyed.part_step (h : Obeyed p m held known) {t : τ} (hstep : m.step t = some m')
    (hne : p.part m'.state ≠ p.part m.state) : m.holder p.guard = some t := by
  have hfollows := h.follows t
  unfold Threads.step at hstep
  split at hstep
  · cases hstep
  · obtain ⟨-, rfl⟩ := guarded_eq_some hstep
    exact absurd rfl hne
  · cases hstep
    exact absurd rfl hne
  · cases hstep
    exact absurd rfl hne
  · rename_i action rest hcode
    rw [hcode] at hfollows
    obtain ⟨⟨r, s'⟩, haction, rfl⟩ := Option.map_eq_some_iff.mp hstep
    rcases hfollows.of_act with hkeep | ⟨hguard, -⟩
    · exact absurd (hkeep _ _ _ haction).1 hne
    · exact (h.holds t _).mp hguard
  · obtain ⟨-, rfl⟩ := guarded_eq_some hstep
    exact absurd rfl hne

/-- In every interleaving of calls that follow the protocol, the threads obey it. -/
theorem reachable_obeyed {codeOf : κ → ThreadCode μ σ ρ}
    (hcode : ∀ call, Follows p [] none (codeOf call))
    {ok : Threads τ μ σ ρ → ThreadEvent τ κ → Prop}
    (h : (threadSystem τ codeOf).Reachable ok m) : ∃ held known, Obeyed p m held known := by
  refine System.Reachable.invariant (I := fun m => ∃ held known, Obeyed p m held known)
    (fun s hs => ?_) (fun s e s' hI _ hnext => ?_) h
  · refine ⟨fun _ => [], fun _ => none, fun t => ?_, fun _ => List.nodup_nil, fun t x => ?_,
      fun t v => nofun⟩
    · rw [hs.1 t]
      exact .ret
    · simp [hs.2 x]
  · obtain ⟨held, known, hI⟩ := hI
    cases e with
    | enter t call =>
        obtain ⟨known', hI⟩ := hI.enter (hcode call) hnext
        exact ⟨held, known', hI⟩
    | step t => exact hI.step hnext

end

end DragonDevice.Lib
