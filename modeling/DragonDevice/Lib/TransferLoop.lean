/-
  Lib/TransferLoop.lean --- `while (count)` loops that move some of what is left.

  Each turn may fail, fault, or move a part of the `count` that is left; the loop returns
  zero when nothing is left.  A turn that moves nothing is taken again, so a loop can run
  for ever.  The number of the call is passed on, so that whatever the turn asks can answer
  differently each time.
-/
import Mathlib.Data.Nat.Basic

set_option autoImplicit false

namespace DragonDevice.Lib

universe u

/-- How a run stands: it has returned, done something undefined, or is still running. -/
inductive Run (σ : Type u) where
  | returned (res : Int) (s : σ)
  | fault
  | running

/-- How one turn of a transfer ends. -/
inductive Turn (σ : Type u) where
  | moved (n : Nat) (s : σ)
  | failed (res : Int) (s : σ)
  | fault

variable {σ : Type u}

/-- The loop, for at most `fuel` turns.  A turn sees the number of the call, what is done,
what is left and the state. -/
def transfer (turn : Nat → Nat → Nat → σ → Turn σ) : Nat → Nat → Nat → Nat → σ → Run σ
  | 0, _, _, _, _ => .running
  | fuel + 1, call, done, count, s =>
      if count = 0 then .returned 0 s
      else
        match turn call done count s with
        | .fault => .fault
        | .failed res s => .returned res s
        | .moved n s => transfer turn fuel (call + 1) (done + n) (count - n) s

variable {turn : Nat → Nat → Nat → σ → Turn σ} {I : Nat → σ → Prop} {F : Int → Prop}

/-- A turn that keeps `I` moves at least one and at most what is left; one that fails has
a result in `F`. -/
def TurnKeeps (turn : Nat → Nat → Nat → σ → Turn σ) (I : Nat → σ → Prop) (F : Int → Prop)
    (total : Nat) : Prop :=
  ∀ call done count s, 0 < count → done + count = total → I done s →
    (∃ n s', turn call done count s = .moved n s' ∧ 0 < n ∧ n ≤ count ∧ I (done + n) s') ∨
      ∃ res s', turn call done count s = .failed res s' ∧ F res

/-- Such a loop ends, with everything moved or with a failure. -/
theorem transfer_from {total : Nat} (hturn : TurnKeeps turn I F total) :
    ∀ fuel call done count s, count < fuel → done + count = total → I done s →
      ∃ res s', transfer turn fuel call done count s = .returned res s' ∧
        (res = 0 ∧ I total s' ∨ F res) := by
  intro fuel
  induction fuel with
  | zero =>
      intro call done count s hfuel
      exact absurd hfuel (Nat.not_lt_zero count)
  | succ fuel ih =>
      intro call done count s hfuel htotal hI
      unfold transfer
      split
      · rename_i hcount
        rw [hcount, Nat.add_zero] at htotal
        exact ⟨0, s, rfl, Or.inl ⟨rfl, htotal ▸ hI⟩⟩
      · rename_i hcount
        cases hturn call done count s (Nat.pos_of_ne_zero hcount) htotal hI with
        | inl hmoved =>
            obtain ⟨n, s', hrun, hpos, hle, hI'⟩ := hmoved
            rw [hrun]
            exact ih (call + 1) (done + n) (count - n) s' (by omega) (by omega) hI'
        | inr hfailed =>
            obtain ⟨res, s', hrun, hF⟩ := hfailed
            rw [hrun]
            exact ⟨res, s', rfl, Or.inr hF⟩

theorem transfer_spec {total : Nat} {s : σ} (hturn : TurnKeeps turn I F total) (hI : I 0 s) :
    ∃ res s', transfer turn (total + 1) 0 0 total s = .returned res s' ∧
      (res = 0 ∧ I total s' ∨ F res) :=
  transfer_from hturn (total + 1) 0 0 total s (Nat.lt_succ_self total) (Nat.zero_add total) hI

/-- A loop that always has something left and never fails does not end. -/
theorem transfer_running {P : Nat → Nat → σ → Prop}
    (hturn : ∀ call done count s, P done count s → count ≠ 0 ∧
      ∃ n s', turn call done count s = .moved n s' ∧ P (done + n) (count - n) s') :
    ∀ fuel call done count s, P done count s →
      transfer turn fuel call done count s = .running := by
  intro fuel
  induction fuel with
  | zero =>
      intro call done count s _
      rfl
  | succ fuel ih =>
      intro call done count s hP
      obtain ⟨hcount, n, s', hrun, hP'⟩ := hturn call done count s hP
      unfold transfer
      rw [if_neg hcount, hrun]
      exact ih (call + 1) (done + n) (count - n) s' hP'

/-- More fuel does not change a loop that has ended. -/
theorem transfer_stable :
    ∀ fuel more call done count s, transfer turn fuel call done count s ≠ .running →
      transfer turn (fuel + more) call done count s = transfer turn fuel call done count s := by
  intro fuel
  induction fuel with
  | zero =>
      intro more call done count s hrun
      exact absurd rfl hrun
  | succ fuel ih =>
      intro more call done count s hrun
      rw [Nat.succ_add]
      unfold transfer at hrun ⊢
      split at hrun
      · rename_i hcount
        rw [if_pos hcount, if_pos hcount]
      · rename_i hcount
        rw [if_neg hcount, if_neg hcount]
        cases hstep : turn call done count s with
        | fault => rfl
        | failed res s' => rfl
        | moved n s' =>
            rw [hstep] at hrun
            exact ih more (call + 1) (done + n) (count - n) s' hrun

/-- A loop returns in one way only. -/
theorem transfer_unique {fuel fuel' call done count : Nat} {s s₁ s₂ : σ} {res₁ res₂ : Int}
    (h₁ : transfer turn fuel call done count s = .returned res₁ s₁)
    (h₂ : transfer turn fuel' call done count s = .returned res₂ s₂) :
    res₁ = res₂ ∧ s₁ = s₂ := by
  have hmore := @transfer_stable _ turn fuel fuel' call done count s (by rw [h₁]; nofun)
  have hmore' := @transfer_stable _ turn fuel' fuel call done count s (by rw [h₂]; nofun)
  rw [Nat.add_comm, hmore, h₁, h₂] at hmore'
  cases hmore'
  exact ⟨rfl, rfl⟩

end DragonDevice.Lib
